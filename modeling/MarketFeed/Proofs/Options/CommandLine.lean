import MarketFeed.Proofs.Options.Outcome

/-! The command line, both ways. Options that a command line can give are given by the one that they are
written as; these are the options whose type bytes are characters by themselves and whose counts have
64 bits. -/
namespace MarketFeed

theorem utf8Ascii {c : Char} (ascii : c.val ≤ 127) : String.utf8EncodeChar c = [c.val.toUInt8] :=
  String.utf8EncodeChar_eq_singleton (Char.utf8Size_eq_one_iff.mpr ascii)

theorem utf8OneByte {value : String} {tag : UInt8} (one : utf8 value = [tag]) : tag < 0x80 := by
  unfold utf8 at one
  cases characters : value.toList with
  | nil => simp [characters] at one
  | cons c rest =>
    rw [characters, List.flatMap_cons] at one
    have size : c.utf8Size = 1 := by
      have positive := c.utf8Size_pos
      have total := congrArg List.length one
      rw [List.length_append, String.length_utf8EncodeChar, List.length_singleton] at total
      omega
    have ascii := Char.utf8Size_eq_one_iff.mp size
    rw [utf8Ascii ascii, List.singleton_append, List.cons.injEq] at one
    have bound : c.val.toNat ≤ 127 := UInt32.le_iff_toNat_le.mp ascii
    rw [← one.1, UInt8.lt_iff_toNat_lt, UInt32.toNat_toUInt8, Nat.mod_eq_of_lt (by omega)]
    exact Nat.lt_of_le_of_lt bound (by decide)

theorem utf8Singleton {tag : UInt8} (ascii : tag < 0x80) :
    utf8 (String.singleton (latin1 tag)) = [tag] := by
  have bound : tag.toNat < 128 := UInt8.lt_iff_toNat_lt.mp ascii
  have value : (latin1 tag).val.toNat = tag.toNat := by rw [Char.toNat_val, latin1ToNat]
  have low : (latin1 tag).val ≤ 127 := by
    rw [UInt32.le_iff_toNat_le, value]
    exact Nat.le_of_lt_succ bound
  rw [utf8, String.toList_singleton, List.flatMap_singleton, utf8Ascii low]
  congr
  apply UInt8.toNat_inj.mp
  rw [UInt32.toNat_toUInt8, value, Nat.mod_eq_of_lt (by omega)]

namespace Flag

def group : Flag → Group
  | gapFill => .alone "-g"
  | verbose => .alone "-v"
  | start sequence => .valued "-s" (some (toString sequence.toNat))
  | cap count => .valued "-n" (some (toString count))
  | recover count => .valued "-c" (some (toString count))
  | type tag => .valued "-t" (some (String.singleton (latin1 tag)))

def Fits : Flag → Prop
  | cap count => count ≤ 0xFFFFFFFFFFFFFFFF
  | recover count => count ≤ 0xFFFFFFFFFFFFFFFF
  | type tag => tag < 0x80
  | _ => True

end Flag

theorem groupMeans {flag : Flag} (fits : flag.Fits) : Means flag.group flag := by
  cases flag with
  | gapFill => exact .gapFill
  | verbose => exact .verbose
  | start sequence =>
    have written : Means (Flag.start sequence).group (.start (UInt64.ofNat sequence.toNat)) :=
      .start (Text.decimalWritten _) (by have := sequence.toNat_lt; omega)
    rwa [UInt64.ofNat_toNat] at written
  | cap count => exact .cap (Text.decimalWritten count) fits
  | recover count => exact .recover (Text.decimalWritten count) fits
  | type tag => exact .type (utf8Singleton fits)

theorem meansFits {g : Group} {flag : Flag} (means : Means g flag) : flag.Fits := by
  cases means with
  | gapFill => trivial
  | verbose => trivial
  | start number fits => trivial
  | cap number fits => exact fits
  | recover number fits => exact fits
  | type one => exact utf8OneByte one

theorem groupsMean {flags : List Flag} (fits : ∀ flag ∈ flags, flag.Fits) :
    List.Forall₂ Means (flags.map Flag.group) flags := by
  induction flags with
  | nil => exact .nil
  | cons flag flags ih =>
    obtain ⟨first, later⟩ := List.forall_mem_cons.mp fits
    exact .cons (groupMeans first) (ih later)

theorem flagsFit {groups : List Group} {flags : List Flag} (means : List.Forall₂ Means groups flags) :
    ∀ flag ∈ flags, flag.Fits := by
  induction means with
  | nil => simp
  | cons first later ih => exact List.forall_mem_cons.mpr ⟨meansFits first, ih⟩

namespace Options

structure Expressible (o : Options) : Prop where
  cap : o.maxMessages ≤ 0xFFFFFFFFFFFFFFFF
  recover : ∀ count, o.recoverCount = some count → count ≤ 0xFFFFFFFFFFFFFFFF
  types : ∀ tag ∈ o.types, tag < 0x80

def flags (o : Options) : List Flag :=
  (if o.gapFill then [.gapFill] else []) ++ (if o.verbose then [.verbose] else []) ++
    [.start o.startSequence, .cap o.maxMessages] ++
    (o.recoverCount.map Flag.recover).toList ++ o.types.map .type

def arguments (o : Options) : List String := (o.flags.map Flag.group).flatMap Group.arguments

theorem typesApplied (types : List UInt8) (o : Options) :
    (types.map Flag.type).foldl apply o = { o with types := o.types ++ types } := by
  induction types generalizing o with
  | nil => simp
  | cons tag types ih => simp [ih, apply]

theorem flagsApplied (o : Options) : o.flags.foldl apply .default = o := by
  obtain ⟨gapFill, start, cap, recover, types, verbose⟩ := o
  rw [flags, List.foldl_append, typesApplied]
  cases gapFill <;> cases verbose <;> cases recover <;> rfl

theorem flagsFits {o : Options} (expressible : o.Expressible) : ∀ flag ∈ o.flags, flag.Fits := by
  obtain ⟨cap, recover, types⟩ := expressible
  intro flag member
  cases flag with
  | gapFill => trivial
  | verbose => trivial
  | start sequence => trivial
  | cap count =>
    have same : count = o.maxMessages := by simpa [flags] using member
    exact same ▸ cap
  | recover count => exact recover count (by simpa [flags] using member)
  | type tag => exact types tag (by simpa [flags] using member)

theorem appliedExpressible {o : Options} (expressible : o.Expressible) {flag : Flag}
    (fits : flag.Fits) : (o.apply flag).Expressible := by
  obtain ⟨cap, recover, types⟩ := expressible
  cases flag with
  | gapFill => exact ⟨cap, recover, types⟩
  | verbose => exact ⟨cap, recover, types⟩
  | start sequence => exact ⟨cap, recover, types⟩
  | cap count => exact ⟨fits, recover, types⟩
  | recover count => exact ⟨cap, by rintro _ ⟨⟩; exact fits, types⟩
  | type tag =>
    exact ⟨cap, recover, List.forall_mem_append.mpr ⟨types, List.forall_mem_singleton.mpr fits⟩⟩

theorem defaultExpressible : Expressible .default := ⟨by decide, by simp [default], by simp [default]⟩

theorem foldExpressible {flags : List Flag} (fits : ∀ flag ∈ flags, flag.Fits) {o : Options}
    (expressible : o.Expressible) : (flags.foldl apply o).Expressible := by
  induction flags generalizing o with
  | nil => exact expressible
  | cons flag flags ih =>
    obtain ⟨first, later⟩ := List.forall_mem_cons.mp fits
    exact ih later (appliedExpressible expressible first)

theorem parseWritten {o : Options} (expressible : o.Expressible) :
    Command.parse o.arguments = .ok (.run o) := by
  rw [arguments, Command.parseFlags (groupsMean (flagsFits expressible)), flagsApplied]

theorem parsedExpressible {arguments : List String} {o : Options}
    (parsed : Command.parse arguments = .ok (.run o)) : o.Expressible := by
  obtain ⟨groups, grouped⟩ := groupedExists arguments
  have outcome := (Command.outcomeIff grouped _).mpr parsed
  generalize result : Except.ok (Command.run o) = verdict at outcome
  cases outcome with
  | @run flags other means collects =>
    cases result
    rw [collectsUnique collects (collectsAll flags)]
    exact foldExpressible (flagsFit means) defaultExpressible
  | decided split sound decides =>
    subst result
    cases decides

end Options

theorem commandLineGrammar :
    (∀ arguments, ∃ groups, (∀ others, Grouped arguments others ↔ others = groups) ∧
      groups.flatMap Group.arguments = arguments ∧
      ∀ result, Outcome groups result ↔ Command.parse arguments = result) ∧
    (∀ groups, (∀ g ∈ groups, g.Sound) → Grouped (groups.flatMap Group.arguments) groups) ∧
    (∀ before a b after, (∀ g ∈ before ++ a :: b :: after, g.Sound) → a.name ≠ b.name →
      Command.parse ((before ++ b :: a :: after).flatMap Group.arguments) =
        Command.parse ((before ++ a :: b :: after).flatMap Group.arguments)) ∧
    (∀ before g after, (∀ h ∈ before ++ after, h.Sound) → g = .alone "-g" ∨ g = .alone "-v" →
      g ∈ before ++ after →
      Command.parse ((before ++ g :: after).flatMap Group.arguments) =
        Command.parse ((before ++ after).flatMap Group.arguments)) ∧
    (∀ g verdict, Decides g verdict → ¬ g.Sound ∧ (∀ other, Decides g other → other = verdict) ∧
      (verdict = .ok .help ∧ (g = .alone "-h" ∨ g = .alone "--help") ∨
        ∃ e front back, verdict = .error e ∧ e.message = front ++ g.name ++ back)) ∧
    ∀ o : Options, (∃ arguments, Command.parse arguments = .ok (.run o)) ↔ o.Expressible := by
  refine ⟨fun arguments => ?_, fun groups => soundGrouped, fun before a b after => parseSwapped,
    fun before g after => parseRepeated, fun g verdict decides => ?_, fun o => ?_⟩
  · obtain ⟨groups, grouped⟩ := groupedExists arguments
    refine ⟨groups, fun others => ⟨fun again => groupedUnique again grouped, ?_⟩,
      groupedArguments grouped, Command.outcomeIff grouped⟩
    rintro rfl
    exact grouped
  · refine ⟨decidesUnsound decides, fun other again => decidesUnique again decides, ?_⟩
    cases result : verdict with
    | error e =>
      subst result
      obtain ⟨front, back, names⟩ := decidesNames decides
      exact .inr ⟨e, front, back, rfl, names⟩
    | ok command =>
      subst result
      cases decides with
      | help asks => exact .inl ⟨rfl, asks.imp (congrArg _) (congrArg _)⟩
  · exact ⟨fun ⟨arguments, parsed⟩ => Options.parsedExpressible parsed,
      fun expressible => ⟨o.arguments, Options.parseWritten expressible⟩⟩

theorem capAndGapFill :
    Command.parse ["-n", "5", "-g"] = Command.parse ["-g", "-n", "5"] ∧
      Command.parse ["-g", "-n", "5", "-g"] = Command.parse ["-g", "-n", "5"] := by
  obtain ⟨_, _, swapped, repeated, _⟩ := commandLineGrammar
  have gapFill : Group.Sound (.alone "-g") := ⟨_, .gapFill⟩
  have cap : Group.Sound (.valued "-n" (some "5")) :=
    ⟨_, .cap (n := 5) ⟨by decide, by simp [Text.unsigned], by decide⟩ (by omega)⟩
  have sound : ∀ g ∈ [Group.alone "-g", .valued "-n" (some "5")], g.Sound := by
    simp [gapFill, cap]
  exact ⟨swapped [] (.alone "-g") (.valued "-n" (some "5")) [] sound (by decide),
    repeated [.alone "-g", .valued "-n" (some "5")] (.alone "-g") [] sound (.inl rfl) (by simp)⟩

/- A request for help behind a flag that wants a value is its value. -/
example : Command.parse ["-s", "-h"] = .error (.notASequence .invalidDigit) := by rfl

end MarketFeed
