import MarketFeed.Options
import MarketFeed.Proofs.Text.Typed

/-! The grammar of the command line. Arguments fall into groups from the left, in one way. A group by
itself either stands for a flag or decides what the command line comes to; what it does is the same
behind any options and before any arguments. -/
namespace MarketFeed

inductive Group where
  | alone (name : String)
  | valued (name : String) (value : Option String)
  deriving DecidableEq, Repr

namespace Group

def valueNames : List String := ["-s", "-n", "-c", "-t"]

def name : Group → String
  | alone name => name
  | valued name _ => name

def arguments : Group → List String
  | alone name => [name]
  | valued name value => name :: value.toList

end Group

/- Groups of an argument list. The argument behind a flag that wants a value is its value, whatever it
looks like. -/
inductive Grouped : List String → List Group → Prop where
  | done : Grouped [] []
  | alone {name rest groups} (plain : name ∉ Group.valueNames) (later : Grouped rest groups) :
      Grouped (name :: rest) (.alone name :: groups)
  | valued {name value rest groups} (wants : name ∈ Group.valueNames)
      (later : Grouped rest groups) :
      Grouped (name :: value :: rest) (.valued name (some value) :: groups)
  | last {name} (wants : name ∈ Group.valueNames) : Grouped [name] [.valued name none]

inductive Means : Group → Flag → Prop where
  | gapFill : Means (.alone "-g") .gapFill
  | verbose : Means (.alone "-v") .verbose
  | start {value n} (number : Text.Decimal value.toList n) (fits : n ≤ 0xFFFFFFFFFFFFFFFF) :
      Means (.valued "-s" (some value)) (.start (UInt64.ofNat n))
  | cap {value n} (number : Text.Decimal value.toList n) (fits : n ≤ 0xFFFFFFFFFFFFFFFF) :
      Means (.valued "-n" (some value)) (.cap n)
  | recover {value n} (number : Text.Decimal value.toList n) (fits : n ≤ 0xFFFFFFFFFFFFFFFF) :
      Means (.valued "-c" (some value)) (.recover n)
  | type {value tag} (one : utf8 value = [tag]) : Means (.valued "-t" (some value)) (.type tag)

def Group.Sound (g : Group) : Prop := ∃ flag, Means g flag

inductive Decides : Group → Except OptionsError Command → Prop where
  | help {name} (asks : name = "-h" ∨ name = "--help") : Decides (.alone name) (.ok .help)
  | unknown {name} (unused : name ∉ ["-g", "-v", "-h", "--help"]) :
      Decides (.alone name) (.error (.unknown name))
  | noValue {name} : Decides (.valued name none) (.error (.noValue name))
  | sequence {value fault} (faulty : Text.Faulty 0xFFFFFFFFFFFFFFFF value.toList fault) :
      Decides (.valued "-s" (some value)) (.error (.notASequence fault))
  | count {name value fault} (counts : name = "-n" ∨ name = "-c")
      (faulty : Text.Faulty 0xFFFFFFFFFFFFFFFF value.toList fault) :
      Decides (.valued name (some value)) (.error (.notACount name fault))
  | type {value} (other : ∀ tag, utf8 value ≠ [tag]) :
      Decides (.valued "-t" (some value)) (.error (.notOneByte value))

theorem groupedExists : (arguments : List String) → ∃ groups, Grouped arguments groups
  | [] => ⟨_, .done⟩
  | [name] => by
    by_cases wants : name ∈ Group.valueNames
    · exact ⟨_, .last wants⟩
    · exact ⟨_, .alone wants .done⟩
  | name :: value :: rest => by
    by_cases wants : name ∈ Group.valueNames
    · obtain ⟨groups, later⟩ := groupedExists rest
      exact ⟨_, .valued wants later⟩
    · obtain ⟨groups, later⟩ := groupedExists (value :: rest)
      exact ⟨_, .alone wants later⟩

theorem groupedUnique {arguments : List String} {groups others : List Group}
    (grouped : Grouped arguments groups) (again : Grouped arguments others) : groups = others := by
  induction grouped generalizing others with
  | done => cases again; rfl
  | alone plain later ih =>
    cases again with
    | alone _ other => rw [ih other]
    | valued wants _ => exact absurd wants plain
    | last wants => exact absurd wants plain
  | valued wants later ih =>
    cases again with
    | alone plain _ => exact absurd wants plain
    | valued _ other => rw [ih other]
  | last wants =>
    cases again with
    | alone plain _ => exact absurd wants plain
    | last _ => rfl

theorem groupedArguments {arguments : List String} {groups : List Group}
    (grouped : Grouped arguments groups) : groups.flatMap Group.arguments = arguments := by
  induction grouped with
  | done => rfl
  | alone plain later ih => simp [Group.arguments, ih]
  | valued wants later ih => simp [Group.arguments, ih]
  | last wants => rfl

theorem soundGrouped {groups : List Group} (sound : ∀ g ∈ groups, g.Sound) :
    Grouped (groups.flatMap Group.arguments) groups := by
  induction groups with
  | nil => exact .done
  | cons g groups ih =>
    obtain ⟨⟨flag, means⟩, rest⟩ := List.forall_mem_cons.mp sound
    have later := ih rest
    cases means with
    | gapFill => exact .alone (by decide) later
    | verbose => exact .alone (by decide) later
    | start number fits => exact .valued (by decide) later
    | cap number fits => exact .valued (by decide) later
    | recover number fits => exact .valued (by decide) later
    | type one => exact .valued (by decide) later

theorem numberMeansOrDecides {name value : String} {flagOf : Nat → Flag}
    {errorOf : Text.NumberFault → OptionsError}
    (means : ∀ n, Text.Decimal value.toList n → n ≤ 0xFFFFFFFFFFFFFFFF →
      Means (.valued name (some value)) (flagOf n))
    (decides : ∀ fault, Text.Faulty 0xFFFFFFFFFFFFFFFF value.toList fault →
      Decides (.valued name (some value)) (.error (errorOf fault))) :
    Group.Sound (.valued name (some value)) ∨ ∃ verdict, Decides (.valued name (some value)) verdict := by
  rcases Text.decimalOrFaulty 0xFFFFFFFFFFFFFFFF value.toList with
    ⟨n, number, fits⟩ | ⟨fault, faulty⟩
  · exact .inl ⟨_, means n number fits⟩
  · exact .inr ⟨_, decides fault faulty⟩

theorem aloneMeansOrDecides (name : String) :
    Group.Sound (.alone name) ∨ ∃ verdict, Decides (.alone name) verdict := by
  by_cases gapFill : name = "-g"
  · subst gapFill
    exact .inl ⟨_, .gapFill⟩
  by_cases verbose : name = "-v"
  · subst verbose
    exact .inl ⟨_, .verbose⟩
  by_cases asks : name = "-h" ∨ name = "--help"
  · exact .inr ⟨_, .help asks⟩
  · exact .inr ⟨_, .unknown (by simpa [gapFill, verbose] using asks)⟩

theorem valuedMeansOrDecides {name : String} (wants : name ∈ Group.valueNames) (value : String) :
    Group.Sound (.valued name (some value)) ∨
      ∃ verdict, Decides (.valued name (some value)) verdict := by
  simp only [Group.valueNames, List.mem_cons, List.not_mem_nil, or_false] at wants
  rcases wants with rfl | rfl | rfl | rfl
  · exact numberMeansOrDecides (fun _ => .start) fun _ => .sequence
  · exact numberMeansOrDecides (fun _ => .cap) fun _ => .count (.inl rfl)
  · exact numberMeansOrDecides (fun _ => .recover) fun _ => .count (.inr rfl)
  · by_cases one : ∃ tag, utf8 value = [tag]
    · obtain ⟨tag, one⟩ := one
      exact .inl ⟨_, .type one⟩
    · exact .inr ⟨_, .type fun tag same => one ⟨tag, same⟩⟩

namespace Flag

theorem readU64Decimal {value : String} {n : Nat} (number : Text.Decimal value.toList n)
    (fits : n ≤ 0xFFFFFFFFFFFFFFFF) : readU64 value = .ok n :=
  Text.readDecimal number fits

theorem readU64Faulty {value : String} {fault : Text.NumberFault}
    (faulty : Text.Faulty 0xFFFFFFFFFFFFFFFF value.toList fault) : readU64 value = .error fault :=
  Text.readFaulty faulty

theorem withValueMeans {name value : String} {flag : Flag}
    (means : Means (.valued name (some value)) flag) : withValue name value = .ok flag := by
  cases means with
  | start number fits =>
    simp only [withValue, readU64Decimal number fits]
    rfl
  | cap number fits =>
    simp only [withValue, readU64Decimal number fits]
    rfl
  | recover number fits =>
    simp only [withValue, readU64Decimal number fits]
    rfl
  | type one => simp only [withValue, one]

theorem withValueDecides {name value : String} {verdict : Except OptionsError Command}
    (decides : Decides (.valued name (some value)) verdict) :
    ∃ e, withValue name value = .error e ∧ verdict = .error e := by
  cases decides with
  | @sequence value fault faulty =>
    refine ⟨.notASequence fault, ?_, rfl⟩
    simp only [withValue, readU64Faulty faulty]
    rfl
  | @count name value fault counts faulty =>
    refine ⟨.notACount name fault, ?_, rfl⟩
    rcases counts with rfl | rfl <;>
      simp only [withValue, readU64Faulty faulty] <;> rfl
  | type other => exact ⟨_, by simp only [withValue], rfl⟩

theorem aloneUnused {name : String} (other : name ≠ "-g") (another : name ≠ "-v") :
    alone? name = none := by
  unfold alone?
  split
  · contradiction
  · contradiction
  · rfl

end Flag

namespace Command

theorem parseValued {name : String} (wants : name ∈ Group.valueNames) (o : Options) (value : String)
    (rest : List String) :
    parseFrom o (name :: value :: rest) =
      (Flag.withValue name value).bind fun flag => parseFrom (o.apply flag) rest := by
  simp only [Group.valueNames, List.mem_cons, List.not_mem_nil, or_false] at wants
  cases given : Flag.withValue name value <;>
    rcases wants with rfl | rfl | rfl | rfl <;>
    simp [parseFrom, Flag.alone?, Flag.wantsValue, given, Except.bind]

theorem parseUnknown {name : String} (unused : name ∉ ["-g", "-v", "-h", "--help"])
    (plain : name ∉ Group.valueNames) (o : Options) (rest : List String) :
    parseFrom o (name :: rest) = .error (.unknown name) := by
  simp only [List.mem_cons, List.not_mem_nil, or_false, not_or] at unused
  obtain ⟨gapFill, verbose, short, long⟩ := unused
  have unwanting : Flag.wantsValue name = false := by
    simpa [Flag.wantsValue, Group.valueNames, and_assoc] using plain
  unfold parseFrom
  split
  · contradiction
  · rename_i same
    cases same
    contradiction
  · rename_i same
    cases same
    contradiction
  · rename_i same
    cases same
    simp [Flag.aloneUnused gapFill verbose, unwanting]

theorem parseMeant {g : Group} {flag : Flag} (means : Means g flag) (o : Options)
    (rest : List String) :
    parseFrom o (g.arguments ++ rest) = parseFrom (o.apply flag) rest := by
  cases g with
  | alone name => cases means <;> rfl
  | valued name value =>
    cases value with
    | none => cases means
    | some value =>
      have wants : name ∈ Group.valueNames := by cases means <;> decide
      have applied := parseValued wants o value rest
      rwa [Flag.withValueMeans means] at applied

theorem parseDecided {g : Group} {verdict : Except OptionsError Command} (decides : Decides g verdict)
    (o : Options) {arguments : List String} {groups : List Group}
    (grouped : Grouped arguments (g :: groups)) : parseFrom o arguments = verdict := by
  cases grouped with
  | alone plain later =>
    cases decides with
    | help asks => rcases asks with rfl | rfl <;> rfl
    | unknown unused => exact parseUnknown unused plain o _
  | valued wants later =>
    obtain ⟨e, refused, rfl⟩ := Flag.withValueDecides decides
    rw [parseValued wants, refused]
    rfl
  | last wants =>
    cases decides
    simp only [Group.valueNames, List.mem_cons, List.not_mem_nil, or_false] at wants
    rcases wants with rfl | rfl | rfl | rfl <;> rfl

end Command
end MarketFeed
