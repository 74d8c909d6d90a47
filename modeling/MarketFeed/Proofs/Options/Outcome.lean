import Mathlib.Data.List.Forall2
import Mathlib.Data.List.Induction
import MarketFeed.Proofs.Options.Groups

/-! Command lines as a whole. Where every group stands for a flag, the options are those of the flags: a
number is the last one given, the types come in order, and nothing else of the order counts. Else the first
group that stands for none decides alone. -/
namespace MarketFeed

namespace Flag

def start? : Flag → Option UInt64
  | start sequence => some sequence
  | _ => none

def cap? : Flag → Option Nat
  | cap count => some count
  | _ => none

def recover? : Flag → Option Nat
  | recover count => some count
  | _ => none

def type? : Flag → Option UInt8
  | type tag => some tag
  | _ => none

end Flag

structure Collects (flags : List Flag) (o : Options) : Prop where
  gapFill : o.gapFill = true ↔ Flag.gapFill ∈ flags
  verbose : o.verbose = true ↔ Flag.verbose ∈ flags
  start : o.startSequence = (flags.filterMap Flag.start?).getLast?.getD 1
  cap : o.maxMessages = (flags.filterMap Flag.cap?).getLast?.getD 0
  recover : o.recoverCount = (flags.filterMap Flag.recover?).getLast?
  types : o.types = flags.filterMap Flag.type?

theorem collectsNone : Collects [] .default :=
  ⟨by simp [Options.default], by simp [Options.default], rfl, rfl, rfl, rfl⟩

theorem collectsNext {flags : List Flag} {o : Options} (collects : Collects flags o) (flag : Flag) :
    Collects (flags ++ [flag]) (o.apply flag) := by
  obtain ⟨gapFill, verbose, start, cap, recover, types⟩ := collects
  cases flag <;> constructor <;>
    simp [Options.apply, Flag.start?, Flag.cap?, Flag.recover?, Flag.type?, *]

theorem collectsAll (flags : List Flag) : Collects flags (flags.foldl Options.apply .default) := by
  induction flags using List.reverseRecOn with
  | nil => exact collectsNone
  | append_singleton flags flag ih =>
    rw [List.foldl_append]
    exact collectsNext ih flag

theorem collectsUnique {flags : List Flag} {a b : Options} (collects : Collects flags a)
    (others : Collects flags b) : a = b := by
  obtain ⟨gapFill, start, cap, recover, types, verbose⟩ := a
  obtain ⟨gapFill', start', cap', recover', types', verbose'⟩ := b
  rw [Options.mk.injEq]
  exact ⟨Bool.eq_iff_iff.mpr (collects.gapFill.trans others.gapFill.symm),
    collects.start.trans others.start.symm, collects.cap.trans others.cap.symm,
    collects.recover.trans others.recover.symm, collects.types.trans others.types.symm,
    Bool.eq_iff_iff.mpr (collects.verbose.trans others.verbose.symm)⟩

inductive Outcome (groups : List Group) : Except OptionsError Command → Prop where
  | run {flags o} (means : List.Forall₂ Means groups flags) (collects : Collects flags o) :
      Outcome groups (.ok (.run o))
  | decided {front bad back verdict} (split : groups = front ++ bad :: back)
      (sound : ∀ g ∈ front, g.Sound) (decides : Decides bad verdict) : Outcome groups verdict

theorem soundMeans {groups : List Group} (sound : ∀ g ∈ groups, g.Sound) :
    ∃ flags, List.Forall₂ Means groups flags := by
  induction groups with
  | nil => exact ⟨[], .nil⟩
  | cons g groups ih =>
    obtain ⟨⟨flag, means⟩, later⟩ := List.forall_mem_cons.mp sound
    obtain ⟨flags, rest⟩ := ih later
    exact ⟨flag :: flags, .cons means rest⟩

theorem soundOrDecides {arguments : List String} {groups : List Group}
    (grouped : Grouped arguments groups) : ∀ g ∈ groups, g.Sound ∨ ∃ verdict, Decides g verdict := by
  induction grouped with
  | done => simp
  | alone plain later ih => exact List.forall_mem_cons.mpr ⟨aloneMeansOrDecides _, ih⟩
  | valued wants later ih => exact List.forall_mem_cons.mpr ⟨valuedMeansOrDecides wants _, ih⟩
  | last wants => exact List.forall_mem_singleton.mpr (.inr ⟨_, .noValue⟩)

theorem soundOrFirst {groups : List Group}
    (each : ∀ g ∈ groups, g.Sound ∨ ∃ verdict, Decides g verdict) :
    (∀ g ∈ groups, g.Sound) ∨ ∃ front bad back verdict, groups = front ++ bad :: back ∧
      (∀ g ∈ front, g.Sound) ∧ Decides bad verdict := by
  induction groups with
  | nil => exact .inl (by simp)
  | cons g groups ih =>
    obtain ⟨first, later⟩ := List.forall_mem_cons.mp each
    rcases first with sound | ⟨verdict, decides⟩
    · rcases ih later with all | ⟨front, bad, back, verdict, rfl, before, decides⟩
      · exact .inl (List.forall_mem_cons.mpr ⟨sound, all⟩)
      · exact .inr ⟨g :: front, bad, back, verdict, rfl, List.forall_mem_cons.mpr ⟨sound, before⟩,
          decides⟩
    · exact .inr ⟨[], g, groups, verdict, rfl, by simp, decides⟩

theorem outcomeExists {arguments : List String} {groups : List Group}
    (grouped : Grouped arguments groups) : ∃ result, Outcome groups result := by
  rcases soundOrFirst (soundOrDecides grouped) with sound | ⟨_, _, _, verdict, split, sound, decides⟩
  · obtain ⟨flags, means⟩ := soundMeans sound
    exact ⟨_, .run means (collectsAll flags)⟩
  · exact ⟨verdict, .decided split sound decides⟩

theorem groupedFirst {arguments : List String} {g : Group} {groups : List Group} (sound : g.Sound)
    (grouped : Grouped arguments (g :: groups)) :
    ∃ rest, arguments = g.arguments ++ rest ∧ Grouped rest groups := by
  obtain ⟨flag, means⟩ := sound
  cases grouped with
  | alone plain later => exact ⟨_, rfl, later⟩
  | valued wants later => exact ⟨_, rfl, later⟩
  | last wants => cases means

theorem groupedBehind {arguments : List String} {front back : List Group}
    (sound : ∀ g ∈ front, g.Sound) (grouped : Grouped arguments (front ++ back)) :
    ∃ rest, arguments = front.flatMap Group.arguments ++ rest ∧ Grouped rest back := by
  induction front generalizing arguments with
  | nil => exact ⟨arguments, rfl, grouped⟩
  | cons g front ih =>
    obtain ⟨here, later⟩ := List.forall_mem_cons.mp sound
    obtain ⟨behind, rfl, following⟩ := groupedFirst here grouped
    obtain ⟨rest, rfl, final⟩ := ih later following
    exact ⟨rest, by simp, final⟩

namespace Command

theorem parseAllMeant {groups : List Group} {flags : List Flag}
    (means : List.Forall₂ Means groups flags) (o : Options) (rest : List String) :
    parseFrom o (groups.flatMap Group.arguments ++ rest) =
      parseFrom (flags.foldl Options.apply o) rest := by
  induction means generalizing o with
  | nil => rfl
  | @cons g flag groups flags first later ih =>
    rw [List.flatMap_cons, List.append_assoc, parseMeant first, ih, List.foldl_cons]

theorem parseFlags {groups : List Group} {flags : List Flag}
    (means : List.Forall₂ Means groups flags) :
    parse (groups.flatMap Group.arguments) = .ok (.run (flags.foldl Options.apply .default)) := by
  have parsed := parseAllMeant means .default []
  rwa [List.append_nil] at parsed

theorem parseOutcome {arguments : List String} {groups : List Group}
    {result : Except OptionsError Command} (grouped : Grouped arguments groups)
    (outcome : Outcome groups result) : parse arguments = result := by
  cases outcome with
  | @run flags o means collects =>
    rw [← groupedArguments grouped, parseFlags means, collectsUnique (collectsAll flags) collects]
  | decided split sound decides =>
    subst split
    obtain ⟨rest, rfl, behind⟩ := groupedBehind sound grouped
    obtain ⟨flags, means⟩ := soundMeans sound
    rw [parse, parseAllMeant means, parseDecided decides _ behind]

theorem outcomeIff {arguments : List String} {groups : List Group}
    (grouped : Grouped arguments groups) (result : Except OptionsError Command) :
    Outcome groups result ↔ parse arguments = result := by
  constructor
  · exact parseOutcome grouped
  · rintro rfl
    obtain ⟨known, outcome⟩ := outcomeExists grouped
    exact parseOutcome grouped outcome ▸ outcome

end Command

theorem applyCommutes {a b : Group} {f g : Flag} (first : Means a f) (second : Means b g)
    (apart : a.name ≠ b.name) (o : Options) : (o.apply f).apply g = (o.apply g).apply f := by
  cases first <;> cases second <;> first | rfl | exact absurd rfl apart

theorem parseSwapped {before after : List Group} {a b : Group}
    (sound : ∀ g ∈ before ++ a :: b :: after, g.Sound) (apart : a.name ≠ b.name) :
    Command.parse ((before ++ b :: a :: after).flatMap Group.arguments) =
      Command.parse ((before ++ a :: b :: after).flatMap Group.arguments) := by
  simp only [List.forall_mem_append, List.forall_mem_cons] at sound
  obtain ⟨front, ⟨f, first⟩, ⟨g, second⟩, back⟩ := sound
  obtain ⟨flags, meansFront⟩ := soundMeans front
  obtain ⟨others, meansBack⟩ := soundMeans back
  rw [Command.parseFlags (List.rel_append meansFront (.cons first (.cons second meansBack))),
    Command.parseFlags (List.rel_append meansFront (.cons second (.cons first meansBack)))]
  simp only [List.foldl_append, List.foldl_cons, applyCommutes first second apart]

theorem meansMember {groups : List Group} {flags : List Flag}
    (means : List.Forall₂ Means groups flags) {g : Group} (member : g ∈ groups) :
    ∃ flag ∈ flags, Means g flag := by
  induction means with
  | nil => contradiction
  | cons first later ih =>
    rcases List.mem_cons.mp member with rfl | behind
    · exact ⟨_, List.mem_cons_self, first⟩
    · obtain ⟨flag, among, means⟩ := ih behind
      exact ⟨flag, List.mem_cons_of_mem _ among, means⟩

theorem collectsRepeated {before after : List Flag} {flag : Flag} {o : Options}
    (bare : flag = .gapFill ∨ flag = .verbose) (member : flag ∈ before ++ after)
    (collects : Collects (before ++ after) o) : Collects (before ++ flag :: after) o := by
  have among (other : Flag) : other ∈ before ++ flag :: after ↔ other ∈ before ++ after := by
    rw [List.mem_append] at member
    rw [List.mem_append, List.mem_append, List.mem_cons]
    constructor
    · rintro (front | rfl | back)
      · exact .inl front
      · exact member
      · exact .inr back
    · exact fun either => either.imp_right .inr
  have skipped {α : Type} (valueOf : Flag → Option α) (none : valueOf flag = .none) :
      (before ++ flag :: after).filterMap valueOf = (before ++ after).filterMap valueOf := by
    simp [none]
  obtain ⟨gapFill, verbose, start, cap, recover, types⟩ := collects
  refine ⟨gapFill.trans (among _).symm, verbose.trans (among _).symm, ?_, ?_, ?_, ?_⟩
  · rw [start, skipped Flag.start? (by rcases bare with rfl | rfl <;> rfl)]
  · rw [cap, skipped Flag.cap? (by rcases bare with rfl | rfl <;> rfl)]
  · rw [recover, skipped Flag.recover? (by rcases bare with rfl | rfl <;> rfl)]
  · rw [types, skipped Flag.type? (by rcases bare with rfl | rfl <;> rfl)]

theorem aloneMeans {name : String} {flag : Flag} (means : Means (.alone name) flag) :
    flag = .gapFill ∨ flag = .verbose := by
  cases means with
  | gapFill => exact .inl rfl
  | verbose => exact .inr rfl

theorem parseRepeated {before after : List Group} {g : Group}
    (sound : ∀ h ∈ before ++ after, h.Sound) (bare : g = .alone "-g" ∨ g = .alone "-v")
    (member : g ∈ before ++ after) :
    Command.parse ((before ++ g :: after).flatMap Group.arguments) =
      Command.parse ((before ++ after).flatMap Group.arguments) := by
  obtain ⟨front, back⟩ := List.forall_mem_append.mp sound
  obtain ⟨flags, meansFront⟩ := soundMeans front
  obtain ⟨others, meansBack⟩ := soundMeans back
  have once := List.rel_append meansFront meansBack
  obtain ⟨flag, among, means⟩ := meansMember once member
  have plain : flag = .gapFill ∨ flag = .verbose := by
    rcases bare with rfl | rfl <;> exact aloneMeans means
  rw [Command.parseFlags once, Command.parseFlags (List.rel_append meansFront (.cons means meansBack)),
    collectsUnique (collectsRepeated plain among (collectsAll _)) (collectsAll _)]

theorem decidesUnsound {g : Group} {verdict : Except OptionsError Command}
    (decides : Decides g verdict) : ¬ g.Sound := by
  intro ⟨flag, means⟩
  cases g with
  | alone name =>
    cases decides with
    | help asks => cases means <;> simp at asks
    | unknown unused => cases means <;> simp at unused
  | valued name value =>
    cases value with
    | none => cases means
    | some value =>
      obtain ⟨e, refused, rfl⟩ := Flag.withValueDecides decides
      rw [Flag.withValueMeans means] at refused
      contradiction

theorem decidesUnique {g : Group} {a b : Except OptionsError Command} (decides : Decides g a)
    (again : Decides g b) : a = b := by
  cases g with
  | alone name =>
    cases decides with
    | help asks =>
      cases again with
      | help _ => rfl
      | unknown unused => rcases asks with rfl | rfl <;> simp at unused
    | unknown unused =>
      cases again with
      | help asks => rcases asks with rfl | rfl <;> simp at unused
      | unknown _ => rfl
  | valued name value =>
    cases value with
    | none =>
      cases decides
      cases again
      rfl
    | some value =>
      obtain ⟨e, refused, rfl⟩ := Flag.withValueDecides decides
      obtain ⟨other, refusedAgain, rfl⟩ := Flag.withValueDecides again
      rw [refused] at refusedAgain
      rw [Except.error.inj refusedAgain]

theorem decidesNames {g : Group} {e : OptionsError} (decides : Decides g (.error e)) :
    ∃ front back, e.message = front ++ g.name ++ back := by
  cases decides with
  | @unknown name unused =>
    refine ⟨"unknown option: ", "", ?_⟩
    show "unknown option: " ++ name = _
    rw [String.append_empty, Group.name]
  | @noValue name =>
    refine ⟨"", " requires a value", ?_⟩
    show name ++ " requires a value" = _
    rw [String.empty_append, Group.name]
  | @sequence value fault faulty =>
    refine ⟨"", " must be a sequence number: " ++ fault.message, ?_⟩
    show "-s" ++ " must be a sequence number: " ++ fault.message = _
    rw [String.append_assoc, String.empty_append, Group.name]
  | @count name value fault counts faulty =>
    refine ⟨"", " must be a message count: " ++ fault.message, ?_⟩
    show name ++ " must be a message count: " ++ fault.message = _
    rw [String.append_assoc, String.empty_append, Group.name]
  | @type value other =>
    refine ⟨"", " takes a single-byte message type, got " ++ Text.quoted value, ?_⟩
    show "-t" ++ " takes a single-byte message type, got " ++ Text.quoted value = _
    rw [String.append_assoc, String.empty_append, Group.name]

end MarketFeed
