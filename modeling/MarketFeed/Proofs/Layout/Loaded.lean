import MarketFeed.Layout.Description
import MarketFeed.Proofs.Layout.Insertions
import MarketFeed.Proofs.Layout.Placed

/-! Tables loaded from descriptions. A list of descriptions loads where each stands for a layout and no
two have one tag; the table then holds these layouts and nothing of their order. Else the first description
that breaks a rule is the one that is reported, for the first rule that it breaks. -/
namespace MarketFeed

theorem utf8Injective {a b : String} (same : utf8 a = utf8 b) : a = b := by
  have read := readUtf8Written a
  rw [same, readUtf8Written] at read
  exact (Option.some.inj read).symm

open MessageSpec (Fitting Faulty)

namespace MessageDescription

structure Describes (d : MessageDescription) (spec : MessageSpec) : Prop where
  tag : utf8 d.tag = [spec.tag]
  name : spec.name = d.name
  fields : ∀ i, spec.fields[i]? = d.fields[i]?.map fun f =>
    (⟨f.name, f.kind, f.size, ((d.fields.take i).map FieldDecl.size).sum⟩ : FieldSpec)
  adjacent : ∀ (i : Nat) f next, spec.fields[i]? = some f → spec.fields[i + 1]? = some next →
    f.stop = next.offset
  last : ∀ f, spec.fields.getLast? = some f → f.stop = spec.totalLength
  total : spec.totalLength = (d.fields.map FieldDecl.size).sum

theorem specUntagged {d : MessageDescription} (untagged : ∀ b, utf8 d.tag ≠ [b]) :
    d.spec = .error (.badTag d.name d.tag) := by
  have absent : d.tagByte? = none := by
    unfold tagByte?
    split
    · rename_i b one
      exact absurd one (untagged b)
    · rfl
  simp [spec, absent]

theorem specTagged {d : MessageDescription} {b : UInt8} (tag : utf8 d.tag = [b]) :
    d.spec = MessageSpec.build b d.name d.fields := by
  simp [spec, tagByte?, tag]

theorem specFitting {d : MessageDescription} {b : UInt8} (tag : utf8 d.tag = [b])
    (fitting : Fitting d.fields) :
    d.spec = .ok ⟨b, d.name, (d.fields.map FieldDecl.size).sum,
      MessageSpec.placedFrom 0 d.fields⟩ := by
  rw [specTagged tag, MessageSpec.buildFitting fitting]

theorem stopAt {decls : List FieldDecl} {i : Nat} {f : FieldSpec}
    (found : (MessageSpec.placedFrom 0 decls)[i]? = some f) :
    f.stop = ((decls.take (i + 1)).map FieldDecl.size).sum := by
  rw [MessageSpec.placedFromAt, Option.map_eq_some_iff] at found
  obtain ⟨decl, declared, rfl⟩ := found
  simp [FieldSpec.stop, List.take_add_one, declared]

theorem describesPlaced {d : MessageDescription} {b : UInt8} (tag : utf8 d.tag = [b]) :
    Describes d ⟨b, d.name, (d.fields.map FieldDecl.size).sum,
      MessageSpec.placedFrom 0 d.fields⟩ := by
  refine ⟨tag, rfl, ?_, ?_, ?_, rfl⟩
  · intro i
    simpa using MessageSpec.placedFromAt 0 d.fields i
  · intro i f next found foundNext
    rw [MessageSpec.placedFromAt, Option.map_eq_some_iff] at foundNext
    obtain ⟨decl, _, rfl⟩ := foundNext
    simpa using stopAt found
  · intro f found
    rw [List.getLast?_eq_getElem?] at found
    have all : d.fields.length ≤ (MessageSpec.placedFrom 0 d.fields).length - 1 + 1 := by
      rw [MessageSpec.placedFromLength]
      omega
    rw [stopAt found, List.take_of_length_le all]

end MessageDescription

open MessageDescription (Describes)

structure Sound (ds : List MessageDescription) : Prop where
  tagged : ∀ d ∈ ds, ∃ b, utf8 d.tag = [b]
  positive : ∀ d ∈ ds, ∀ f ∈ d.fields, 1 ≤ f.size
  short : ∀ d ∈ ds, (d.fields.map FieldDecl.size).sum ≤ 0xFFFFFFFF
  distinct : (ds.map MessageDescription.tag).Nodup

/- The error of a description behind these: its tag comes first, then its fields, then what the table
holds already. -/
inductive Offence (earlier : List MessageDescription) (d : MessageDescription) :
    LayoutError → Prop where
  | badTag (untagged : ∀ b, utf8 d.tag ≠ [b]) : Offence earlier d (.badTag d.name d.tag)
  | fields {b e} (tag : utf8 d.tag = [b]) (faulty : Faulty d.name d.fields e) : Offence earlier d e
  | duplicate {b} (tag : utf8 d.tag = [b]) (fitting : Fitting d.fields)
      (repeated : d.tag ∈ earlier.map MessageDescription.tag) :
      Offence earlier d (.duplicateType b)

def Offends (ds : List MessageDescription) (e : LayoutError) : Prop :=
  ∃ earlier d later, ds = earlier ++ d :: later ∧ Sound earlier ∧ Offence earlier d e

theorem soundFitting {ds : List MessageDescription} (sound : Sound ds) {d : MessageDescription}
    (member : d ∈ ds) : Fitting d.fields :=
  ⟨sound.positive d member, sound.short d member⟩

theorem soundSpec {ds : List MessageDescription} (sound : Sound ds) {d : MessageDescription}
    (member : d ∈ ds) : ∃ spec, d.spec = .ok spec ∧ Describes d spec := by
  obtain ⟨b, tag⟩ := sound.tagged d member
  exact ⟨_, MessageDescription.specFitting tag (soundFitting sound member),
    MessageDescription.describesPlaced tag⟩

theorem soundEmpty : Sound [] := ⟨by simp, by simp, by simp, List.nodup_nil⟩

theorem soundNext {ds : List MessageDescription} (sound : Sound ds) {d : MessageDescription}
    {b : UInt8} (tag : utf8 d.tag = [b]) (fitting : Fitting d.fields)
    (fresh : d.tag ∉ ds.map MessageDescription.tag) : Sound (ds ++ [d]) := by
  have each {p : MessageDescription → Prop} (old : ∀ x ∈ ds, p x) (new : p d) :
      ∀ x ∈ ds ++ [d], p x := by
    intro x member
    rcases List.mem_append.mp member with before | last
    · exact old x before
    · rwa [List.mem_singleton.mp last]
  refine ⟨each sound.tagged ⟨b, tag⟩, each sound.positive fitting.positive,
    each sound.short fitting.short, ?_⟩
  rw [List.map_append, List.nodup_append]
  refine ⟨sound.distinct, List.nodup_singleton _, ?_⟩
  intro x old y new same
  rw [List.mem_singleton.mp new] at same
  exact fresh (same ▸ old)

theorem soundFront {a b : List MessageDescription} (sound : Sound (a ++ b)) : Sound a := by
  have distinct := sound.distinct
  rw [List.map_append] at distinct
  exact ⟨fun d member => sound.tagged d (List.mem_append_left _ member),
    fun d member => sound.positive d (List.mem_append_left _ member),
    fun d member => sound.short d (List.mem_append_left _ member), distinct.of_append_left⟩

theorem soundPermuted {a b : List MessageDescription} (permuted : a.Perm b) (sound : Sound b) :
    Sound a :=
  ⟨fun d member => sound.tagged d (permuted.mem_iff.mp member),
    fun d member => sound.positive d (permuted.mem_iff.mp member),
    fun d member => sound.short d (permuted.mem_iff.mp member),
    (permuted.map _).nodup_iff.mpr sound.distinct⟩

theorem soundOrOffence {earlier : List MessageDescription} (sound : Sound earlier)
    (d : MessageDescription) : Sound (earlier ++ [d]) ∨ ∃ e, Offence earlier d e := by
  by_cases tagged : ∃ b, utf8 d.tag = [b]
  · obtain ⟨b, tag⟩ := tagged
    rcases MessageSpec.fittingOrFaulty d.name MessageSpec.fittingEmpty d.fields with
      fitting | ⟨e, faulty⟩
    · by_cases repeated : d.tag ∈ earlier.map MessageDescription.tag
      · exact .inr ⟨_, .duplicate tag fitting repeated⟩
      · exact .inl (soundNext sound tag fitting repeated)
    · exact .inr ⟨e, .fields tag faulty⟩
  · exact .inr ⟨_, .badTag fun b tag => tagged ⟨b, tag⟩⟩

theorem soundOrOffendsBehind {earlier : List MessageDescription} (sound : Sound earlier)
    (rest : List MessageDescription) :
    Sound (earlier ++ rest) ∨ ∃ e, Offends (earlier ++ rest) e := by
  induction rest generalizing earlier with
  | nil => exact .inl (by rwa [List.append_nil])
  | cons d rest ih =>
    rcases soundOrOffence sound d with next | ⟨e, offence⟩
    · simpa using ih next
    · exact .inr ⟨e, earlier, d, rest, rfl, sound, offence⟩

theorem soundOrOffends (ds : List MessageDescription) : Sound ds ∨ ∃ e, Offends ds e :=
  soundOrOffendsBehind soundEmpty ds

namespace Table

structure Holds (t : Table) (ds : List MessageDescription) : Prop where
  ordered : t.Ordered
  members : ∀ spec, spec ∈ t.specs ↔ ∃ d ∈ ds, d.spec = .ok spec
  size : t.size = ds.length

theorem emptyHolds : Holds empty [] := ⟨emptyOrdered, by simp [empty], rfl⟩

theorem holdsNext {t : Table} {ds : List MessageDescription} (holds : Holds t ds)
    {d : MessageDescription} {spec : MessageSpec} (described : d.spec = .ok spec)
    (free : t.get? spec.tag = none) : Holds ⟨insertOrdered spec t.specs⟩ (ds ++ [d]) := by
  have inserted := insertOrderedPerm spec t.specs
  refine ⟨takenOrdered holds.ordered free, ?_, ?_⟩
  · intro other
    rw [inserted.mem_iff, List.mem_cons, holds.members]
    constructor
    · rintro (rfl | ⟨old, member, same⟩)
      · exact ⟨d, by simp, described⟩
      · exact ⟨old, List.mem_append_left _ member, same⟩
    · intro ⟨one, member, same⟩
      rcases List.mem_append.mp member with old | new
      · exact .inr ⟨one, old, same⟩
      · rw [List.mem_singleton.mp new, described] at same
        exact .inl (Except.ok.inj same).symm
  · have size := holds.size
    rw [Table.size] at size ⊢
    rw [inserted.length_eq, List.length_cons, List.length_append, size, List.length_singleton]

theorem holdsTag {t : Table} {ds : List MessageDescription} (holds : Holds t ds) (sound : Sound ds)
    (b : UInt8) : (t.get? b).isSome = true ↔ ∃ d ∈ ds, utf8 d.tag = [b] := by
  rw [Option.isSome_iff_exists]
  constructor
  · intro ⟨spec, found⟩
    obtain ⟨stored, same⟩ := getMember found
    obtain ⟨d, member, described⟩ := (holds.members spec).mp stored
    obtain ⟨other, again, describes⟩ := soundSpec sound member
    rw [described] at again
    rw [← same, Except.ok.inj again]
    exact ⟨d, member, describes.tag⟩
  · intro ⟨d, member, tag⟩
    obtain ⟨spec, described, describes⟩ := soundSpec sound member
    have stored := (holds.members spec).mpr ⟨d, member, described⟩
    rw [describes.tag] at tag
    exact ⟨spec, (getIff holds.ordered).mpr ⟨stored, List.head_eq_of_cons_eq tag⟩⟩

theorem holdsRepeated {t : Table} {ds : List MessageDescription} (holds : Holds t ds)
    (sound : Sound ds) {d : MessageDescription} {b : UInt8} (tag : utf8 d.tag = [b]) :
    (t.get? b).isSome = true ↔ d.tag ∈ ds.map MessageDescription.tag := by
  rw [holdsTag holds sound, List.mem_map]
  constructor
  · exact fun ⟨other, member, same⟩ => ⟨other, member, utf8Injective (same.trans tag.symm)⟩
  · exact fun ⟨other, member, same⟩ => ⟨other, member, same ▸ tag⟩

theorem extendSound {t : Table} {before : List MessageDescription} (holds : Holds t before)
    {rest : List MessageDescription} (sound : Sound (before ++ rest)) :
    ∃ final, t.extend rest = .ok final ∧ Holds final (before ++ rest) := by
  induction rest generalizing t before with
  | nil => exact ⟨t, rfl, by rwa [List.append_nil]⟩
  | cons d rest ih =>
    rw [List.append_cons] at sound ⊢
    have here := soundFront sound
    obtain ⟨spec, described, describes⟩ := soundSpec here (d := d) (by simp)
    have fresh : d.tag ∉ before.map MessageDescription.tag := by
      have distinct := here.distinct
      rw [List.map_append, List.nodup_append] at distinct
      exact fun repeated => distinct.2.2 _ repeated _ List.mem_cons_self rfl
    have free : t.get? spec.tag = none := by
      rw [← Option.not_isSome_iff_eq_none, holdsRepeated holds (soundFront here) describes.tag]
      exact fresh
    obtain ⟨final, loaded, held⟩ := ih (holdsNext holds described free) sound
    exact ⟨final, by simpa [extend, described, insertTaken free] using loaded, held⟩

theorem extendOffence {t : Table} {earlier : List MessageDescription} (holds : Holds t earlier)
    (sound : Sound earlier) {d : MessageDescription} {e : LayoutError}
    (offence : Offence earlier d e) (later : List MessageDescription) :
    t.extend (d :: later) = .error e := by
  cases offence with
  | badTag untagged => simp [extend, MessageDescription.specUntagged untagged]
  | fields tag faulty =>
    simp [extend, MessageDescription.specTagged tag, MessageSpec.buildFaulty faulty]
  | @duplicate b tag fitting repeated =>
    obtain ⟨other, found⟩ := Option.isSome_iff_exists.mp
      ((holdsRepeated holds sound tag).mpr repeated)
    have refused : t.insert ⟨b, d.name, (d.fields.map FieldDecl.size).sum,
        MessageSpec.placedFrom 0 d.fields⟩ = .error (.duplicateType b) := insertRefused found
    simp [extend, MessageDescription.specFitting tag fitting, refused]

theorem extendAppend (t : Table) (a b : List MessageDescription) :
    t.extend (a ++ b) = (t.extend a).bind (·.extend b) := by
  induction a generalizing t with
  | nil => rfl
  | cons d rest ih =>
    simp only [List.cons_append, extend]
    cases d.spec with
    | error e => rfl
    | ok spec =>
      cases taken : t.insert spec with
      | error e => simp [taken, Except.bind]
      | ok next => simp [taken, ih]

end Table

structure Loaded (ds : List MessageDescription) (t : Table) : Prop where
  tags : ∀ b, (t.get? b).isSome = true ↔ ∃ d ∈ ds, utf8 d.tag = [b]
  described : ∀ d ∈ ds, ∃ spec, t.get? spec.tag = some spec ∧ Describes d spec
  ordered : t.specs.Pairwise (·.tag < ·.tag)
  listed : ∀ spec, spec ∈ t.specs ↔ t.get? spec.tag = some spec
  size : t.size = ds.length

theorem soundLoads {ds : List MessageDescription} (sound : Sound ds) :
    ∃ t, Table.ofDescriptions ds = .ok t ∧ t.Holds ds :=
  Table.extendSound Table.emptyHolds sound

theorem offendsRefused {ds : List MessageDescription} {e : LayoutError} (offends : Offends ds e) :
    Table.ofDescriptions ds = .error e := by
  obtain ⟨earlier, d, later, rfl, sound, offence⟩ := offends
  obtain ⟨t, loaded, holds⟩ := soundLoads sound
  rw [Table.ofDescriptions] at loaded ⊢
  rw [Table.extendAppend, loaded]
  exact Table.extendOffence holds sound offence later

theorem holdsLoaded {ds : List MessageDescription} (sound : Sound ds) {t : Table}
    (holds : t.Holds ds) : Loaded ds t := by
  refine ⟨Table.holdsTag holds sound, ?_, holds.ordered, fun _ => Table.getStored holds.ordered,
    holds.size⟩
  intro d member
  obtain ⟨spec, described, describes⟩ := soundSpec sound member
  have stored := (holds.members spec).mpr ⟨d, member, described⟩
  exact ⟨spec, (Table.getStored holds.ordered).mp stored, describes⟩

theorem holdsUnique {a b : List MessageDescription} (permuted : a.Perm b) {t u : Table}
    (holds : t.Holds a) (others : u.Holds b) : t = u := by
  have same := Table.sortedUnique holds.ordered others.ordered fun spec => by
    simp only [holds.members, others.members, permuted.mem_iff]
  cases t
  cases u
  exact congrArg Table.mk same

theorem loadsIff (ds : List MessageDescription) :
    (∃ t, Table.ofDescriptions ds = .ok t) ↔ Sound ds := by
  constructor
  · intro ⟨t, loaded⟩
    refine (soundOrOffends ds).resolve_right fun ⟨e, offends⟩ => ?_
    rw [offendsRefused offends] at loaded
    contradiction
  · intro sound
    obtain ⟨t, loaded, _⟩ := soundLoads sound
    exact ⟨t, loaded⟩

theorem refusedIff (ds : List MessageDescription) (e : LayoutError) :
    Table.ofDescriptions ds = .error e ↔ Offends ds e := by
  refine ⟨?_, offendsRefused⟩
  intro refused
  rcases soundOrOffends ds with sound | ⟨first, offends⟩
  · obtain ⟨t, loaded, _⟩ := soundLoads sound
    rw [refused] at loaded
    contradiction
  · rw [offendsRefused offends] at refused
    rwa [← Except.error.inj refused]

theorem loadedPermuted {ds : List MessageDescription} {t : Table}
    (loaded : Table.ofDescriptions ds = .ok t) :
    Loaded ds t ∧ ∀ other, other.Perm ds → Table.ofDescriptions other = .ok t := by
  have sound := (loadsIff ds).mp ⟨t, loaded⟩
  obtain ⟨u, again, holds⟩ := soundLoads sound
  rw [loaded] at again
  rw [Except.ok.inj again]
  refine ⟨holdsLoaded sound holds, ?_⟩
  intro other permuted
  obtain ⟨v, loadedOther, holdsOther⟩ := soundLoads (soundPermuted permuted sound)
  rw [loadedOther, holdsUnique permuted holdsOther holds]

theorem layoutsLoad (ds : List MessageDescription) :
    ((∃ t, Table.ofDescriptions ds = .ok t) ↔ Sound ds) ∧
    (∀ t, Table.ofDescriptions ds = .ok t →
      Loaded ds t ∧ ∀ other, other.Perm ds → Table.ofDescriptions other = .ok t) ∧
    (∀ e, Table.ofDescriptions ds = .error e ↔ Offends ds e) ∧
    (∀ text, (Json.parse? text).bind layoutMessages? = some ds →
      Table.ofJson text = Table.ofDescriptions ds) := by
  refine ⟨loadsIff ds, fun _ => loadedPermuted, refusedIff ds, ?_⟩
  intro text read
  rw [Table.ofJson, read]

/- One layout is as long as a layout can be, and the other leaves out its fields. A third description
repeats a tag, but its field is looked at first. -/
theorem layoutsLoadToLimit :
    let ds : List MessageDescription :=
      [⟨"X", "Wide", [⟨"Text", .text, 0xFFFFFFFE⟩, ⟨"Flag", .uint8, 1⟩]⟩, ⟨"A", "Empty", []⟩]
    let t : Table := ⟨[⟨0x41, "Empty", 0, []⟩, ⟨0x58, "Wide", 0xFFFFFFFF,
      [⟨"Text", .text, 0xFFFFFFFE, 0⟩, ⟨"Flag", .uint8, 1, 0xFFFFFFFE⟩]⟩]⟩
    let text := "[[[\"X\", \"Wide\", [[\"Text\", \"alpha\", 4294967294], [\"Flag\", \"u8\", 1]]], " ++
      "[\"A\", \"Empty\"]]]"
    let again := ds ++ [⟨"X", "Again", [⟨"Type", .char, 1⟩, ⟨"None", .text, 0⟩]⟩]
    Sound ds ∧ Loaded ds t ∧ Table.ofDescriptions ds.reverse = .ok t ∧
      (Json.parse? text).bind layoutMessages? = some ds ∧ Table.ofJson text = .ok t ∧
      Offends again (.zeroSizeField "Again" "None") := by
  intro ds t text again
  have loaded : Table.ofDescriptions ds = .ok t := by decide
  have held := (layoutsLoad ds).2.1 t loaded
  have read : (Json.parse? text).bind layoutMessages? = some ds := by decide +kernel
  exact ⟨(layoutsLoad ds).1.mp ⟨t, loaded⟩, held.1, held.2 _ (List.reverse_perm ds), read,
    ((layoutsLoad ds).2.2.2 text read).trans loaded, ((layoutsLoad again).2.2.1 _).mp (by decide)⟩

end MarketFeed
