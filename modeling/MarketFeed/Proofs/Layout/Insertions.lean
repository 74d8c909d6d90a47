import Mathlib.Data.Finset.Card
import MarketFeed.Layout.Table

/-! Insertions into a layout table. The layouts stand in the order of their bytes, no byte twice, so a
byte, the list and the count all answer from one layout for each byte. Whatever was refused on the way,
that layout is the first that came with its byte. -/
namespace MarketFeed
namespace Table

def Ordered (t : Table) : Prop := t.specs.Pairwise (·.tag < ·.tag)

theorem emptyOrdered : empty.Ordered := List.Pairwise.nil

theorem insertOrderedPerm (spec : MessageSpec) (specs : List MessageSpec) :
    (insertOrdered spec specs).Perm (spec :: specs) := by
  induction specs with
  | nil => exact List.Perm.refl _
  | cons other rest ih =>
    unfold insertOrdered
    split
    · exact List.Perm.refl _
    · exact (ih.cons other).trans (List.Perm.swap spec other rest)

theorem insertOrderedSorted {spec : MessageSpec} {specs : List MessageSpec}
    (sorted : specs.Pairwise (·.tag < ·.tag)) (fresh : ∀ other ∈ specs, other.tag ≠ spec.tag) :
    (insertOrdered spec specs).Pairwise (·.tag < ·.tag) := by
  induction specs with
  | nil => exact List.pairwise_singleton _ _
  | cons other rest ih =>
    obtain ⟨least, later⟩ := List.pairwise_cons.mp sorted
    obtain ⟨different, freshLater⟩ := List.forall_mem_cons.mp fresh
    unfold insertOrdered
    split
    · rename_i before
      refine List.pairwise_cons.mpr ⟨?_, sorted⟩
      intro x member
      rcases List.mem_cons.mp member with rfl | behind
      · exact before
      · exact UInt8.lt_trans before (least x behind)
    · rename_i notBefore
      have behind : other.tag < spec.tag :=
        UInt8.lt_of_le_of_ne (UInt8.not_lt.mp notBefore) different
      refine List.pairwise_cons.mpr ⟨?_, ih later freshLater⟩
      intro x member
      rcases List.mem_cons.mp ((insertOrderedPerm spec rest).mem_iff.mp member) with rfl | old
      · exact behind
      · exact least x old

theorem getMember {t : Table} {tag : UInt8} {spec : MessageSpec} (found : t.get? tag = some spec) :
    spec ∈ t.specs ∧ spec.tag = tag :=
  ⟨List.mem_of_find?_eq_some found, by simpa using List.find?_some found⟩

theorem getAbsent {t : Table} {tag : UInt8} :
    t.get? tag = none ↔ ∀ spec ∈ t.specs, spec.tag ≠ tag := by
  simp [get?, List.find?_eq_none]

theorem tagsNodup {t : Table} (ordered : t.Ordered) : (t.specs.map MessageSpec.tag).Nodup :=
  List.pairwise_map.mpr (ordered.imp UInt8.ne_of_lt)

theorem getIff {t : Table} (ordered : t.Ordered) {tag : UInt8} {spec : MessageSpec} :
    t.get? tag = some spec ↔ spec ∈ t.specs ∧ spec.tag = tag := by
  refine ⟨getMember, ?_⟩
  intro ⟨member, same⟩
  cases found : t.get? tag with
  | none => exact absurd same (getAbsent.mp found spec member)
  | some other =>
    obtain ⟨stored, alike⟩ := getMember found
    have one := List.inj_on_of_nodup_map (tagsNodup ordered) stored member (alike.trans same.symm)
    rw [one]

theorem getStored {t : Table} (ordered : t.Ordered) {spec : MessageSpec} :
    spec ∈ t.specs ↔ t.get? spec.tag = some spec := by
  rw [getIff ordered]
  simp

theorem sortedUnique {a b : List MessageSpec} (sortedA : a.Pairwise (·.tag < ·.tag))
    (sortedB : b.Pairwise (·.tag < ·.tag)) (same : ∀ spec, spec ∈ a ↔ spec ∈ b) : a = b := by
  have distinct {specs : List MessageSpec} (sorted : specs.Pairwise (·.tag < ·.tag)) :
      specs.Nodup :=
    sorted.imp fun below alike => UInt8.ne_of_lt below (congrArg MessageSpec.tag alike)
  have permuted := (List.perm_ext_iff_of_nodup (distinct sortedA) (distinct sortedB)).mpr same
  refine permuted.eq_of_pairwise ?_ sortedA sortedB
  intro x y _ _ below above
  exact absurd (UInt8.lt_trans below above) (UInt8.lt_irrefl _)

theorem specsFound {t : Table} (ordered : t.Ordered) :
    t.specs = (List.range 256).filterMap fun n => t.get? (UInt8.ofNat n) := by
  refine sortedUnique ordered (List.pairwise_filterMap.mpr ?_) ?_
  · refine List.pairwise_lt_range.imp_of_mem ?_
    intro a b inA inB below spec found other foundOther
    rw [(getMember found).2, (getMember foundOther).2, UInt8.lt_iff_toNat_lt,
      UInt8.toNat_ofNat_of_lt' (List.mem_range.mp inA),
      UInt8.toNat_ofNat_of_lt' (List.mem_range.mp inB)]
    exact below
  · intro spec
    rw [List.mem_filterMap, getStored ordered]
    constructor
    · intro found
      exact ⟨spec.tag.toNat, List.mem_range.mpr spec.tag.toNat_lt, by simpa using found⟩
    · intro ⟨n, _, found⟩
      rwa [(getMember found).2]

theorem putRefused {t : Table} {spec other : MessageSpec} (found : t.get? spec.tag = some other) :
    t.put spec = ⟨.error (.duplicateType spec.tag), t⟩ := by
  simp [put, found]

theorem putTaken {t : Table} {spec : MessageSpec} (free : t.get? spec.tag = none) :
    t.put spec = ⟨.ok (), ⟨insertOrdered spec t.specs⟩⟩ := by
  simp [put, free]

theorem insertRefused {t : Table} {spec other : MessageSpec} (found : t.get? spec.tag = some other) :
    t.insert spec = .error (.duplicateType spec.tag) := by
  rw [insert, putRefused found]
  rfl

theorem insertTaken {t : Table} {spec : MessageSpec} (free : t.get? spec.tag = none) :
    t.insert spec = .ok ⟨insertOrdered spec t.specs⟩ := by
  rw [insert, putTaken free]
  rfl

theorem takenOrdered {t : Table} (ordered : t.Ordered) {spec : MessageSpec}
    (free : t.get? spec.tag = none) : Ordered ⟨insertOrdered spec t.specs⟩ :=
  insertOrderedSorted ordered (getAbsent.mp free)

theorem takenFinds {t : Table} (ordered : t.Ordered) {spec : MessageSpec}
    (free : t.get? spec.tag = none) (tag : UInt8) :
    get? ⟨insertOrdered spec t.specs⟩ tag = (t.get? tag).or ([spec].find? (·.tag == tag)) := by
  have after := takenOrdered ordered free
  have members := insertOrderedPerm spec t.specs
  by_cases here : spec.tag = tag
  · have stored : spec ∈ insertOrdered spec t.specs := members.mem_iff.mpr List.mem_cons_self
    rw [(getIff after).mpr ⟨stored, here⟩, ← here, free]
    simp
  · have elsewhere : [spec].find? (·.tag == tag) = none := by simp [here]
    rw [elsewhere, Option.or_none]
    apply Option.ext
    intro other
    rw [getIff after, getIff ordered, members.mem_iff, List.mem_cons]
    constructor
    · rintro ⟨rfl | old, same⟩
      · exact absurd same here
      · exact ⟨old, same⟩
    · exact fun ⟨old, same⟩ => ⟨.inr old, same⟩

def putAll (t : Table) : List MessageSpec → Table
  | [] => t
  | spec :: rest => (t.put spec).table.putAll rest

structure Shows (t : Table) (inserted : List MessageSpec) : Prop where
  ordered : t.Ordered
  finds : ∀ tag, t.get? tag = inserted.find? (·.tag == tag)

theorem putShows {t : Table} {before : List MessageSpec} (shows : Shows t before)
    (spec : MessageSpec) : Shows (t.put spec).table (before ++ [spec]) := by
  have joined (tag : UInt8) : (before ++ [spec]).find? (·.tag == tag) =
      (t.get? tag).or ([spec].find? (·.tag == tag)) := by
    rw [List.find?_append, shows.finds]
  cases found : t.get? spec.tag with
  | none =>
    rw [putTaken found]
    refine ⟨takenOrdered shows.ordered found, ?_⟩
    intro tag
    rw [joined, takenFinds shows.ordered found]
  | some other =>
    rw [putRefused found]
    refine ⟨shows.ordered, ?_⟩
    intro tag
    rw [joined]
    cases old : t.get? tag with
    | some first => rfl
    | none =>
      have elsewhere : spec.tag ≠ tag := fun same => by simp [same, old] at found
      simp [elsewhere]

theorem putAllShows {t : Table} {before : List MessageSpec} (shows : Shows t before)
    (specs : List MessageSpec) : Shows (t.putAll specs) (before ++ specs) := by
  induction specs generalizing t before with
  | nil => simpa [putAll] using shows
  | cons spec rest ih => simpa [putAll] using ih (putShows shows spec)

theorem emptyShows : Shows empty [] := ⟨emptyOrdered, fun _ => rfl⟩

theorem showsFree {t : Table} {inserted : List MessageSpec} (shows : Shows t inserted) {tag : UInt8} :
    t.get? tag = none ↔ ∀ spec ∈ inserted, spec.tag ≠ tag := by
  rw [shows.finds]
  simp [List.find?_eq_none]

theorem showsSize {t : Table} {inserted : List MessageSpec} (shows : Shows t inserted) :
    t.size = (inserted.map MessageSpec.tag).toFinset.card := by
  have same : (t.specs.map MessageSpec.tag).toFinset = (inserted.map MessageSpec.tag).toFinset := by
    ext tag
    have absent : (∀ spec ∈ t.specs, spec.tag ≠ tag) ↔ ∀ spec ∈ inserted, spec.tag ≠ tag :=
      getAbsent.symm.trans (showsFree shows)
    simpa using not_congr absent
  rw [← same, List.toFinset_card_of_nodup (tagsNodup shows.ordered), List.length_map, size]

theorem showsEmpty {t : Table} {inserted : List MessageSpec} (shows : Shows t inserted) :
    t.isEmpty = true ↔ inserted = [] := by
  rw [isEmpty, List.isEmpty_iff]
  constructor
  · intro nothing
    refine List.eq_nil_iff_forall_not_mem.mpr fun spec member => ?_
    have absent : t.get? spec.tag = none := by simp [get?, nothing]
    exact (showsFree shows).mp absent spec member rfl
  · rintro rfl
    refine List.eq_nil_iff_forall_not_mem.mpr fun spec member => ?_
    have found := (getStored shows.ordered).mp member
    simp [shows.finds] at found

structure FirstWins (inserted : List MessageSpec) (t : Table) : Prop where
  finds : ∀ tag, t.get? tag = inserted.find? (·.tag == tag)
  slot : ∀ tag spec, t.get? tag = some spec → spec.tag = tag
  slots : t.specs = (List.range 256).filterMap fun n => t.get? (UInt8.ofNat n)
  listed : ∀ spec, spec ∈ t.specs ↔ t.get? spec.tag = some spec
  ordered : t.specs.Pairwise (·.tag < ·.tag)
  size : t.size = (inserted.map MessageSpec.tag).toFinset.card
  isEmpty : t.isEmpty = true ↔ inserted = []

theorem showsFirstWins {t : Table} {inserted : List MessageSpec} (shows : Shows t inserted) :
    FirstWins inserted t :=
  ⟨shows.finds, fun _ _ found => (getMember found).2, specsFound shows.ordered,
    fun _ => getStored shows.ordered, shows.ordered, showsSize shows, showsEmpty shows⟩

theorem firstInsertionWins (before : List MessageSpec) :
    FirstWins before (empty.putAll before) ∧ ∀ spec,
      let done := (empty.putAll before).put spec
      (done.answer = .ok () ∨ done.answer = .error (.duplicateType spec.tag)) ∧
      (done.answer = .error (.duplicateType spec.tag) ↔
        ∃ earlier ∈ before, earlier.tag = spec.tag) ∧
      (done.answer ≠ .ok () → done.table = empty.putAll before) := by
  have shows : Shows (empty.putAll before) before := by
    simpa using putAllShows emptyShows before
  refine ⟨showsFirstWins shows, ?_⟩
  intro spec
  cases found : (empty.putAll before).get? spec.tag with
  | none =>
    have fresh := (showsFree shows).mp found
    rw [putTaken found]
    refine ⟨.inl rfl, ⟨fun refused => by contradiction, ?_⟩, fun refused => absurd rfl refused⟩
    exact fun ⟨earlier, member, same⟩ => absurd same (fresh earlier member)
  | some other =>
    rw [shows.finds] at found
    rw [putRefused ((shows.finds _).trans found)]
    refine ⟨.inr rfl, ⟨fun _ => ⟨other, List.mem_of_find?_eq_some found, ?_⟩, fun _ => rfl⟩,
      fun _ => rfl⟩
    simpa using List.find?_some found

/- The second layout of a byte that no text can name is refused, and the first stays. -/
theorem firstInsertionWinsUnnamed :
    let first : MessageSpec := ⟨0xFF, "One", 0, []⟩
    let second : MessageSpec := ⟨0xFF, "Two", 0, []⟩
    let before := [first, ⟨0x41, "Add", 0, []⟩, second]
    let done := (empty.putAll before).put second
    done.answer = .error (.duplicateType 0xFF) ∧ done.table.get? 0xFF = some first ∧
      FirstWins before (empty.putAll before) ∧
      (done.answer ≠ .ok () → done.table = empty.putAll before) :=
  ⟨rfl, rfl, (firstInsertionWins _).1, ((firstInsertionWins _).2 _).2.2⟩

end Table
end MarketFeed
