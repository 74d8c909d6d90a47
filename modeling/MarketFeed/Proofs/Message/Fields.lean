import MarketFeed.Message.Decoded
import MarketFeed.Proofs.Layout.Placed

/-! The fields of a body. A built layout cuts the body from the front on into ranges of the declared
sizes, as many as the body has bytes for; the walk over the fields, the status and the total length
of the layout all name the same place where that ends. -/
namespace MarketFeed

namespace FieldWalk

def answers : (calls : Nat) → FieldWalk → List (Option DecodedField)
  | 0, _ => []
  | calls + 1, w => w.next.1 :: answers calls w.next.2

theorem answersDone (body : Array UInt8) (calls : Nat) :
    answers calls ⟨body, []⟩ = List.replicate calls none := by
  induction calls with
  | zero => rfl
  | succ calls ih => simp [answers, next, ih, List.replicate_succ]

theorem answersFields (body : Array UInt8) (rest : List FieldSpec) (more : Nat) :
    answers ((DecodedMessage.readFields body rest).length + more) ⟨body, rest⟩ =
      (DecodedMessage.readFields body rest).map some ++ List.replicate more none := by
  induction rest with
  | nil => simpa [DecodedMessage.readFields] using answersDone body more
  | cons f rest ih =>
    cases slice : DecodedMessage.slice? body f with
    | none =>
      cases more with
      | zero => simp [DecodedMessage.readFields, slice, answers]
      | succ more =>
        simp [DecodedMessage.readFields, slice, answers, next, answersDone, List.replicate_succ]
    | some raw =>
      simp only [DecodedMessage.readFields, slice, List.length_cons, List.map_cons, Nat.add_right_comm]
      simp [answers, next, slice, ih]

theorem answersMessage (m : DecodedMessage) (more : Nat) :
    answers (m.fields.length + more) (ofMessage m) =
      m.fields.map some ++ List.replicate more none := by
  cases layout : m.spec with
  | none => simpa [DecodedMessage.fields, ofMessage, layout] using answersDone _ more
  | some spec => simpa [DecodedMessage.fields, ofMessage, layout] using answersFields _ _ more

end FieldWalk

structure Fits (sizes : List Nat) (room k : Nat) : Prop where
  within : k ≤ sizes.length
  fit : (sizes.take k).sum ≤ room
  most : ∀ j ≤ sizes.length, (sizes.take j).sum ≤ room → j ≤ k

theorem fitsNone (room : Nat) : Fits [] room 0 :=
  ⟨Nat.le_refl 0, Nat.zero_le room, fun _ few _ => few⟩

theorem fitsStop {size room : Nat} (sizes : List Nat) (wide : room < size) :
    Fits (size :: sizes) room 0 where
  within := Nat.zero_le _
  fit := Nat.zero_le room
  most
    | 0, _, _ => Nat.le_refl 0
    | j + 1, _, fit => by
      rw [List.take_succ_cons, List.sum_cons] at fit
      omega

theorem fitsNext {size room k : Nat} {sizes : List Nat} (enough : size ≤ room)
    (fits : Fits sizes (room - size) k) : Fits (size :: sizes) room (k + 1) where
  within := Nat.succ_le_succ fits.within
  fit := by
    have later := fits.fit
    rw [List.take_succ_cons, List.sum_cons]
    omega
  most
    | 0, _, _ => Nat.zero_le _
    | j + 1, few, fit => by
      rw [List.take_succ_cons, List.sum_cons] at fit
      exact Nat.succ_le_succ (fits.most j (Nat.le_of_succ_le_succ few) (by omega))

theorem fitsWhole {sizes : List Nat} {room k : Nat} (fits : Fits sizes room k) :
    k = sizes.length ↔ sizes.sum ≤ room := by
  constructor
  · intro whole
    have fit := fits.fit
    rwa [whole, List.take_length] at fit
  · intro enough
    have most := fits.most sizes.length (Nat.le_refl _) (by rwa [List.take_length])
    exact Nat.le_antisymm fits.within most

structure Ranges (sizes : List Nat) (body : Bytes) (k : Nat) (ranges : List Bytes) : Prop where
  fits : Fits sizes body.length k
  widths : ranges.map List.length = sizes.take k
  joined : ranges.flatten = body.take (sizes.take k).sum

theorem rangesNext {size k : Nat} {sizes : List Nat} {body : Bytes} {ranges : List Bytes}
    (enough : size ≤ body.length) (later : Ranges sizes (body.drop size) k ranges) :
    Ranges (size :: sizes) body (k + 1) (body.take size :: ranges) := by
  obtain ⟨fits, widths, joined⟩ := later
  rw [List.length_drop] at fits
  refine ⟨fitsNext enough fits, ?_, ?_⟩
  · simp [widths, enough]
  · simp [joined, List.take_add]

namespace DecodedMessage

theorem readPlaced {start stop : Nat} {fields : List FieldSpec} (placed : Placed start fields stop)
    {body : Bytes} (reached : start ≤ body.length) :
    ∃ k ranges, Ranges (fields.map FieldSpec.size) (body.drop start) k ranges ∧
      readFields body.toArray fields =
        List.zipWith (fun f raw => ⟨f, .decode f.kind raw⟩) fields ranges ∧
      fields.findIdx? (fun f => body.length < f.stop) =
        if k = fields.length then none else some k := by
  induction placed with
  | done => exact ⟨0, [], ⟨fitsNone _, rfl, rfl⟩, rfl, rfl⟩
  | @field f rest stop positive later ih =>
    have room : (body.drop f.offset).length = body.length - f.offset := List.length_drop
    have behind : f.stop = f.offset + f.size := rfl
    by_cases fit : f.stop ≤ body.length
    · obtain ⟨k, ranges, cut, read, found⟩ := ih fit
      rw [behind, ← List.drop_drop] at cut
      refine ⟨k + 1, _, rangesNext (by omega) cut, ?_, ?_⟩
      · simp [readFields, sliceWithin fit, read]
      · by_cases whole : k = rest.length <;> simp [List.findIdx?_cons, fit, found, whole]
    · have wide := Nat.lt_of_not_le fit
      have stops : Ranges ((f :: rest).map FieldSpec.size) (body.drop f.offset) 0 [] :=
        ⟨fitsStop _ (by omega), rfl, rfl⟩
      refine ⟨0, [], stops, ?_, ?_⟩
      · simp [readFields, sliceBeyond wide]
      · simp [List.findIdx?_cons, wide]

theorem sliceCut {body : Bytes} {n : Nat} {f : FieldSpec} {raw : Bytes}
    (found : slice? (body.take n).toArray f = some raw) : slice? body.toArray f = some raw := by
  rw [sliceOfBytes] at found ⊢
  split at found
  · rename_i fit
    rw [List.length_take] at fit
    have whole : f.stop ≤ body.length := by omega
    have inside : f.size ≤ n - f.offset := by
      simp only [FieldSpec.stop] at fit
      omega
    rw [if_pos whole, ← found, List.drop_take, List.take_take, Nat.min_eq_left inside]
  · contradiction

theorem readCut (body : Bytes) (n : Nat) (fields : List FieldSpec) :
    readFields (body.take n).toArray fields <+: readFields body.toArray fields := by
  induction fields with
  | nil => exact List.prefix_refl _
  | cons f rest ih =>
    cases found : slice? (body.take n).toArray f with
    | none =>
      have stops : readFields (body.take n).toArray (f :: rest) = [] := by
        simp only [readFields, found]
      rw [stops]
      exact List.nil_prefix
    | some raw =>
      simp only [readFields, found, sliceCut found]
      exact List.cons_prefix_cons.mpr ⟨rfl, ih⟩

theorem fieldsCut (body : Bytes) (n : Nat) (table : Table) :
    (decodeMessage (body.take n) table).fields <+: (decodeMessage body table).fields := by
  cases body with
  | nil => simp
  | cons first rest =>
    cases n with
    | zero => exact List.nil_prefix
    | succ n =>
      cases layout : table.get? first with
      | none => simp [fields, decodeMessage, typeTag, layout]
      | some spec =>
        simpa [fields, decodeMessage, typeTag, layout] using readCut (first :: rest) (n + 1) spec.fields

end DecodedMessage

structure FollowsLayout (spec : MessageSpec) (body : Bytes) (m : DecodedMessage) (k : Nat)
    (ranges : List Bytes) : Prop where
  cut : Ranges (spec.fields.map FieldSpec.size) body k ranges
  fields : m.fields = List.zipWith (fun f raw => ⟨f, .decode f.kind raw⟩) spec.fields ranges
  ended : ∀ more, (FieldWalk.ofMessage m).answers (k + more) =
    m.fields.map some ++ List.replicate more none
  complete : k = spec.fields.length ↔ spec.totalLength ≤ body.length
  status : m.status =
    if k = spec.fields.length then .complete else .truncated k (body.length % 0x10000)

inductive Matched (table : Table) (body : Bytes) (m : DecodedMessage) : Prop where
  | unknown (absent : ∀ first ∈ body.head?, table.get? first = none) (status : m.status = .unknown)
      (fields : m.fields = [])
      (ended : ∀ calls, (FieldWalk.ofMessage m).answers calls = List.replicate calls none)
  | known {first spec k ranges} (tag : body.head? = some first)
      (layout : table.get? first = some spec) (follows : FollowsLayout spec body m k ranges)

theorem rangesCount {sizes : List Nat} {body : Bytes} {k : Nat} {ranges : List Bytes}
    (cut : Ranges sizes body k ranges) : ranges.length = k := by
  have count := congrArg List.length cut.widths
  rw [List.length_map, List.length_take] at count
  have within := cut.fits.within
  omega

theorem builtFollows {spec : MessageSpec} (built : spec.Built) (body : Bytes) :
    ∃ k ranges, FollowsLayout spec body ⟨body, some spec⟩ k ranges := by
  have placed := MessageSpec.builtPlaced built
  obtain ⟨k, ranges, cut, fields, stops⟩ :=
    DecodedMessage.readPlaced placed (Nat.zero_le body.length)
  have total : (spec.fields.map FieldSpec.size).sum = spec.totalLength := by
    simpa using placedTotal placed
  have whole := fitsWhole cut.fits
  have within := cut.fits.within
  rw [List.length_map] at whole within
  refine ⟨k, ranges, cut, fields, ?_, ?_, ?_⟩
  · intro more
    have count : (DecodedMessage.fields ⟨body, some spec⟩).length = k := by
      simp [DecodedMessage.fields, fields, rangesCount cut, within]
    rw [← count]
    exact FieldWalk.answersMessage _ more
  · simpa [total] using whole
  · by_cases all : k = spec.fields.length <;> simp [DecodedMessage.status, stops, all]

theorem fieldsFollowLayout {table : Table} {body : Bytes}
    (built : ∀ first ∈ body.head?, ∀ spec ∈ table.get? first, spec.Built) :
    Matched table body (decodeMessage body table) ∧
      ∀ n, (decodeMessage (body.take n) table).fields <+: (decodeMessage body table).fields := by
  refine ⟨?_, fun n => DecodedMessage.fieldsCut body n table⟩
  cases body with
  | nil => exact .unknown (by simp) rfl rfl (FieldWalk.answersDone _)
  | cons first rest =>
    cases layout : table.get? first with
    | none =>
      have alone : decodeMessage (first :: rest) table = ⟨first :: rest, none⟩ := by
        simp [decodeMessage, typeTag, layout]
      rw [alone]
      exact .unknown (by simpa using layout) rfl rfl (FieldWalk.answersDone _)
    | some spec =>
      have under : decodeMessage (first :: rest) table = ⟨first :: rest, some spec⟩ := by
        simp [decodeMessage, typeTag, layout]
      obtain ⟨k, ranges, follows⟩ := builtFollows (built first rfl spec layout) (first :: rest)
      rw [under]
      exact .known rfl layout follows

/- A body that ends where its second of three fields does. -/
theorem fieldsFollowLayoutAtEdge :
    let decls : List FieldDecl := [⟨"Type", .char, 1⟩, ⟨"Locate", .uint16, 2⟩, ⟨"Stock", .text, 3⟩]
    let spec : MessageSpec := ⟨0x41, "Add", 6,
      [⟨"Type", .char, 1, 0⟩, ⟨"Locate", .uint16, 2, 1⟩, ⟨"Stock", .text, 3, 3⟩]⟩
    let table : Table := ⟨[spec]⟩
    let body : Bytes := [0x41, 1, 2]
    MessageSpec.build 0x41 "Add" decls = .ok spec ∧ Table.empty.insert spec = .ok table ∧
      (decodeMessage body table).status = .truncated 2 3 ∧
      Matched table body (decodeMessage body table) ∧
      ∀ n, (decodeMessage (body.take n) table).fields <+: (decodeMessage body table).fields := by
  intro decls spec table body
  have ok : MessageSpec.build 0x41 "Add" decls = .ok spec := rfl
  refine ⟨ok, rfl, by decide, fieldsFollowLayout fun first tag other layout => ?_⟩
  cases Option.some.inj tag
  cases Option.some.inj layout
  exact ⟨_, _, _, ok⟩

end MarketFeed
