import Mathlib
import MarketFeed.Layout.Spec

/-! Where a built layout puts its fields: side by side in the order of declaration, the first at the
front of the body, none of them empty. Fields that cannot be placed so are refused, for the first of
them that does not fit behind those before it. -/
namespace MarketFeed

inductive Placed : (start : Nat) → List FieldSpec → (stop : Nat) → Prop where
  | done {stop} : Placed stop [] stop
  | field {f rest stop} (positive : 0 < f.size) (later : Placed f.stop rest stop) :
      Placed f.offset (f :: rest) stop

theorem placedTotal {start stop : Nat} {fields : List FieldSpec} (placed : Placed start fields stop) :
    start + (fields.map FieldSpec.size).sum = stop := by
  induction placed with
  | done => rfl
  | @field f rest stop positive later ih =>
    rw [← ih]
    simp [FieldSpec.stop, Nat.add_assoc]

namespace MessageSpec

def Built (spec : MessageSpec) : Prop :=
  ∃ tag name decls, build tag name decls = .ok spec

theorem placeFields {message : String} {offset stop : Nat} {decls : List FieldDecl}
    {fields : List FieldSpec} (ok : place message offset decls = .ok (fields, stop)) :
    Placed offset fields stop := by
  induction decls generalizing offset fields stop with
  | nil =>
    cases ok
    exact .done
  | cons f rest ih =>
    unfold place at ok
    split at ok
    · contradiction
    · rename_i nonzero
      split at ok
      · contradiction
      · cases later : place message (offset + f.size) rest with
        | error e => simp [later, Except.map] at ok
        | ok placed =>
          rw [later] at ok
          cases Except.ok.inj ok
          exact @Placed.field ⟨f.name, f.kind, f.size, offset⟩ _ _ (Nat.pos_of_ne_zero nonzero)
            (ih later)

theorem builtPlaced {spec : MessageSpec} (built : spec.Built) :
    Placed 0 spec.fields spec.totalLength := by
  obtain ⟨tag, name, decls, ok⟩ := built
  unfold build at ok
  cases placed : place name 0 decls with
  | error e => simp [placed, Except.map] at ok
  | ok result =>
    rw [placed] at ok
    cases Except.ok.inj ok
    exact placeFields placed

def placedFrom : (offset : Nat) → List FieldDecl → List FieldSpec
  | _, [] => []
  | offset, f :: rest => ⟨f.name, f.kind, f.size, offset⟩ :: placedFrom (offset + f.size) rest

theorem placedFromAt (offset : Nat) (decls : List FieldDecl) (i : Nat) :
    (placedFrom offset decls)[i]? = decls[i]?.map fun f =>
      ⟨f.name, f.kind, f.size, offset + ((decls.take i).map FieldDecl.size).sum⟩ := by
  induction decls generalizing offset i with
  | nil => rfl
  | cons f rest ih =>
    cases i with
    | zero => rfl
    | succ i => simp [placedFrom, ih, Nat.add_assoc]

theorem placedFromLength (offset : Nat) (decls : List FieldDecl) :
    (placedFrom offset decls).length = decls.length := by
  induction decls generalizing offset with
  | nil => rfl
  | cons f rest ih => rw [placedFrom, List.length_cons, List.length_cons, ih]

theorem placeFront (message : String) {offset : Nat} {front : List FieldDecl}
    (positive : ∀ f ∈ front, 1 ≤ f.size)
    (short : offset + (front.map FieldDecl.size).sum ≤ maxLength) (rest : List FieldDecl) :
    place message offset (front ++ rest) =
      (place message (offset + (front.map FieldDecl.size).sum) rest).map fun (fields, stop) =>
        (placedFrom offset front ++ fields, stop) := by
  induction front generalizing offset with
  | nil => cases later : place message offset rest <;> simp [placedFrom, later, Except.map]
  | cons f front ih =>
    obtain ⟨nonempty, positiveLater⟩ := List.forall_mem_cons.mp positive
    rw [List.map_cons, List.sum_cons] at short ⊢
    have head : ¬ maxLength < offset + f.size := by omega
    rw [List.cons_append, place, if_neg (Nat.ne_of_gt nonempty), if_neg head,
      ih positiveLater (by omega), ← Nat.add_assoc]
    cases place message (offset + f.size + (front.map FieldDecl.size).sum) rest <;> rfl

structure Fitting (decls : List FieldDecl) : Prop where
  positive : ∀ f ∈ decls, 1 ≤ f.size
  short : (decls.map FieldDecl.size).sum ≤ 0xFFFFFFFF

inductive Faulty (message : String) (decls : List FieldDecl) : LayoutError → Prop where
  | zeroSize {front f back} (split : decls = front ++ f :: back) (sound : Fitting front)
      (zero : f.size = 0) : Faulty message decls (.zeroSizeField message f.name)
  | tooLong {front f back} (split : decls = front ++ f :: back) (sound : Fitting front)
      (positive : 1 ≤ f.size) (long : 0xFFFFFFFF < (front.map FieldDecl.size).sum + f.size) :
      Faulty message decls (.tooLong message)

theorem fittingEmpty : Fitting [] := ⟨by simp, by simp⟩

theorem placeFitting (message : String) {front : List FieldDecl} (fitting : Fitting front)
    (rest : List FieldDecl) :
    place message 0 (front ++ rest) =
      (place message (front.map FieldDecl.size).sum rest).map fun (fields, stop) =>
        (placedFrom 0 front ++ fields, stop) := by
  have short : 0 + (front.map FieldDecl.size).sum ≤ maxLength := by
    rw [Nat.zero_add]
    exact fitting.short
  rw [placeFront message fitting.positive short, Nat.zero_add]

theorem buildFitting {decls : List FieldDecl} (fitting : Fitting decls) (tag : UInt8)
    (name : String) :
    build tag name decls =
      .ok ⟨tag, name, (decls.map FieldDecl.size).sum, placedFrom 0 decls⟩ := by
  have placed := placeFitting name fitting []
  rw [List.append_nil] at placed
  simp [build, placed, place, Except.map]

theorem buildFaulty {message : String} {decls : List FieldDecl} {e : LayoutError}
    (faulty : Faulty message decls e) (tag : UInt8) : build tag message decls = .error e := by
  cases faulty with
  | zeroSize split sound zero =>
    simp [build, split, placeFitting message sound, place, zero, Except.map]
  | tooLong split sound positive long =>
    simp [build, split, placeFitting message sound, place, Nat.ne_of_gt positive, maxLength, long,
      Except.map]

theorem fittingOrFaulty (message : String) {front : List FieldDecl} (sound : Fitting front)
    (rest : List FieldDecl) :
    Fitting (front ++ rest) ∨ ∃ e, Faulty message (front ++ rest) e := by
  induction rest generalizing front with
  | nil => exact .inl (by rwa [List.append_nil])
  | cons f rest ih =>
    by_cases zero : f.size = 0
    · exact .inr ⟨_, .zeroSize rfl sound zero⟩
    · have positive : 1 ≤ f.size := Nat.pos_of_ne_zero zero
      by_cases long : 0xFFFFFFFF < (front.map FieldDecl.size).sum + f.size
      · exact .inr ⟨_, .tooLong rfl sound positive long⟩
      · have next : Fitting (front ++ [f]) := by
          refine ⟨?_, by simpa using long⟩
          intro g member
          rcases List.mem_append.mp member with old | new
          · exact sound.positive g old
          · rwa [List.mem_singleton.mp new]
        simpa using ih next

end MessageSpec
end MarketFeed
