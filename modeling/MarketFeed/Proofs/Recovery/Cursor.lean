import Mathlib
import MarketFeed.Recovery.Plan

/-! How far a recovery has come, in exact numbers. A cursor stands where the sum of what it moved past
puts it, however the sum is split, in whatever order it comes and however often a count is asked for in
between. The largest sequence number and the end of the request cut this sum once, not every part. -/
namespace MarketFeed

inductive CursorCall where
  | requestCount (chunk : UInt16)
  | advance (received : Nat)
  deriving DecidableEq, Repr

def CursorCall.moves : CursorCall → Nat
  | requestCount _ => 0
  | advance received => received

def movedPast (calls : List CursorCall) : Nat := (calls.map CursorCall.moves).sum

def exactCounts (total : Nat) : (moved : Nat) → List CursorCall → List Nat
  | _, [] => []
  | moved, .requestCount chunk :: rest =>
    (if total = 0 then chunk.toNat else min chunk.toNat (total - moved)) ::
      exactCounts total moved rest
  | moved, .advance received :: rest => exactCounts total (moved + received) rest

namespace RecoveryCursor

def call (c : RecoveryCursor) : CursorCall → Option UInt16 × RecoveryCursor
  | .requestCount chunk => (some (c.requestCount chunk), c)
  | .advance received => (none, c.advance received)

def after : RecoveryCursor → List CursorCall → RecoveryCursor
  | c, [] => c
  | c, k :: rest => (c.call k).2.after rest

def counts : RecoveryCursor → List CursorCall → List UInt16
  | _, [] => []
  | c, k :: rest => (c.call k).1.toList ++ (c.call k).2.counts rest

theorem advanceNothing (c : RecoveryCursor) : c.advance 0 = c := by
  have stays : addSat c.sequence 0 = c.sequence := by
    have small := c.sequence.toNat_lt
    apply UInt64.toNat_inj.mp
    rw [addSatToNat]
    omega
  simp [advance, stays]

/- Once either number is cut it stays cut, so the cut of the sum is the sum of the cut parts. -/
theorem advanceTwice (c : RecoveryCursor) (a b : Nat) :
    (c.advance a).advance b = c.advance (a + b) := by
  have sequence : addSat (addSat c.sequence a) b = addSat c.sequence (a + b) := by
    apply UInt64.toNat_inj.mp
    rw [addSatToNat, addSatToNat, addSatToNat]
    omega
  cases bounded : c.bounded <;> simp [advance, bounded, sequence, Nat.sub_sub]

theorem afterMoved (c : RecoveryCursor) (calls : List CursorCall) :
    c.after calls = c.advance (movedPast calls) := by
  induction calls generalizing c with
  | nil => exact c.advanceNothing.symm
  | cons k rest ih =>
    cases k with
    | requestCount chunk => simpa [after, call, movedPast, CursorCall.moves] using ih c
    | advance received =>
      rw [after, call, ih, advanceTwice]
      rfl

theorem requestCountToNat (c : RecoveryCursor) (chunk : UInt16) :
    (c.requestCount chunk).toNat =
      if c.bounded then min chunk.toNat c.remaining else chunk.toNat := by
  cases bounded : c.bounded with
  | false => simp [requestCount, bounded]
  | true =>
    have narrow := chunk.toNat_lt
    rw [requestCount, bounded, if_pos rfl, if_pos rfl, UInt16.toNat_ofNat', Nat.min_comm]
    exact Nat.mod_eq_of_lt (by omega)

theorem isDoneIff (c : RecoveryCursor) : c.isDone = true ↔ c.bounded = true ∧ c.remaining = 0 := by
  rw [isDone, Bool.and_eq_true, beq_iff_eq]

theorem requestsNothingIff (c : RecoveryCursor) {chunk : UInt16} (positive : chunk ≠ 0) :
    c.requestCount chunk = 0 ↔ c.isDone = true := by
  have asks : chunk.toNat ≠ 0 := fun zero => positive (UInt16.toNat_inj.mp zero)
  rw [← UInt16.toNat_inj, requestCountToNat, isDoneIff]
  cases c.bounded with
  | false => simpa using asks
  | true =>
    simp only [if_true, true_and, UInt16.toNat_zero]
    omega

end RecoveryCursor

/- A cursor that was set at `start` for `total` messages and has moved past `moved`. The difference stops
at zero, where it also stands if no total was wanted. -/
structure StandsAt (start : UInt64) (total moved : Nat) (c : RecoveryCursor) : Prop where
  sequence : c.sequence.toNat = min 0xFFFFFFFFFFFFFFFF (start.toNat + moved)
  bounded : c.bounded = true ↔ total ≠ 0
  remaining : c.remaining = total - moved
  done : c.isDone = true ↔ total ≠ 0 ∧ total ≤ moved
  count : ∀ chunk, (c.requestCount chunk).toNat =
    if c.bounded then min chunk.toNat c.remaining else chunk.toNat
  asksNothing : ∀ chunk, chunk ≠ 0 → (c.requestCount chunk = 0 ↔ c.isDone = true)

variable (start : UInt64) (total : Nat)

theorem advancedStands (moved : Nat) :
    StandsAt start total moved ((RecoveryCursor.start start total).advance moved) := by
  have bounded : ((RecoveryCursor.start start total).advance moved).bounded = true ↔ total ≠ 0 :=
    bne_iff_ne
  have remaining : ((RecoveryCursor.start start total).advance moved).remaining = total - moved := by
    by_cases whole : total = 0 <;> simp [RecoveryCursor.advance, RecoveryCursor.start, whole]
  refine ⟨?_, bounded, remaining, ?_, RecoveryCursor.requestCountToNat _, ?_⟩
  · exact (addSatToNat start moved).trans (Nat.min_comm _ _)
  · rw [RecoveryCursor.isDoneIff, bounded, remaining, Nat.sub_eq_zero_iff_le]
  · exact fun chunk positive => RecoveryCursor.requestsNothingIff _ positive

theorem countsExact (moved : Nat) (calls : List CursorCall) :
    (((RecoveryCursor.start start total).advance moved).counts calls).map UInt16.toNat =
      exactCounts total moved calls := by
  induction calls generalizing moved with
  | nil => rfl
  | cons k rest ih =>
    cases k with
    | requestCount chunk =>
      have stands := advancedStands start total moved
      have first : (((RecoveryCursor.start start total).advance moved).requestCount chunk).toNat =
          if total = 0 then chunk.toNat else min chunk.toNat (total - moved) := by
        rw [stands.count, stands.remaining]
        simp only [stands.bounded, ne_eq, ite_not]
      simp only [RecoveryCursor.counts, RecoveryCursor.call, Option.toList_some, List.singleton_append,
        List.map_cons, first, ih, exactCounts]
    | advance received =>
      simp only [RecoveryCursor.counts, RecoveryCursor.call, Option.toList_none, List.nil_append,
        RecoveryCursor.advanceTwice, ih, exactCounts]

theorem cursorExact (calls : List CursorCall) :
    let c := RecoveryCursor.start start total
    StandsAt start total (movedPast calls) (c.after calls) ∧
      (c.counts calls).map UInt16.toNat = exactCounts total 0 calls ∧
      ∀ others, movedPast others = movedPast calls → c.after others = c.after calls := by
  refine ⟨?_, ?_, ?_⟩
  · rw [RecoveryCursor.afterMoved]
    exact advancedStands start total _
  · rw [← countsExact start total 0 calls, RecoveryCursor.advanceNothing]
  · intro others same
    rw [RecoveryCursor.afterMoved, RecoveryCursor.afterMoved, same]

/- Both numbers are cut on the way, the sequence number three in front of the last and what remains at
the second step; the same sum in other parts leaves the same cursor. -/
theorem cursorExactCut :
    let calls : List CursorCall :=
      [.requestCount 5, .advance 10, .requestCount 5, .advance 7, .requestCount 5]
    let others : List CursorCall := [.advance 1, .advance 0, .advance 16]
    let c := RecoveryCursor.start 0xFFFFFFFFFFFFFFFC 12
    movedPast others = movedPast calls ∧ c.after calls = ⟨0xFFFFFFFFFFFFFFFF, 0, true⟩ ∧
      exactCounts 12 0 calls = [5, 2, 0] ∧ StandsAt 0xFFFFFFFFFFFFFFFC 12 17 (c.after calls) ∧
      c.after others = c.after calls := by
  intro calls others c
  have exact := cursorExact 0xFFFFFFFFFFFFFFFC 12 calls
  have same : movedPast others = movedPast calls := by decide
  exact ⟨same, by decide, by decide, exact.1, exact.2.2 others same⟩

end MarketFeed
