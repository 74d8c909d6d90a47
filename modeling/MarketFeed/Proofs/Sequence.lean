import Mathlib
import MarketFeed.Proofs.Stream

/-! The tracker over a whole stream of headers. Each header is placed against the one before it, and
within a session the places add up: the number expected at the end lies behind the first packet by
the frames announced and the numbers missed, less the steps back. Heartbeats and ends of session
announce no frames. -/
namespace MarketFeed

namespace Sequencing

def changedFrom? : Sequencing → Option Session
  | sessionChange previous _ _ => some previous
  | _ => none

def missing : Sequencing → Nat
  | gap _ _ missing => missing.toNat
  | _ => 0

def setback : Sequencing → Nat
  | duplicate expected received => expected.toNat - received.toNat
  | _ => 0

def steady : Sequencing → Bool
  | gap _ _ _ | duplicate _ _ => false
  | _ => true

def Measured : Sequencing → Prop
  | gap expected received missing =>
    0 < missing.toNat ∧ received.toNat = expected.toNat + missing.toNat
  | duplicate expected received => received.toNat < expected.toNat
  | _ => True

end Sequencing

inductive Places (a b : Header) : Sequencing → Prop where
  | changed (other : b.session ≠ a.session) :
      Places a b (.sessionChange a.session b.session b.sequence)
  | gap {missing} (same : b.session = a.session) (positive : 0 < missing.toNat)
      (ahead : b.sequence.toNat = a.nextSequence.toNat + missing.toNat) :
      Places a b (.gap a.nextSequence b.sequence missing)
  | duplicate (same : b.session = a.session) (behind : b.sequence.toNat < a.nextSequence.toNat) :
      Places a b (.duplicate a.nextSequence b.sequence)
  | inOrder (same : b.session = a.session) (here : b.sequence = a.nextSequence) :
      Places a b .inOrder

theorem Places.changes {a b : Header} {found : Sequencing} (places : Places a b found) :
    found.changedFrom? = if b.session = a.session then none else some a.session := by
  cases places with
  | changed other => exact (if_neg other).symm
  | gap same _ _ | duplicate same _ | inOrder same _ => exact (if_pos same).symm

theorem Places.measured {a b : Header} {found : Sequencing} (places : Places a b found) :
    found.Measured := by
  cases places with
  | changed | inOrder => trivial
  | gap _ positive ahead => exact ⟨positive, ahead⟩
  | duplicate _ behind => exact behind

theorem Places.balance {a b : Header} {found : Sequencing} (places : Places a b found)
    (same : b.session = a.session) :
    a.nextSequence.toNat + found.missing = b.sequence.toNat + found.setback := by
  cases places with
  | changed other => exact absurd same other
  | gap _ _ ahead => exact ahead.symm
  | duplicate _ behind =>
    simp only [Sequencing.missing, Sequencing.setback]
    omega
  | inOrder _ here =>
    rw [here]
    rfl

theorem Places.steadyIff {a b : Header} {found : Sequencing} (places : Places a b found)
    (same : b.session = a.session) :
    found.steady = true ↔ b.sequence.toNat = a.nextSequence.toNat := by
  cases places with
  | changed other => exact absurd same other
  | gap _ positive ahead =>
    simp only [Sequencing.steady, Bool.false_eq_true, false_iff]
    omega
  | duplicate _ behind =>
    simp only [Sequencing.steady, Bool.false_eq_true, false_iff]
    omega
  | inOrder _ here => simp [Sequencing.steady, here]

namespace Tracker

def follow (t : Tracker) : List Header → Tracker
  | [] => t
  | h :: rest => (t.track h).2.follow rest

def findings (t : Tracker) : List Header → List Sequencing
  | [] => []
  | h :: rest => (t.track h).1 :: (t.track h).2.findings rest

def during (t : Tracker) (before block after : List Header) : List Sequencing :=
  ((t.findings (before ++ block ++ after)).drop before.length).take block.length

theorem trackBehind (t : Tracker) (h : Header) :
    (t.track h).2 = .joined h.session h.nextSequence := rfl

theorem followAppend (t : Tracker) (a b : List Header) :
    t.follow (a ++ b) = (t.follow a).follow b := by
  induction a generalizing t with
  | nil => rfl
  | cons h rest ih => exact ih _

theorem findingsAppend (t : Tracker) (a b : List Header) :
    t.findings (a ++ b) = t.findings a ++ (t.follow a).findings b := by
  induction a generalizing t with
  | nil => rfl
  | cons h rest ih => exact congrArg _ (ih _)

theorem findingsLength (t : Tracker) (headers : List Header) :
    (t.findings headers).length = headers.length := by
  induction headers generalizing t with
  | nil => rfl
  | cons h rest ih => exact congrArg (· + 1) (ih _)

theorem duringFindings (t : Tracker) (before block after : List Header) :
    t.during before block after = (t.follow before).findings block := by
  unfold during
  rw [List.append_assoc, findingsAppend, List.drop_left' (findingsLength t before), findingsAppend,
    List.take_left' (findingsLength _ block)]

theorem followLast (t : Tracker) {headers : List Header} {last : Header}
    (final : headers.getLast? = some last) :
    t.follow headers = .joined last.session last.nextSequence := by
  obtain ⟨front, rfl⟩ := List.getLast?_eq_some_iff.mp final
  rw [followAppend]
  rfl

theorem trackPlaces (a b : Header) :
    Places a b ((joined a.session a.nextSequence).track b).1 := by
  simp only [track, classify]
  split
  · rename_i other
    exact .changed (Ne.symm other)
  · rename_i unchanged
    have same : b.session = a.session := (Decidable.not_not.mp unchanged).symm
    split
    · rename_i ahead
      have less := UInt64.lt_iff_toNat_lt.mp ahead
      have difference := UInt64.toNat_sub_of_le _ _ (UInt64.le_of_lt ahead)
      exact .gap same (by omega) (by omega)
    · rename_i notAhead
      split
      · rename_i behind
        exact .duplicate same (UInt64.lt_iff_toNat_lt.mp behind)
      · rename_i notBehind
        exact .inOrder same (UInt64.le_antisymm (UInt64.not_lt.mp notAhead)
          (UInt64.not_lt.mp notBehind))

theorem trackOpens {t : Tracker} {h : Header} (opens : t.session? ≠ some h.session) :
    (t.track h).1.missing = 0 ∧ (t.track h).1.setback = 0 ∧ (t.track h).1.steady = true := by
  cases t with
  | idle => exact ⟨rfl, rfl, rfl⟩
  | joined session expected =>
    have other : session ≠ h.session := fun same => opens (congrArg some same)
    simp [track, classify, other, Sequencing.missing, Sequencing.setback, Sequencing.steady]

theorem findingsPlace (t : Tracker) {headers : List Header} {i : Nat} {a b : Header}
    (first : headers[i]? = some a) (second : headers[i + 1]? = some b) :
    ∃ found, (t.findings headers)[i + 1]? = some found ∧ Places a b found := by
  induction headers generalizing t i with
  | nil => contradiction
  | cons head rest ih =>
    cases i with
    | zero =>
      cases rest with
      | nil => contradiction
      | cons next later =>
        obtain rfl := Option.some.inj first
        obtain rfl := Option.some.inj second
        exact ⟨_, rfl, trackPlaces _ _⟩
    | succ i => exact ih _ first second

theorem findingsMeasured {t : Tracker} {headers : List Header}
    (opens : ∀ h, headers.head? = some h → (t.track h).1.Measured) :
    ∀ found ∈ t.findings headers, found.Measured := by
  induction headers generalizing t with
  | nil => exact fun found member => by contradiction
  | cons a rest ih =>
    refine List.forall_mem_cons.mpr ⟨opens a rfl, ih ?_⟩
    intro b _
    exact (trackPlaces a b).measured

end Tracker

theorem Header.frameCountSilent {h : Header}
    (silent : h.isHeartbeat = true ∨ h.isEndOfSession = true) : h.frameCount = 0 := by
  unfold frameCount
  split
  · rfl
  · rcases silent with heartbeat | ended
    · rw [eq_of_beq heartbeat]
      rfl
    · contradiction

def Follows (a b : Header) : Prop := b.sequence.toNat = a.sequence.toNat + a.frameCount

def Header.Fits (h : Header) : Prop := h.sequence.toNat + h.frameCount ≤ 0xFFFFFFFFFFFFFFFF

instance (h : Header) : Decidable h.Fits := inferInstanceAs (Decidable (_ ≤ _))

theorem Header.fitsNext {h : Header} (fits : h.Fits) :
    h.nextSequence.toNat = h.sequence.toNat + h.frameCount := by
  rw [nextSequenceToNat, Nat.min_eq_left fits]

structure Conserves (first : Header) (rest : List Header) (found : List Sequencing)
    (expected : UInt64) : Prop where
  balance : expected.toNat + (found.map Sequencing.setback).sum =
    first.sequence.toNat + ((first :: rest).map Header.frameCount).sum +
      (found.map Sequencing.missing).sum
  steady : (∀ f ∈ found, f.steady = true) ↔ (first :: rest).IsChain Follows

namespace Tracker

/- The induction moves the first header along: each header closes the balance of the one before. -/
theorem findingsConserve {first : Header} (fits : first.Fits) {rest : List Header}
    (same : ∀ h ∈ rest, h.session = first.session ∧ h.Fits) :
    ∃ expected, (joined first.session first.nextSequence).follow rest =
        .joined first.session expected ∧
      Conserves first rest ((joined first.session first.nextSequence).findings rest) expected := by
  induction rest generalizing first with
  | nil =>
    refine ⟨first.nextSequence, rfl, ?_, ?_⟩
    · simp [findings, Header.fitsNext fits]
    · simp [findings]
  | cons h rest ih =>
    obtain ⟨⟨session, fit⟩, later⟩ := List.forall_mem_cons.mp same
    obtain ⟨expected, followed, balance, steady⟩ := ih fit (by rwa [session])
    have next := Header.fitsNext fits
    have places := trackPlaces first h
    have step := places.balance session
    have straight := places.steadyIff session
    refine ⟨expected, ?_, ?_, ?_⟩
    · rw [← session]
      exact followed
    · simp only [findings, trackBehind, List.map_cons, List.sum_cons] at balance ⊢
      omega
    · rw [List.isChain_cons_cons, ← steady, Follows, ← next, ← straight]
      exact List.forall_mem_cons

end Tracker

structure Tracked (headers : List Header) : Prop where
  each : (Tracker.idle.findings headers).length = headers.length
  first : ∀ h, headers.head? = some h →
    (Tracker.idle.findings headers).head? = some (.joined h.session h.sequence)
  later : ∀ i a b, headers[i]? = some a → headers[i + 1]? = some b →
    ∃ found, (Tracker.idle.findings headers)[i + 1]? = some found ∧ Places a b found ∧
      found.changedFrom? = if b.session = a.session then none else some a.session
  measured : ∀ found ∈ Tracker.idle.findings headers, found.Measured
  behind : ∀ last, headers.getLast? = some last →
    Tracker.idle.follow headers = .joined last.session last.nextSequence
  silent : ∀ h ∈ headers, h.isHeartbeat = true ∨ h.isEndOfSession = true → h.frameCount = 0

theorem Tracker.idleTracks (headers : List Header) : Tracked headers where
  each := findingsLength _ _
  first := by
    intro h front
    cases headers with
    | nil => contradiction
    | cons a rest =>
      obtain rfl := Option.some.inj front
      rfl
  later := by
    intro i a b first second
    obtain ⟨found, here, places⟩ := findingsPlace _ first second
    exact ⟨found, here, places, places.changes⟩
  measured := findingsMeasured fun h _ => trivial
  behind := fun last final => followLast _ final
  silent := fun h _ silent => Header.frameCountSilent silent

/- A stretch of one session may start in the middle of it. What is found of its first header then
belongs to the header before, and is not part of the balance. -/
theorem trackingConserves (headers : List Header) :
    Tracked headers ∧
    ∀ before first rest after, headers = before ++ (first :: rest) ++ after →
      (∀ h ∈ first :: rest, h.session = first.session ∧ h.Fits) →
      ∃ expected, Tracker.idle.follow (before ++ (first :: rest)) = .joined first.session expected ∧
        Conserves first rest (Tracker.idle.during before (first :: rest) after).tail expected ∧
        ((∀ last, before.getLast? = some last → last.session ≠ first.session) →
          Conserves first rest (Tracker.idle.during before (first :: rest) after) expected) := by
  refine ⟨Tracker.idleTracks headers, ?_⟩
  intro before first rest after split same
  obtain ⟨⟨_, fits⟩, later⟩ := List.forall_mem_cons.mp same
  obtain ⟨expected, followed, conserves⟩ := Tracker.findingsConserve fits later
  rw [Tracker.duringFindings, Tracker.followAppend]
  refine ⟨expected, followed, conserves, ?_⟩
  intro opens
  have fresh : (Tracker.idle.follow before).session? ≠ some first.session := by
    rcases List.eq_nil_or_concat before with rfl | ⟨front, last, rfl⟩
    · intro unchanged
      contradiction
    · rw [List.concat_eq_append] at opens ⊢
      rw [Tracker.followAppend]
      intro unchanged
      exact opens last (by simp) (Option.some.inj unchanged)
  obtain ⟨missing, setback, steady⟩ := Tracker.trackOpens fresh
  obtain ⟨balance, straight⟩ := conserves
  constructor
  · simp only [Tracker.findings, List.map_cons, List.sum_cons, missing, setback, Nat.zero_add]
    exact balance
  · rw [← straight, Tracker.findings, List.forall_mem_cons, steady]
    exact and_iff_right rfl

/- Behind another session: two numbers missed, two steps back, a heartbeat and an end of session in
their place, and a heartbeat one number ahead. -/
theorem trackingConservesBothWays :
    let session : Session := ⟨List.replicate 10 0x41, rfl⟩
    let other : Session := ⟨List.replicate 10 0x42, rfl⟩
    let rest : List Header := [⟨session, 9, 1⟩, ⟨session, 8, 3⟩, ⟨session, 11, 0⟩,
      ⟨session, 11, 0xFFFF⟩, ⟨session, 12, 0⟩]
    Tracker.idle.follow (⟨other, 90, 0⟩ :: ⟨session, 5, 2⟩ :: rest) = .joined session 12 ∧
      Conserves ⟨session, 5, 2⟩ rest
        (Tracker.idle.during [⟨other, 90, 0⟩] (⟨session, 5, 2⟩ :: rest) [⟨other, 91, 0⟩]) 12 := by
  intro session other rest
  obtain ⟨expected, followed, _, whole⟩ := (trackingConserves _).2 [⟨other, 90, 0⟩] ⟨session, 5, 2⟩
    rest [⟨other, 91, 0⟩] rfl (by decide)
  have behind : Tracker.idle.follow (⟨other, 90, 0⟩ :: ⟨session, 5, 2⟩ :: rest) =
      .joined session 12 := by decide
  cases behind.symm.trans followed
  exact ⟨behind, whole (by decide)⟩

/- With the result of its first header, the balance fails for a stretch that starts in the middle of
its session: the three numbers missed lie in front of the stretch, and nothing in it makes up for them. -/
theorem trackingGapBeforeStretch :
    let session : Session := ⟨List.replicate 10 0x41, rfl⟩
    let before : Header := ⟨session, 1, 1⟩
    let first : Header := ⟨session, 5, 1⟩
    first.Fits ∧ Tracker.idle.during [before] [first] [] = [.gap 2 5 3] ∧
      Tracker.idle.follow [before, first] = .joined session 6 ∧
      ¬Conserves first [] (Tracker.idle.during [before] [first] []) 6 := by
  intro session before first
  have found : Tracker.idle.during [before] [first] [] = [.gap 2 5 3] := by decide
  refine ⟨by decide, found, by decide, ?_⟩
  rw [found]
  intro ⟨balance, _⟩
  exact absurd balance (by decide)

end MarketFeed
