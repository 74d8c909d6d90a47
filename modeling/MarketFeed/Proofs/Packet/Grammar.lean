import MarketFeed.Proofs.Packet.Written

/-! The frames of any bytes under any header. The bodies that are delivered, written again, are the
bytes behind the header up to the place where the walk ended; a walk that ended early stands before
bytes that hold no frame. -/
namespace MarketFeed

theorem Header.writtenRead {packet : Bytes} {h : Header} (ok : Header.read packet = .ok h) :
    h.write = packet.take headerSize := by
  unfold Header.read at ok
  split at ok <;> try contradiction
  rename_i enough
  cases Except.ok.inj ok
  have middle : ((packet.drop 10).take 8).length = 8 := by simp [headerSize] at enough ⊢; omega
  have last : ((packet.drop 18).take 2).length = 2 := by simp [headerSize] at enough ⊢; omega
  have sequence := readBeBound ((packet.drop 10).take 8)
  have count := readBeBound ((packet.drop 18).take 2)
  rw [middle] at sequence
  rw [last] at count
  rw [Header.write, UInt64.toNat_ofNat_of_lt' sequence, UInt16.toNat_ofNat_of_lt' count, beOfRead middle,
    beOfRead last, headerSize, ← List.take_add, ← List.take_add]

theorem frameCountFew (h : Header) : h.frameCount ≤ maxMessages := by
  cases ended : h.isEndOfSession with
  | true => simp [Header.frameCount, ended]
  | false =>
    have small := h.count.toNat_lt
    have unmarked : h.count.toNat ≠ 0xFFFF := fun marked => by
      have same : h.count = endOfSessionCount := UInt16.toNat_inj.mp marked
      simp [Header.isEndOfSession, same] at ended
    simp only [Header.frameCount, ended, maxMessages, Bool.false_eq_true, if_false]
    omega

theorem writeFrameLength (body : Bytes) : (writeFrame body).length = lengthSize + body.length := by
  simp [writeFrame, beLength, lengthSize]

def framedSize : List Bytes → Nat
  | [] => 0
  | body :: rest => lengthSize + body.length + framedSize rest

theorem framedLength (bodies : List Bytes) :
    (bodies.flatMap writeFrame).length = framedSize bodies := by
  induction bodies with
  | nil => rfl
  | cons body rest ih =>
    rw [List.flatMap_cons, List.length_append, writeFrameLength, ih, framedSize]

theorem readFrameTaken {offset : Nat} {rest body after : Bytes}
    (ok : readFrame offset rest = .ok (body, after)) :
    body.length ≤ 0xFFFF ∧ rest = writeFrame body ++ after := by
  match rest with
  | [] => contradiction
  | [_] => contradiction
  | high :: low :: tail =>
    simp only [readFrame, List.splitAt_eq] at ok
    split at ok <;> try contradiction
    rename_i enough
    cases Except.ok.inj ok
    have small := readBeBound [high, low]
    have length : be 2 (readBE [high, low]) = [high, low] := beOfRead rfl
    refine ⟨?_, ?_⟩
    · rw [enough]
      exact Nat.le_of_lt_succ small
    · rw [writeFrame, enough, length]
      simp

theorem readFrameCut {offset : Nat} {rest : Bytes} {fault : FrameFault}
    (cut : readFrame offset rest = .error fault) :
    rest.length < lengthSize ∧ fault = .lengthCut offset ∨
      lengthSize ≤ rest.length ∧
        fault = .bodyCut offset (readBE (rest.take lengthSize)) (rest.length - lengthSize) ∧
        rest.length - lengthSize < readBE (rest.take lengthSize) := by
  match rest with
  | [] => exact .inl ⟨Nat.zero_lt_two, (Except.error.inj cut).symm⟩
  | [_] => exact .inl ⟨Nat.one_lt_two, (Except.error.inj cut).symm⟩
  | high :: low :: tail =>
    simp only [readFrame, List.splitAt_eq] at cut
    split at cut <;> try contradiction
    rename_i short
    refine .inr ⟨by simp [lengthSize], (Except.error.inj cut).symm, ?_⟩
    rw [List.length_take] at short
    change tail.length < readBE [high, low]
    omega

namespace Framing

def answers : (calls : Nat) → Framing → List (Option Bytes)
  | 0, _ => []
  | calls + 1, f => f.next.1 :: answers calls f.next.2

def after : (calls : Nat) → Framing → Framing
  | 0, f => f
  | calls + 1, f => after calls f.next.2

theorem endedAnswers {f : Framing} (ended : f.next = (none, f)) (calls : Nat) :
    f.answers calls = List.replicate calls none ∧ f.after calls = f := by
  induction calls with
  | zero => exact ⟨rfl, rfl⟩
  | succ calls ih => simp [answers, after, ended, ih, List.replicate_succ]

theorem answersBodies (f : Framing) (more : Nat) :
    f.answers (f.bodies.length + more) = f.bodies.map some ++ List.replicate more none := by
  induction f with
  | complete => simpa [bodies] using (endedAnswers (f := complete) rfl more).1
  | broken fault lost => simpa [bodies] using (endedAnswers (f := broken fault lost) rfl more).1
  | frame body rest ih =>
    have count : (frame body rest).bodies.length + more = rest.bodies.length + more + 1 := by
      simp only [bodies, List.length_cons]
      omega
    rw [count]
    simp [answers, next, bodies, ih]

theorem drainedNext (f : Framing) : f.drained.next = (none, f.drained) := by
  induction f with
  | complete => rfl
  | broken fault lost => rfl
  | frame body rest ih => exact ih

theorem drainedKeeps (f : Framing) : f.drained.fault = f.fault ∧ f.drained.lost = f.lost := by
  induction f with
  | complete => exact ⟨rfl, rfl⟩
  | broken fault lost => exact ⟨rfl, rfl⟩
  | frame body rest ih => exact ih

theorem afterDrained (f : Framing) (more : Nat) : f.after (f.bodies.length + more) = f.drained := by
  induction f with
  | complete => simp [bodies, drained, (endedAnswers (f := complete) rfl more).2]
  | broken fault lost => simp [bodies, drained, (endedAnswers (f := broken fault lost) rfl more).2]
  | frame body rest ih =>
    have count : (frame body rest).bodies.length + more = rest.bodies.length + more + 1 := by
      simp only [bodies, List.length_cons]
      omega
    rw [count]
    exact ih

theorem afterBodies (f : Framing) (more : Nat) :
    (f.after (f.bodies.length + more)).fault = f.fault ∧
      (f.after (f.bodies.length + more)).lost = f.lost := by
  rw [afterDrained]
  exact f.drainedKeeps

structure Walked (offset : Nat) (rest : Bytes) (f : Framing) (tail : Bytes) : Prop where
  fit : ∀ body ∈ f.bodies, body.length ≤ 0xFFFF
  written : rest = f.bodies.flatMap writeFrame ++ tail
  stuck : ∀ fault, f.fault = some fault →
    readFrame (offset + framedSize f.bodies) tail = .error fault

theorem splitWalked (count offset : Nat) (rest : Bytes) :
    ∃ tail, Walked offset rest (split count offset rest) tail := by
  induction count generalizing offset rest with
  | zero => exact ⟨rest, by simp [split, bodies], rfl, by simp [split, fault]⟩
  | succ count ih =>
    unfold split
    cases read : readFrame offset rest with
    | error cut =>
      refine ⟨rest, by simp [bodies], rfl, ?_⟩
      intro fault found
      cases Option.some.inj found
      exact read
    | ok got =>
      obtain ⟨body, behind⟩ := got
      obtain ⟨small, front⟩ := readFrameTaken read
      obtain ⟨tail, fit, written, stuck⟩ := ih (offset + lengthSize + body.length) behind
      refine ⟨tail, ?_, ?_, ?_⟩
      · exact List.forall_mem_cons.mpr ⟨small, fit⟩
      · rw [front, bodies, List.flatMap_cons, List.append_assoc, ← written]
      · intro fault found
        rw [← stuck fault found]
        simp [bodies, framedSize, Nat.add_assoc]

theorem walkedTail {offset : Nat} {rest : Bytes} {f : Framing} {tail : Bytes}
    (walked : Walked offset rest f tail) : tail = rest.drop (framedSize f.bodies) := by
  rw [walked.written, List.drop_left' (framedLength _)]

theorem splitLoses {count offset : Nat} {rest : Bytes} {cut : FrameFault}
    (broken : (split count offset rest).fault = some cut) : 0 < (split count offset rest).lost := by
  induction count generalizing offset rest with
  | zero => contradiction
  | succ count ih =>
    unfold split at broken ⊢
    cases read : readFrame offset rest with
    | error cut => simp [lost]
    | ok got =>
      simp only [read, fault, lost] at broken ⊢
      exact ih broken

theorem splitWholeIff (count offset : Nat) (rest : Bytes) :
    (split count offset rest).fault = none ↔ (split count offset rest).bodies.length = count := by
  have counts := splitCounts count offset rest
  constructor
  · intro unbroken
    have none := splitWhole count offset rest unbroken
    omega
  · intro whole
    cases cut : (split count offset rest).fault with
    | none => rfl
    | some fault =>
      have some := splitLoses cut
      omega

theorem splitLongest {others : List Bytes} (fit : ∀ body ∈ others, body.length ≤ 0xFFFF)
    {count : Nat} (few : others.length ≤ count) (offset : Nat) (tail : Bytes) :
    others <+: (split count offset (others.flatMap writeFrame ++ tail)).bodies := by
  induction others generalizing count offset with
  | nil => exact List.nil_prefix
  | cons body rest ih =>
    obtain ⟨small, later⟩ := List.forall_mem_cons.mp fit
    cases count with
    | zero => contradiction
    | succ count =>
      have first := readFrameWritten small offset (rest.flatMap writeFrame ++ tail)
      simp only [List.flatMap_cons, List.append_assoc, split, first, bodies]
      exact List.cons_prefix_cons.mpr ⟨rfl, ih later (Nat.le_of_succ_le_succ few) _⟩

end Framing

structure FollowsGrammar (packet : Bytes) (h : Header) (f : Framing) : Prop where
  few : f.bodies.length ≤ h.frameCount
  fit : ∀ body ∈ f.bodies, body.length ≤ 0xFFFF
  written : (packet.drop headerSize).take (framedSize f.bodies) = f.bodies.flatMap writeFrame
  remaining : f.lost = h.frameCount - f.bodies.length
  whole : f.fault = none ↔ f.bodies.length = h.frameCount
  cut : f.bodies.length < h.frameCount →
    let stop := headerSize + framedSize f.bodies
    let declared := readBE ((packet.drop stop).take lengthSize)
    packet.length < stop + lengthSize ∧ f.fault = some (.lengthCut stop) ∨
      stop + lengthSize ≤ packet.length ∧
        f.fault = some (.bodyCut stop declared (packet.length - stop - lengthSize)) ∧
        packet.length - stop - lengthSize < declared
  longest : ∀ others tail, packet.drop headerSize = others.flatMap writeFrame ++ tail →
    others.length ≤ h.frameCount → (∀ body ∈ others, body.length ≤ 0xFFFF) → others <+: f.bodies
  answers : ∀ more,
    f.answers (f.bodies.length + more) = f.bodies.map some ++ List.replicate more none
  ended : ∀ more, (f.after (f.bodies.length + 1 + more)).fault = f.fault ∧
    (f.after (f.bodies.length + 1 + more)).lost = f.lost
  encoded : Header.read packet = .ok h → h.isEndOfSession = false →
    f.bodies.length = h.frameCount →
    encodePacket h.session h.sequence f.bodies =
      .ok (packet.take (headerSize + framedSize f.bodies))

theorem framesWalked (packet : Bytes) (h : Header) :
    ∃ tail, Framing.Walked headerSize (packet.drop headerSize) (frames packet h) tail :=
  Framing.splitWalked _ _ _

theorem framesCut {packet : Bytes} {h : Header} {fault : FrameFault}
    (broken : (frames packet h).fault = some fault) :
    let stop := headerSize + framedSize (frames packet h).bodies
    let declared := readBE ((packet.drop stop).take lengthSize)
    packet.length < stop + lengthSize ∧ fault = .lengthCut stop ∨
      stop + lengthSize ≤ packet.length ∧
        fault = .bodyCut stop declared (packet.length - stop - lengthSize) ∧
        packet.length - stop - lengthSize < declared := by
  obtain ⟨tail, walked⟩ := framesWalked packet h
  have behind : packet.drop (headerSize + framedSize (frames packet h).bodies) = tail := by
    rw [← List.drop_drop, ← Framing.walkedTail walked]
  have size : packet.length - headerSize = framedSize (frames packet h).bodies + tail.length := by
    have lengths := congrArg List.length walked.written
    rwa [List.length_drop, List.length_append, framedLength] at lengths
  simp only [behind]
  rcases readFrameCut (walked.stuck fault broken) with ⟨short, same⟩ | ⟨enough, same, beyond⟩
  · exact .inl ⟨by omega, same⟩
  · have left : packet.length - (headerSize + framedSize (frames packet h).bodies) - lengthSize =
        tail.length - lengthSize := by omega
    rw [left]
    exact .inr ⟨by simp only [lengthSize] at enough ⊢; omega, same, beyond⟩

theorem framesTaken (packet : Bytes) (h : Header) :
    (packet.drop headerSize).take (framedSize (frames packet h).bodies) =
      (frames packet h).bodies.flatMap writeFrame := by
  obtain ⟨tail, walked⟩ := framesWalked packet h
  rw [walked.written, List.take_left' (framedLength _)]

theorem framesEncoded {packet : Bytes} {h : Header} (ok : Header.read packet = .ok h)
    (going : h.isEndOfSession = false) (all : (frames packet h).bodies.length = h.frameCount) :
    encodePacket h.session h.sequence (frames packet h).bodies =
      .ok (packet.take (headerSize + framedSize (frames packet h).bodies)) := by
  obtain ⟨tail, walked⟩ := framesWalked packet h
  have announced : h.frameCount = h.count.toNat := by simp [Header.frameCount, going]
  have few : (frames packet h).bodies.length ≤ maxMessages := by
    rw [all]
    exact frameCountFew h
  rw [encodePacketFit few walked.fit, all, announced, UInt16.ofNat_toNat, Header.writtenRead ok,
    List.take_add, framesTaken]

theorem framesExact (packet : Bytes) (h : Header) : FollowsGrammar packet h (frames packet h) := by
  obtain ⟨tail, walked⟩ := framesWalked packet h
  have counts := framesCount packet h
  have whole : (frames packet h).fault = none ↔ (frames packet h).bodies.length = h.frameCount :=
    Framing.splitWholeIff _ _ _
  refine ⟨by omega, walked.fit, framesTaken packet h, by omega, whole, ?_, ?_,
    Framing.answersBodies _, ?_, framesEncoded⟩
  · intro short
    cases broken : (frames packet h).fault with
    | none =>
      have all := whole.mp broken
      omega
    | some fault => simpa using framesCut broken
  · intro others behind same few fit
    rw [frames, same]
    exact Framing.splitLongest fit few headerSize behind
  · intro more
    rw [Nat.add_assoc]
    exact Framing.afterBodies _ _

/- A packet that announces three frames and holds one, an empty one and half a length. -/
theorem framesExactHalfLength :
    let h : Header := ⟨⟨List.replicate 10 0x41, rfl⟩, 7, 3⟩
    let packet := h.write ++ [0, 1, 0x42, 0, 0, 1]
    (frames packet h).bodies = [[0x42], []] ∧ (frames packet h).fault = some (.lengthCut 25) ∧
      FollowsGrammar packet h (frames packet h) :=
  ⟨by decide, by decide, framesExact _ _⟩

end MarketFeed
