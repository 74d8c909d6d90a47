import MarketFeed.Proofs.Packet.Grammar
import MarketFeed.Proofs.Stream

/-! The account of one packet. Which frames the packet holds is said by its bytes alone, how many of
them count by the room under the cap alone; the filter chooses which of those that count are reported,
under numbers that it has no part in. -/
namespace MarketFeed

structure Framed (packet : Bytes) (h : Header) (bodies : List Bytes) : Prop where
  few : bodies.length ≤ h.frameCount
  fit : ∀ body ∈ bodies, body.length ≤ 0xFFFF
  written : bodies.flatMap writeFrame <+: packet.drop headerSize
  longest : ∀ others : List Bytes, others.length ≤ h.frameCount →
    (∀ body ∈ others, body.length ≤ 0xFFFF) →
    others.flatMap writeFrame <+: packet.drop headerSize → others <+: bodies

theorem framesFramed (packet : Bytes) (h : Header) : Framed packet h (frames packet h).bodies := by
  obtain ⟨tail, walked⟩ := framesWalked packet h
  have counts := framesCount packet h
  refine ⟨by omega, walked.fit, ⟨tail, walked.written.symm⟩, ?_⟩
  intro others few fit ⟨behind, written⟩
  rw [frames, ← written]
  exact Framing.splitLongest fit few headerSize behind

theorem framesBrokenIff (packet : Bytes) (h : Header) :
    (frames packet h).fault.isSome = true ↔ (frames packet h).bodies.length < h.frameCount := by
  have counts := framesCount packet h
  have whole : (frames packet h).fault = none ↔ (frames packet h).bodies.length = h.frameCount :=
    Framing.splitWholeIff _ _ _
  rw [Option.isSome_iff_ne_none, ne_eq, whole]
  omega

namespace Pipeline

theorem roomBehindIff (p : Pipeline) (n : Nat) :
    (p.counted (p.allowance n)).capReached = false ↔ p.cap = 0 ∨ n < p.cap - p.processed := by
  rw [uncappedIff]
  by_cases unlimited : p.cap = 0
  · simp [counted, unlimited]
  · simp only [counted, allowanceLimited unlimited, unlimited, false_or]
    omega

theorem cutShortIff (p : Pipeline) (packet : Bytes) (h : Header) :
    p.cutShort (frames packet h) = true ↔
      (frames packet h).bodies.length < h.frameCount ∧
        (p.cap = 0 ∨ (frames packet h).bodies.length < p.cap - p.processed) := by
  rw [cutShort, Bool.and_eq_true, framesBrokenIff, Bool.not_eq_true', roomBehindIff]

theorem cutEventsFramed (p : Pipeline) (packet : Bytes) (h : Header) :
    p.cutEvents h 0 (frames packet h) =
      if p.cutShort (frames packet h) then
        [.frameOverrun h.session (h.sequence + UInt64.ofNat (frames packet h).bodies.length)
          (h.frameCount - (frames packet h).bodies.length)]
      else [] := by
  have counts := framesCount packet h
  unfold cutEvents
  split
  · rename_i cut
    have room := (p.roomBehindIff _).mpr ((p.cutShortIff packet h).mp cut).2
    have lost : (frames packet h).lost = h.frameCount - (frames packet h).bodies.length := by omega
    rw [allowanceWhole room, Nat.zero_add, lost]
    rfl
  · rfl

end Pipeline

/- What a pipeline makes of a packet that holds these frames. The count goes on in 64 bits. -/
structure Accounted (p : Pipeline) (h : Header) (bodies : List Bytes) (done : Processed) : Prop where
  kept : done.pipeline = { p with processed := done.pipeline.processed }
  counted : done.pipeline.counter = p.counter + UInt64.ofNat done.report.processed
  unwrapped : p.cap ≠ 0 ∨ p.processed + bodies.length ≤ 0xFFFFFFFFFFFFFFFF →
    done.pipeline.counter.toNat = p.processed + done.report.processed
  within : p.cap ≠ 0 → done.pipeline.counter.toNat ≤ p.cap
  processed : done.report.processed = p.allowance bodies.length
  reported : done.report.reported =
    (delivered h.session h.sequence p.table p.filter (bodies.take done.report.processed)).length
  overrun : done.report.overrun = true ↔
    bodies.length < h.frameCount ∧ (p.cap = 0 ∨ bodies.length < p.cap - p.processed)
  capReached : done.report.capReached = true ↔
    p.cap ≠ 0 ∧ p.processed + done.report.processed = p.cap
  events : done.events =
    delivered h.session h.sequence p.table p.filter (bodies.take done.report.processed) ++
      if done.report.overrun then
        [.frameOverrun h.session (h.sequence + UInt64.ofNat bodies.length)
          (h.frameCount - bodies.length)]
      else []

theorem goingAccounted {p : Pipeline} (held : p.Held) {h : Header}
    (going : h.isEndOfSession = false) (packet : Bytes) :
    Accounted p h (frames packet h).bodies (p.process h packet) := by
  have told (n : Nat) : p.messages h 0 ((frames packet h).bodies.take n) =
      delivered h.session h.sequence p.table p.filter ((frames packet h).bodies.take n) :=
    p.messagesIndexed h 0 _
  have worked : p.process h packet = p.consume h 0 0 (frames packet h) := by
    simp [Pipeline.process, going]
  have below (limited : p.cap ≠ 0) :
      p.processed + p.allowance (frames packet h).bodies.length ≤ p.cap :=
    Pipeline.allowanceBelow limited (held.within limited) _
  have few := p.allowanceLe (frames packet h).bodies.length
  have small := held.cap
  rw [worked, Pipeline.consumed, told, Pipeline.cutEventsFramed]
  simp only [Nat.zero_add]
  refine ⟨rfl, p.counterCounted _, ?_, ?_, rfl, rfl, p.cutShortIff packet h, ?_, rfl⟩
  · intro fits
    refine Pipeline.counterExact ?_
    rcases fits with limited | fits
    · exact Nat.le_trans (below limited) small
    · exact Nat.le_trans (Nat.add_le_add_left few _) fits
  · intro limited
    rw [Pipeline.counterExact (Nat.le_trans (below limited) small)]
    exact below limited
  · rw [Pipeline.cappedIff]
    constructor
    · rintro ⟨limited, reached⟩
      exact ⟨limited, Nat.le_antisymm (below limited) reached⟩
    · rintro ⟨limited, full⟩
      exact ⟨limited, Nat.le_of_eq full.symm⟩

theorem packetAccounted (table : Table) (filter : Option TypeFilter) {cap processed : UInt64}
    (within : cap ≠ 0 → processed ≤ cap) (h : Header) (packet : Bytes) :
    let p : Pipeline := ⟨table, filter, cap.toNat, processed.toNat⟩
    p.counter = processed ∧
    (h.isEndOfSession = true → p.process h packet =
      ⟨p, ⟨0, 0, false, p.capReached⟩, [.endOfSession h.session h.sequence]⟩) ∧
    (h.isEndOfSession = false →
      ∃ bodies, Framed packet h bodies ∧ Accounted p h bodies (p.process h packet)) := by
  intro p
  have held : p.Held := Pipeline.wordsHeld table filter within
  refine ⟨UInt64.ofNat_toNat, ?_, ?_⟩
  · intro ended
    simp [Pipeline.process, ended]
  · intro going
    exact ⟨_, framesFramed packet h, goingAccounted held going packet⟩

/- Two of four announced frames are there, and the cap leaves room for one more than these; the filter
keeps the second, whose number has wrapped around. Without a cap the count itself wraps around. -/
theorem packetAccountedWrapped :
    let h : Header := ⟨⟨List.replicate 10 0x41, rfl⟩, 0xFFFFFFFFFFFFFFFF, 4⟩
    let packet := h.write ++ [0, 1, 0x41, 0, 2, 0x42, 7, 0, 9]
    let p : Pipeline := ⟨.empty, some ⟨[0x42]⟩, (5 : UInt64).toNat, (2 : UInt64).toNat⟩
    let last : Pipeline :=
      { p with cap := (0 : UInt64).toNat, processed := (0xFFFFFFFFFFFFFFFF : UInt64).toNat }
    h.isEndOfSession = false ∧
      (p.process h packet).events =
        [.message h.session 0 ⟨[0x42, 7], none⟩, .frameOverrun h.session 1 2] ∧
      (∃ bodies, Framed packet h bodies ∧ Accounted p h bodies (p.process h packet)) ∧
      (last.process h packet).pipeline.counter = 1 ∧
      ∃ bodies, Framed packet h bodies ∧ Accounted last h bodies (last.process h packet) :=
  ⟨by decide, by decide, (packetAccounted _ _ (by decide) _ _).2.2 (by decide), by decide,
    (packetAccounted _ _ (by decide) _ _).2.2 (by decide)⟩

end MarketFeed
