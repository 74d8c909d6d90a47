import MarketFeed.Proofs.Packet.Accounted

/-! A packet that arrives cut short. The frames that the cut bytes still hold are the first of those that
the whole packet holds, so that no message is told that the whole packet would not tell. What the cut
takes away from the messages that count is announced, unless the header says that the session ended. -/
namespace MarketFeed

theorem framesKept {cut packet : Bytes} (front : cut <+: packet) (h : Header) :
    (frames cut h).bodies <+: (frames packet h).bodies := by
  obtain ⟨lost, rfl⟩ := front
  have kept := framesFramed cut h
  have behind : cut.drop headerSize <+: (cut ++ lost).drop headerSize := by
    rw [List.drop_append]
    exact List.prefix_append _ _
  exact (framesFramed (cut ++ lost) h).longest _ kept.few kept.fit (kept.written.trans behind)

namespace Pipeline

theorem allowanceMono (p : Pipeline) {few many : Nat} (le : few ≤ many) :
    p.allowance few ≤ p.allowance many := by
  unfold allowance
  split <;> omega

theorem allowanceMore {p : Pipeline} {few many : Nat} (more : p.allowance few < p.allowance many) :
    few < many ∧ p.allowance few = few ∧ (p.cap = 0 ∨ few < p.cap - p.processed) := by
  unfold allowance at more ⊢
  split at more <;> rename_i limit
  · exact ⟨more, if_pos limit, .inl limit⟩
  · rw [if_neg limit]
    omega

theorem messagesFront (p : Pipeline) (h : Header) (position : Nat) {a b : List Bytes}
    (front : a <+: b) : p.messages h position a <+: p.messages h position b := by
  obtain ⟨behind, rfl⟩ := front
  rw [messagesAppend]
  exact List.prefix_append _ _

theorem messagesOnly (p : Pipeline) (h : Header) (position : Nat) (bodies : List Bytes) :
    (p.messages h position bodies).filter FeedEvent.isMessage = p.messages h position bodies :=
  List.filter_eq_self.mpr (List.countP_eq_length.mp (p.messagesAll h position bodies))

theorem cutEventsUnheard (p : Pipeline) (h : Header) (position : Nat) (f : Framing) :
    (p.cutEvents h position f).filter FeedEvent.isMessage = [] :=
  List.filter_eq_nil_iff.mpr (List.countP_eq_zero.mp (p.cutSilent h position f))

theorem processMessages (p : Pipeline) {h : Header} (going : h.isEndOfSession = false)
    (packet : Bytes) :
    (p.process h packet).events.filter FeedEvent.isMessage =
      p.messages h 0 ((frames packet h).bodies.take
        (p.allowance (frames packet h).bodies.length)) := by
  rw [processedEvents (k := ⟨h, packet⟩) going, List.filter_append, messagesOnly, cutEventsUnheard,
    List.append_nil]
  rfl

end Pipeline

structure CutShort (h : Header) (whole cut : Processed) : Prop where
  messages : cut.events.filter FeedEvent.isMessage <+: whole.events.filter FeedEvent.isMessage
  processed : cut.report.processed ≤ whole.report.processed
  announced : cut.report.processed < whole.report.processed →
    ∃ sequence : UInt64,
      sequence.toNat = (h.sequence.toNat + cut.report.processed) % UInt64.size ∧
      cut.events = cut.events.filter FeedEvent.isMessage ++
        [.frameOverrun h.session sequence (h.frameCount - cut.report.processed)] ∧
      cut.report.overrun = true ∧ cut.report.capReached = false

theorem cutNeverInvents (p : Pipeline) {h : Header} (going : h.isEndOfSession = false)
    {cut packet : Bytes} (front : cut <+: packet) :
    CutShort h (p.process h packet) (p.process h cut) := by
  have kept := framesKept front h
  have fewer := p.allowanceMono kept.length_le
  obtain ⟨_, counted, _⟩ := p.processedPacket ⟨h, packet⟩
  obtain ⟨_, countedCut, cappedCut⟩ := p.processedPacket ⟨h, cut⟩
  simp only [Pipeline.taken, Packet.bodies, Packet.framing] at counted countedCut cappedCut
  refine ⟨?_, by rwa [counted, countedCut], ?_⟩
  · rw [p.processMessages going, p.processMessages going]
    refine p.messagesFront h 0 (List.prefix_take_iff.mpr ⟨(List.take_prefix _ _).trans kept, ?_⟩)
    exact Nat.le_trans (List.length_take_le _ _) fewer
  · intro lost
    rw [counted, countedCut] at lost
    obtain ⟨missing, all, room⟩ := Pipeline.allowanceMore lost
    have announced : (frames cut h).bodies.length < h.frameCount :=
      Nat.lt_of_lt_of_le missing (framesFramed packet h).few
    have short : p.cutShort (frames cut h) = true := (p.cutShortIff cut h).mpr ⟨announced, room⟩
    refine ⟨h.sequence + UInt64.ofNat (frames cut h).bodies.length, ?_, ?_, ?_, ?_⟩
    · rw [countedCut, all, UInt64.toNat_add, UInt64.toNat_ofNat', Nat.add_mod_mod]
    · rw [p.processMessages going, Pipeline.processedEvents (k := ⟨h, cut⟩) going, countedCut]
      simp only [Pipeline.taken, Packet.bodies, Packet.framing]
      rw [p.cutEventsFramed, if_pos short, all]
    · exact (p.processedOverrun ⟨h, cut⟩).trans short
    · rw [cappedCut]
      exact (p.roomBehindIff _).mpr room

/- Three frames are announced, and the cut leaves one of them and half of the next. The cap has room for
two, and the filter keeps the first. -/
theorem cutNeverInventsInside :
    let h : Header := ⟨⟨List.replicate 10 0x41, rfl⟩, 0xFFFFFFFFFFFFFFFF, 3⟩
    let packet := h.write ++ [0, 1, 0x41, 0, 2, 0x42, 7, 0, 1, 0x41]
    let cut := packet.take 26
    let p : Pipeline := ⟨.empty, some ⟨[0x41]⟩, 5, 3⟩
    h.isEndOfSession = false ∧ cut <+: packet ∧
      (p.process h cut).report.processed = 1 ∧ (p.process h packet).report.processed = 2 ∧
      (p.process h cut).events =
        [.message h.session 0xFFFFFFFFFFFFFFFF ⟨[0x41], none⟩, .frameOverrun h.session 0 2] ∧
      CutShort h (p.process h packet) (p.process h cut) :=
  ⟨by decide, List.take_prefix _ _, by decide, by decide, by decide,
    cutNeverInvents _ (by decide) (List.take_prefix _ _)⟩

end MarketFeed
