import MarketFeed.Proofs.Packet.Grammar

/-! Reading undoes writing. Messages are refused for their number before any of them is looked at,
else for the first that is too long; what is not refused reads back from the packet, whatever
follows it in the datagram. -/
namespace MarketFeed

variable (session : Session) (sequence : UInt64) (messages : List Bytes)

theorem tooManyIff (n : Nat) :
    encodePacket session sequence messages = .error (.tooManyMessages n) ↔
      maxMessages < messages.length ∧ n = messages.length := by
  unfold encodePacket
  split
  · rename_i many
    simp [many, eq_comm]
  · rename_i few
    rw [writeFramesExact]
    split <;> simp [Except.map, few]

theorem tooLongIff (n : Nat) :
    encodePacket session sequence messages = .error (.messageTooLong n) ↔
      messages.length ≤ maxMessages ∧
        (messages.map List.length).find? (0xFFFF < ·) = some n := by
  unfold encodePacket
  split
  · rename_i many
    have notFew : ¬ messages.length ≤ maxMessages := Nat.not_le_of_lt many
    simp [notFew]
  · rename_i few
    rw [writeFramesExact]
    split <;> rename_i found <;> simp [Except.map, Nat.le_of_not_lt few, found]

structure ReadsAs (datagram : Bytes) (h : Header) : Prop where
  header : Header.read datagram = .ok h
  session : h.session = session
  sequence : h.sequence = sequence
  count : h.count.toNat = messages.length
  going : h.isEndOfSession = false
  answers : ∀ more, (frames datagram h).answers (messages.length + more) =
    messages.map some ++ List.replicate more none
  unbroken : ∀ more, ((frames datagram h).after (messages.length + more)).fault = none
  remaining : ∀ more, ((frames datagram h).after (messages.length + more)).lost = 0

variable {messages}

theorem writtenReads (few : messages.length ≤ maxMessages)
    (fit : ∀ m ∈ messages, m.length ≤ 0xFFFF) (trailing : Bytes) :
    ReadsAs session sequence messages
      (Header.write ⟨session, sequence, UInt16.ofNat messages.length⟩ ++
        messages.flatMap writeFrame ++ trailing)
      ⟨session, sequence, UInt16.ofNat messages.length⟩ := by
  have split := framesWritten few fit session sequence trailing
  obtain ⟨going, frameCount⟩ := writtenCount few session sequence
  have count : (UInt16.ofNat messages.length).toNat = messages.length := by
    simpa [Header.frameCount, going] using frameCount
  have answered := Framing.answersBodies (.ofBodies messages)
  have behind := Framing.afterBodies (.ofBodies messages)
  have nothingLost : (Framing.ofBodies messages).lost = 0 := by
    have counts := framesCount (Header.write ⟨session, sequence, UInt16.ofNat messages.length⟩ ++
      messages.flatMap writeFrame ++ trailing) ⟨session, sequence, UInt16.ofNat messages.length⟩
    rw [split, Framing.ofBodiesBodies, frameCount] at counts
    omega
  rw [Framing.ofBodiesBodies] at answered behind
  refine ⟨?_, rfl, rfl, count, going, ?_, ?_, ?_⟩
  · rw [List.append_assoc, Header.readWritten]
  · rw [split]
    exact answered
  · rw [split, ← Framing.ofBodiesFault messages]
    exact fun more => (behind more).1
  · rw [split, ← nothingLost]
    exact fun more => (behind more).2

variable (messages)

theorem encodingExact :
    (∀ n, encodePacket session sequence messages = .error (.tooManyMessages n) ↔
      65534 < messages.length ∧ n = messages.length) ∧
    (∀ n, encodePacket session sequence messages = .error (.messageTooLong n) ↔
      messages.length ≤ 65534 ∧ (messages.map List.length).find? (65535 < ·) = some n) ∧
    (messages.length ≤ 65534 → (∀ m ∈ messages, m.length ≤ 65535) →
      ∃ packet, encodePacket session sequence messages = .ok packet ∧
        ∀ trailing, ∃ h, ReadsAs session sequence messages (packet ++ trailing) h) := by
  refine ⟨tooManyIff session sequence messages, tooLongIff session sequence messages, ?_⟩
  intro few fit
  exact ⟨_, encodePacketFit few fit session sequence, fun trailing =>
    ⟨_, writtenReads session sequence few fit trailing⟩⟩

/- The last body is empty, so nothing of it shows between its length and the bytes that follow. -/
theorem encodingExactEmptyLast :
    let session : Session := ⟨List.replicate 10 0x41, rfl⟩
    ∃ packet, encodePacket session 7 [[0x42, 1], []] = .ok packet ∧
      ∀ trailing, ∃ h, ReadsAs session 7 [[0x42, 1], []] (packet ++ trailing) h :=
  (encodingExact _ 7 [[0x42, 1], []]).2.2 (by decide) (by decide)

end MarketFeed
