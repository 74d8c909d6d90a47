import MarketFeed.Packet.Encoding

/-! Written packets read back. Whatever follows the last frame in the datagram is ignored, so the
statements hold with any bytes behind the packet. -/
namespace MarketFeed

theorem readBelow {width value : Nat} (fits : value < span width) : readBE (be width value) = value := by
  rw [readBeWritten, Nat.mod_eq_of_lt fits]

theorem Header.readWritten (h : Header) (rest : Bytes) : Header.read (h.write ++ rest) = .ok h := by
  obtain ⟨⟨bytes, size⟩, sequence, count⟩ := h
  have a := sequence.toNat_lt
  have b := count.toNat_lt
  have enough : headerSize ≤ (bytes ++ be 8 sequence.toNat ++ be 2 count.toNat ++ rest).length := by
    simp [headerSize, size, beLength]; omega
  have head : (bytes ++ be 8 sequence.toNat ++ be 2 count.toNat ++ rest).take 10 = bytes := by
    simp [size]
  have middle : ((bytes ++ be 8 sequence.toNat ++ be 2 count.toNat ++ rest).drop 10).take 8 =
      be 8 sequence.toNat := by
    simp [size, beLength]
  have last : ((bytes ++ be 8 sequence.toNat ++ be 2 count.toNat ++ rest).drop 18).take 2 =
      be 2 count.toNat := by
    rw [List.append_assoc, List.drop_left' (by simp [size, beLength]),
      List.take_left' (beLength 2 count.toNat)]
  simp only [read, write, dif_pos enough, head, middle, last]
  rw [readBelow (by simp [span]; omega), readBelow (by simp [span]; omega)]
  simp

theorem Header.writeLength (h : Header) : h.write.length = headerSize := by
  simp [write, h.session.size, beLength, headerSize]

theorem readFrameWritten {body : Bytes} (fits : body.length ≤ 0xFFFF) (offset : Nat) (rest : Bytes) :
    readFrame offset (writeFrame body ++ rest) = .ok (body, rest) := by
  have shape : be 2 body.length =
      [UInt8.ofNat (body.length / 256), UInt8.ofNat body.length] := rfl
  have declared : readBE (be 2 body.length) = body.length := readBelow (by simp [span]; omega)
  rw [shape] at declared
  simp [writeFrame, shape, readFrame, declared, List.splitAt_eq]

namespace Framing

def ofBodies : List Bytes → Framing
  | [] => complete
  | body :: rest => frame body (ofBodies rest)

theorem ofBodiesBodies (bodies : List Bytes) : (ofBodies bodies).bodies = bodies := by
  induction bodies with
  | nil => rfl
  | cons body rest ih => simp [ofBodies, Framing.bodies, ih]

theorem ofBodiesFault (bodies : List Bytes) : (ofBodies bodies).fault = none := by
  induction bodies with
  | nil => rfl
  | cons body rest ih => simp [ofBodies, Framing.fault, ih]

theorem splitWritten {bodies : List Bytes} (fit : ∀ body ∈ bodies, body.length ≤ 0xFFFF)
    (offset : Nat) (rest : Bytes) :
    split bodies.length offset (bodies.flatMap writeFrame ++ rest) = ofBodies bodies := by
  induction bodies generalizing offset with
  | nil => rfl
  | cons body tail ih =>
    have first := readFrameWritten (fit body (by simp)) offset (tail.flatMap writeFrame ++ rest)
    simp only [List.flatMap_cons, List.length_cons, List.append_assoc, split, first, ofBodies]
    rw [ih fun other member => fit other (by simp [member])]

theorem splitCounts (count offset : Nat) (rest : Bytes) :
    (split count offset rest).bodies.length + (split count offset rest).lost = count := by
  induction count generalizing offset rest with
  | zero => simp [split, bodies, lost]
  | succ count ih =>
    unfold split
    cases readFrame offset rest with
    | ok got =>
      have later := ih (offset + lengthSize + got.1.length) got.2
      simp only [bodies, lost, List.length_cons]
      omega
    | error fault => simp [bodies, lost]

theorem splitWhole (count offset : Nat) (rest : Bytes)
    (unbroken : (split count offset rest).fault = none) : (split count offset rest).lost = 0 := by
  induction count generalizing offset rest with
  | zero => rfl
  | succ count ih =>
    unfold split at unbroken ⊢
    cases found : readFrame offset rest with
    | ok got => simp only [found, fault, lost] at unbroken ⊢; exact ih _ _ unbroken
    | error cut => simp [found, fault] at unbroken

end Framing

theorem writeFramesExact (bodies : List Bytes) :
    writeFrames bodies =
      match (bodies.map List.length).find? (0xFFFF < ·) with
      | some tooLong => .error (.messageTooLong tooLong)
      | none => .ok (bodies.flatMap writeFrame) := by
  induction bodies with
  | nil => rfl
  | cons body rest ih =>
    by_cases long : 0xFFFF < body.length
    · simp [writeFrames, long]
    · rw [writeFrames, if_neg long, ih, List.map_cons, List.find?_cons_of_neg (by simpa using long)]
      cases (rest.map List.length).find? (0xFFFF < ·) <;> rfl

theorem writeFramesFit {bodies : List Bytes} (fit : ∀ body ∈ bodies, body.length ≤ 0xFFFF) :
    writeFrames bodies = .ok (bodies.flatMap writeFrame) := by
  have none : (bodies.map List.length).find? (0xFFFF < ·) = none := by
    rw [List.find?_eq_none]
    simpa using fit
  rw [writeFramesExact, none]

theorem encodePacketFit {bodies : List Bytes} (few : bodies.length ≤ maxMessages)
    (fit : ∀ body ∈ bodies, body.length ≤ 0xFFFF) (session : Session) (sequence : UInt64) :
    encodePacket session sequence bodies =
      .ok (Header.write ⟨session, sequence, UInt16.ofNat bodies.length⟩ ++
        bodies.flatMap writeFrame) := by
  rw [encodePacket, if_neg (by omega), writeFramesFit fit]
  rfl

theorem writtenCount {n : Nat} (few : n ≤ maxMessages) (session : Session) (sequence : UInt64) :
    Header.isEndOfSession ⟨session, sequence, UInt16.ofNat n⟩ = false ∧
      Header.frameCount ⟨session, sequence, UInt16.ofNat n⟩ = n := by
  have small : (UInt16.ofNat n).toNat = n := by
    rw [UInt16.toNat_ofNat']
    exact Nat.mod_eq_of_lt (by simp [maxMessages] at few; omega)
  have announced : Header.isEndOfSession ⟨session, sequence, UInt16.ofNat n⟩ = false := by
    rw [Header.isEndOfSession, beq_eq_false_iff_ne]
    intro same
    have marked := congrArg UInt16.toNat same
    simp only [small, endOfSessionCount, maxMessages] at marked few
    simp at marked
    omega
  exact ⟨announced, by simp [Header.frameCount, announced, small]⟩

theorem framesWritten {bodies : List Bytes} (few : bodies.length ≤ maxMessages)
    (fit : ∀ body ∈ bodies, body.length ≤ 0xFFFF) (session : Session) (sequence : UInt64)
    (rest : Bytes) :
    frames (Header.write ⟨session, sequence, UInt16.ofNat bodies.length⟩ ++
      bodies.flatMap writeFrame ++ rest) ⟨session, sequence, UInt16.ofNat bodies.length⟩ =
      Framing.ofBodies bodies := by
  rw [frames, (writtenCount few session sequence).2, List.append_assoc,
    List.drop_left' (Header.writeLength _), Framing.splitWritten fit]

theorem framesCount (packet : Bytes) (h : Header) :
    (frames packet h).bodies.length + (frames packet h).lost = h.frameCount :=
  Framing.splitCounts _ _ _

end MarketFeed
