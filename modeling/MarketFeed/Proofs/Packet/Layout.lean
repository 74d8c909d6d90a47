import Mathlib.Algebra.Order.Ring.Int
import MarketFeed.Packet.Rerequest
import MarketFeed.Proofs.Packet.Grammar

/-! The twenty bytes that a header and a rerequest share. Reading undoes writing and writing undoes
reading, so a header has one spelling, and so has a rerequest; a header may stand before other bytes,
a rerequest stands alone. -/
namespace MarketFeed

theorem beAt {width i : Nat} (value : Nat) (inside : i < width) :
    (be width value)[i]? = some (UInt8.ofNat (value / 256 ^ (width - 1 - i))) := by
  induction width generalizing value with
  | zero => contradiction
  | succ width ih =>
    have size := beLength width (value / 256)
    rw [be]
    rcases Nat.lt_succ_iff_lt_or_eq.mp inside with higher | rfl
    · have place : width + 1 - 1 - i = width - 1 - i + 1 := by omega
      rw [List.getElem?_append_left (by omega), ih _ higher, Nat.div_div_eq_div_mul, place,
        Nat.pow_succ, Nat.mul_comm]
    · simp [size]

structure Laid (raw : Bytes) (session : Session) (sequence : UInt64) (count : UInt16) : Prop where
  size : raw.length = 20
  session : raw.take 10 = session.bytes
  sequence : ∀ i < 8, raw[10 + i]? = some (UInt8.ofNat (sequence.toNat / 256 ^ (7 - i)))
  count : ∀ i < 2, raw[18 + i]? = some (UInt8.ofNat (count.toNat / 256 ^ (1 - i)))

structure ReadsBack (raw : Bytes) : Prop where
  short : ∀ e, Header.read raw = .error e ↔ raw.length < 20 ∧ e = ⟨raw.length⟩
  header : 20 ≤ raw.length → ∃ h, Header.read raw = .ok h ∧ h.write = raw.take 20 ∧
    ∀ behind, Header.read (raw.take 20 ++ behind) = .ok h
  unsuited : ∀ e, Rerequest.read raw = .error e ↔ raw.length ≠ 20 ∧ e = ⟨raw.length⟩
  rerequest : raw.length = 20 → ∃ r, Rerequest.read raw = .ok r ∧ r.write = raw

structure WritesBack (session : Session) (sequence : UInt64) (count : UInt16) : Prop where
  laid : Laid (Header.write ⟨session, sequence, count⟩) session sequence count
  same : Rerequest.write ⟨session, sequence, count⟩ = Header.write ⟨session, sequence, count⟩
  header : Header.read (Header.write ⟨session, sequence, count⟩) = .ok ⟨session, sequence, count⟩
  rerequest : Rerequest.read (Rerequest.write ⟨session, sequence, count⟩) =
    .ok ⟨session, sequence, count⟩
  asHeader : Header.read (Rerequest.write ⟨session, sequence, count⟩) =
    .ok ⟨session, sequence, count⟩

theorem Header.readAlone (h : Header) : read h.write = .ok h := by
  simpa using h.readWritten []

theorem Header.writeLaid (h : Header) : Laid h.write h.session h.sequence h.count := by
  have token := h.session.size
  have wide := beLength 8 h.sequence.toNat
  refine ⟨writeLength h, by simp [write, token], ?_, ?_⟩
  · intro i inside
    have place : 10 + i - h.session.bytes.length = i := by omega
    rw [write, List.append_assoc, List.getElem?_append_right (by omega), place,
      List.getElem?_append_left (by omega), beAt _ inside]
  · intro i inside
    have front : (h.session.bytes ++ be 8 h.sequence.toNat).length = 18 := by
      rw [List.length_append, token, wide]
    have place : 18 + i - (h.session.bytes ++ be 8 h.sequence.toNat).length = i := by omega
    rw [write, List.getElem?_append_right (by omega), place, beAt _ inside]

namespace Rerequest

theorem writeAsHeader (r : Rerequest) : r.write = Header.write ⟨r.session, r.start, r.count⟩ := rfl

theorem readAsHeader {raw : Bytes} (size : raw.length = headerSize) :
    ∃ r, read raw = .ok r ∧ Header.read raw = .ok ⟨r.session, r.start, r.count⟩ :=
  ⟨_, dif_pos size, dif_pos (Nat.le_of_eq size.symm)⟩

end Rerequest

theorem bytesReadBack (raw : Bytes) : ReadsBack raw := by
  refine ⟨?_, ?_, ?_, ?_⟩
  · intro e
    by_cases short : raw.length < 20
    · simp [Header.read, headerSize, Nat.not_le_of_lt short, short, eq_comm]
    · simp [Header.read, headerSize, Nat.le_of_not_lt short, short]
  · intro enough
    have read : Header.read raw = .ok _ := dif_pos enough
    have written := Header.writtenRead read
    refine ⟨_, read, written, fun behind => ?_⟩
    rw [← headerSize, ← written, Header.readWritten]
  · intro e
    by_cases size : raw.length = 20
    · simp [Rerequest.read, headerSize, size]
    · simp [Rerequest.read, headerSize, size, eq_comm]
  · intro size
    obtain ⟨r, read, asHeader⟩ := Rerequest.readAsHeader size
    refine ⟨r, read, ?_⟩
    rw [r.writeAsHeader, Header.writtenRead asHeader]
    exact List.take_of_length_le (Nat.le_of_eq size)

theorem valuesWriteBack (session : Session) (sequence : UInt64) (count : UInt16) :
    WritesBack session sequence count :=
  ⟨Header.writeLaid ⟨session, sequence, count⟩, rfl, Header.readAlone _, Rerequest.readWritten _,
    Header.readAlone ⟨session, sequence, count⟩⟩

theorem layoutsCoincide (raw : Bytes) (session : Session) (sequence : UInt64) (count : UInt16) :
    ReadsBack raw ∧ WritesBack session sequence count ∧
      ∃ h, Header.read (encodeEndOfSession session sequence) = .ok h ∧ h.session = session ∧
        h.isEndOfSession = true ∧ h.frameCount = 0 ∧ h.nextSequence = sequence := by
  refine ⟨bytesReadBack raw, valuesWriteBack session sequence count, _, Header.readAlone _, rfl, rfl,
    rfl, ?_⟩
  have none : Header.frameCount ⟨session, sequence, endOfSessionCount⟩ = 0 := rfl
  have small := sequence.toNat_lt
  apply UInt64.toNat_inj.mp
  rw [Header.nextSequence, addSatToNat, none]
  exact Nat.min_eq_left (Nat.le_pred_of_lt small)

/- No two bytes are the same, so each has its place. -/
example :
    Rerequest.write ⟨⟨[1, 2, 3, 4, 5, 6, 7, 8, 9, 10], rfl⟩, 0x1112131415161718, 0x191a⟩ =
      [1, 2, 3, 4, 5, 6, 7, 8, 9, 10, 0x11, 0x12, 0x13, 0x14, 0x15, 0x16, 0x17, 0x18, 0x19, 0x1a] := by
  decide

end MarketFeed
