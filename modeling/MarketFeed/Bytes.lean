/-!
Byte strings as numbers and as text. Packets hold big-endian numbers, written in a fixed width that
keeps the low digits and read in any width. As text, bytes are hex digits, characters of Latin-1, or
UTF-8.
-/
namespace MarketFeed

abbrev Bytes := List UInt8

def readBE (raw : Bytes) : Nat := raw.foldl (fun n b => 256 * n + b.toNat) 0

def be : (width value : Nat) → Bytes
  | 0, _ => []
  | width + 1, value => be width (value / 256) ++ [UInt8.ofNat value]

theorem beLength (width value : Nat) : (be width value).length = width := by
  induction width generalizing value with
  | zero => rfl
  | succ width ih => simp [be, ih]

theorem readBeAppend (raw : Bytes) (b : UInt8) :
    readBE (raw ++ [b]) = 256 * readBE raw + b.toNat := by
  simp [readBE, List.foldl_append]

def span : (width : Nat) → Nat
  | 0 => 1
  | width + 1 => 256 * span width

theorem readBeWritten (width value : Nat) : readBE (be width value) = value % span width := by
  induction width generalizing value with
  | zero => simp [be, readBE, span, Nat.mod_one]
  | succ width ih =>
    have digits := Nat.mod_mul (x := value) (a := 256) (b := span width)
    rw [be, readBeAppend, ih, UInt8.toNat_ofNat', span, digits]
    omega

theorem spanPositive (width : Nat) : 0 < span width := by
  induction width with
  | zero => exact Nat.one_pos
  | succ width ih => exact Nat.mul_pos (by decide) ih

theorem beOfRead {width : Nat} {raw : Bytes} (size : raw.length = width) :
    be width (readBE raw) = raw := by
  induction width generalizing raw with
  | zero => exact (List.eq_nil_of_length_eq_zero size).symm
  | succ width ih =>
    rcases List.eq_nil_or_concat raw with rfl | ⟨front, last, rfl⟩
    · contradiction
    · have small := last.toNat_lt
      have higher : (256 * readBE front + last.toNat) / 256 = readBE front := by omega
      have lowest : UInt8.ofNat (256 * readBE front + last.toNat) = last := by
        apply UInt8.toNat_inj.mp
        rw [UInt8.toNat_ofNat']
        omega
      rw [List.concat_eq_append, readBeAppend, be, higher, lowest, ih (by simpa using size)]

theorem readBeBound (raw : Bytes) : readBE raw < span raw.length := by
  have digits := readBeWritten raw.length (readBE raw)
  rw [beOfRead rfl] at digits
  rw [digits]
  exact Nat.mod_lt _ (spanPositive raw.length)

def hexDigit (n : Nat) : Char :=
  if n < 10 then Char.ofNat (48 + n) else Char.ofNat (87 + n)

def upperHexDigit (n : Nat) : Char :=
  if n < 10 then Char.ofNat (48 + n) else Char.ofNat (55 + n)

def hexOfByte (b : UInt8) : List Char := [hexDigit (b.toNat / 16), hexDigit (b.toNat % 16)]

def upperHexOfByte (b : UInt8) : List Char :=
  [upperHexDigit (b.toNat / 16), upperHexDigit (b.toNat % 16)]

def hex (raw : Bytes) : String := String.ofList (raw.flatMap hexOfByte)

def upperHex (raw : Bytes) : String := String.ofList (raw.flatMap upperHexOfByte)

def latin1 (b : UInt8) : Char := Char.ofNat b.toNat

theorem latin1ToNat (b : UInt8) : (latin1 b).toNat = b.toNat := by
  have small := b.toNat_lt
  have valid : b.toNat.isValidChar := .inl (by omega)
  rw [latin1, Char.ofNat, dif_pos valid]
  rfl

theorem latin1Determines {a b : UInt8} (same : latin1 a = latin1 b) : a = b := by
  apply UInt8.toNat_inj.mp
  rw [← latin1ToNat, same, latin1ToNat]

def utf8 (text : String) : Bytes := text.toList.flatMap String.utf8EncodeChar

def readUtf8 (raw : Bytes) : Option String := String.fromUTF8? ⟨raw.toArray⟩

theorem readUtf8Written (text : String) : readUtf8 (utf8 text) = some text := by
  have bytes : (⟨(utf8 text).toArray⟩ : ByteArray) = text.toByteArray := calc
    (⟨(utf8 text).toArray⟩ : ByteArray) = (utf8 text).toByteArray :=
      ByteArray.ext List.data_toByteArray.symm
    _ = (String.ofList text.toList).toByteArray := rfl
    _ = text.toByteArray := by rw [String.ofList_toList]
  rw [readUtf8, bytes, String.fromUTF8?, dif_pos text.isValidUTF8]
  rfl

def addSat (a : UInt64) (n : Nat) : UInt64 := UInt64.ofNat (min (a.toNat + n) 0xFFFFFFFFFFFFFFFF)

theorem addSatToNat (a : UInt64) (n : Nat) :
    (addSat a n).toNat = min (a.toNat + n) 0xFFFFFFFFFFFFFFFF := by
  unfold addSat
  rw [UInt64.toNat_ofNat']
  exact Nat.mod_eq_of_lt (by omega)

end MarketFeed
