import MarketFeed.Console
import MarketFeed.Proofs.Session

/-! Texts without a line break, and texts of one line. The numbers, session tokens and hex digits that are
shown have no line break in them, whatever bytes they come from. -/
namespace MarketFeed.Text

def Unbroken (text : String) : Prop := '\n' ∉ text.toList

instance (text : String) : Decidable (Unbroken text) := by unfold Unbroken; infer_instance

def OneLine (text : String) : Prop := ∃ front, Unbroken front ∧ text = front ++ "\n"

@[simp] theorem unbrokenAppend {a b : String} : Unbroken (a ++ b) ↔ Unbroken a ∧ Unbroken b := by
  simp [Unbroken]

@[simp] theorem unbrokenString {text : String} : Unbroken (toString text) ↔ Unbroken text := Iff.rfl

@[simp] theorem unbrokenChar {c : Char} : Unbroken (toString c) ↔ c ≠ '\n' := by
  show '\n' ∉ (String.singleton c).toList ↔ _
  simp [eq_comm]

theorem oneLineBehind {front last : String} (unbroken : Unbroken front) (line : OneLine last) :
    OneLine (front ++ last) := by
  obtain ⟨middle, inside, rfl⟩ := line
  exact ⟨front ++ middle, unbrokenAppend.mpr ⟨unbroken, inside⟩, (String.append_assoc ..).symm⟩

theorem lineBreak : OneLine "\n" := ⟨"", by decide, by decide⟩

theorem oneLineCount {text : String} (line : OneLine text) : text.toList.count '\n' = 1 := by
  obtain ⟨front, unbroken, rfl⟩ := line
  rw [String.toList_append, List.count_append, List.count_eq_zero.mpr unbroken]
  rfl

theorem digitUnbroken {c : Char} (digit : c.isDigit = true) : c ≠ '\n' := by
  rintro rfl
  contradiction

@[simp] theorem unbrokenNat (n : Nat) : Unbroken n.repr := by
  intro broken
  rw [Nat.repr_eq_ofList_toDigits, String.toList_ofList] at broken
  exact digitUnbroken (Nat.isDigit_of_mem_toDigits (by decide) (by decide) broken) rfl

@[simp] theorem unbrokenUInt64 (n : UInt64) : Unbroken (toString n) := unbrokenNat n.toNat

@[simp] theorem unbrokenUInt16 (n : UInt16) : Unbroken (toString n) := unbrokenNat n.toNat

@[simp] theorem unbrokenInt (n : Int) : Unbroken (toString n) := by
  cases n with
  | ofNat n => exact unbrokenNat n
  | negSucc n => exact unbrokenAppend.mpr ⟨by decide, unbrokenNat (n + 1)⟩

theorem unbrokenHexDigits : ∀ n < 16, upperHexDigit n ≠ '\n' := by decide

theorem hexUnbroken (b : UInt8) : '\n' ∉ upperHexOfByte b := by
  have small := b.toNat_lt
  have high := unbrokenHexDigits (b.toNat / 16) (by omega)
  have low := unbrokenHexDigits (b.toNat % 16) (by omega)
  simp [upperHexOfByte, high.symm, low.symm]

@[simp] theorem unbrokenHexOfByte (b : UInt8) : Unbroken (String.ofList (upperHexOfByte b)) := by
  rw [Unbroken, String.toList_ofList]
  exact hexUnbroken b

@[simp] theorem unbrokenHex (raw : Bytes) : Unbroken (upperHex raw) := by
  rw [Unbroken, upperHex, String.toList_ofList, List.mem_flatMap]
  rintro ⟨b, _, broken⟩
  exact hexUnbroken b broken

theorem latin1Unbroken {b : UInt8} (other : b ≠ 0x0A) : latin1 b ≠ '\n' :=
  fun same => other (latin1Determines (b := 0x0A) same)

theorem shownByteUnbroken (b : UInt8) : '\n' ∉ Session.shownByte b := by
  intro broken
  have visible := (Session.shownByteVisible b '\n' broken).1
  contradiction

@[simp] theorem unbrokenSession (s : Session) : Unbroken (toString s) := by
  show '\n' ∉ (String.ofList s.shown).toList
  rw [String.toList_ofList, Session.shown, List.mem_flatMap]
  rintro ⟨b, _, broken⟩
  exact shownByteUnbroken b broken

end MarketFeed.Text
