import MarketFeed.Session

/-! What the shown text of a session tells. A backslash may stand for itself or open an escape, so that two
sessions can show the same text. Their lengths decide it where one of the two holds no backslash byte: as
many bytes are escaped in both, hence as many backslashes stand for themselves, and these are none. -/
namespace MarketFeed

theorem upperHexDetermines : ∀ m < 16, ∀ n < 16, upperHexDigit m = upperHexDigit n → m = n := by decide

theorem upperHexPlain : ∀ n < 16, upperHexDigit n ≠ '\\' := by decide

theorem upperHexVisible :
    ∀ n < 16, 0x20 ≤ (upperHexDigit n).toNat ∧ (upperHexDigit n).toNat ≤ 0x7E := by decide

theorem upperHexOfByteDetermines {a b : UInt8} (same : upperHexOfByte a = upperHexOfByte b) : a = b := by
  have left := a.toNat_lt
  have right := b.toNat_lt
  obtain ⟨high, low⟩ : upperHexDigit (a.toNat / 16) = upperHexDigit (b.toNat / 16) ∧
      upperHexDigit (a.toNat % 16) = upperHexDigit (b.toNat % 16) := by
    simpa [upperHexOfByte] using same
  have quotient := upperHexDetermines _ (by omega) _ (by omega) high
  have remainder := upperHexDetermines _ (by omega) _ (by omega) low
  exact UInt8.toNat_inj.mp (by omega)

namespace Session

def escapes (raw : Bytes) : Nat := raw.countP (!printable ·)

theorem printableIff (b : UInt8) : printable b = true ↔ 0x20 ≤ b.toNat ∧ b.toNat ≤ 0x7E := by
  simp [printable, UInt8.le_iff_toNat_le]

theorem backslashIff (b : UInt8) : latin1 b = '\\' ↔ b = 0x5C :=
  ⟨fun same => latin1Determines (b := 0x5C) same, fun same => by rw [same]; rfl⟩

theorem shownVerbatim {b : UInt8} (visible : printable b = true) : shownByte b = [latin1 b] :=
  if_pos visible

theorem shownEscaped {b : UInt8} (hidden : printable b = false) :
    shownByte b = '\\' :: 'x' :: upperHexOfByte b := by
  simp [shownByte, hidden]

theorem shownByteVisible (b : UInt8) :
    ∀ c ∈ shownByte b, 0x20 ≤ c.toNat ∧ c.toNat ≤ 0x7E := by
  have small := b.toNat_lt
  intro c member
  cases visible : printable b with
  | true =>
    rw [shownVerbatim visible, List.mem_singleton] at member
    rw [member, latin1ToNat]
    exact (printableIff b).mp visible
  | false =>
    simp only [shownEscaped visible, upperHexOfByte, List.mem_cons, List.not_mem_nil, or_false] at member
    rcases member with rfl | rfl | rfl | rfl
    · decide
    · decide
    · exact upperHexVisible _ (by omega)
    · exact upperHexVisible _ (by omega)

theorem escapesNext (b : UInt8) (rest : Bytes) :
    escapes (b :: rest) = (if printable b then 0 else 1) + escapes rest := by
  cases visible : printable b <;> simp [escapes, visible, Nat.add_comm]

theorem shownLength (raw : Bytes) :
    (raw.flatMap shownByte).length = raw.length + 3 * escapes raw := by
  induction raw with
  | nil => rfl
  | cons b rest ih =>
    have first : (shownByte b).length = 1 + 3 * if printable b then 0 else 1 := by
      cases visible : printable b with
      | true => simp [shownVerbatim visible]
      | false => simp [shownEscaped visible, upperHexOfByte]
    rw [List.flatMap_cons, List.length_append, first, ih, escapesNext, List.length_cons]
    omega

theorem shownBackslashes (raw : Bytes) :
    (raw.flatMap shownByte).count '\\' = raw.count 0x5C + escapes raw := by
  induction raw with
  | nil => rfl
  | cons b rest ih =>
    have first : (shownByte b).count '\\' =
        (if b = 0x5C then 1 else 0) + if printable b then 0 else 1 := by
      cases visible : printable b with
      | true => simp [shownVerbatim visible, List.count_singleton, backslashIff]
      | false =>
        have small := b.toNat_lt
        have high := upperHexPlain (b.toNat / 16) (by omega)
        have low := upperHexPlain (b.toNat % 16) (by omega)
        have other : b ≠ 0x5C := by
          rintro rfl
          contradiction
        simp [shownEscaped visible, upperHexOfByte, high, low, other]
    rw [List.flatMap_cons, List.count_append, first, ih, escapesNext, List.count_cons]
    simp only [beq_iff_eq]
    omega

/- Where no backslash stands for itself, the first character tells how far the first byte goes. -/
theorem shownByteFront {a b : UInt8} (left : a ≠ 0x5C) (right : b ≠ 0x5C) {x y : List Char}
    (same : shownByte a ++ x = shownByte b ++ y) : a = b ∧ x = y := by
  cases first : printable a with
  | true =>
    cases second : printable b with
    | true =>
      rw [shownVerbatim first, shownVerbatim second] at same
      obtain ⟨head, behind⟩ := List.cons.inj same
      exact ⟨latin1Determines head, behind⟩
    | false =>
      rw [shownVerbatim first, shownEscaped second] at same
      exact absurd ((backslashIff a).mp (List.cons.inj same).1) left
  | false =>
    cases second : printable b with
    | true =>
      rw [shownEscaped first, shownVerbatim second] at same
      exact absurd ((backslashIff b).mp (List.cons.inj same).1.symm) right
    | false =>
      rw [shownEscaped first, shownEscaped second] at same
      obtain ⟨digits, behind⟩ := List.append_inj (List.cons.inj (List.cons.inj same).2).2 rfl
      exact ⟨upperHexOfByteDetermines digits, behind⟩

theorem shownByteNonempty (b : UInt8) : shownByte b ≠ [] := by
  unfold shownByte
  split <;> exact List.cons_ne_nil _ _

theorem plainDetermined {a b : Bytes} (left : 0x5C ∉ a) (right : 0x5C ∉ b)
    (same : a.flatMap shownByte = b.flatMap shownByte) : a = b := by
  induction a generalizing b with
  | nil =>
    cases b with
    | nil => rfl
    | cons second rest => simp [shownByteNonempty] at same
  | cons first rest ih =>
    cases b with
    | nil => simp [shownByteNonempty] at same
    | cons second others =>
      obtain ⟨other, plain⟩ := List.ne_and_not_mem_of_not_mem_cons left
      obtain ⟨distinct, plainToo⟩ := List.ne_and_not_mem_of_not_mem_cons right
      obtain ⟨rfl, behind⟩ := shownByteFront other.symm distinct.symm same
      rw [ih plain plainToo behind]

theorem plainBoth {a b : Bytes} (size : a.length = b.length) (plain : 0x5C ∉ a)
    (same : a.flatMap shownByte = b.flatMap shownByte) : 0x5C ∉ b := by
  have lengths := congrArg List.length same
  have backslashes := congrArg (List.count '\\') same
  rw [shownLength, shownLength] at lengths
  rw [shownBackslashes, shownBackslashes, List.count_eq_zero.mpr plain] at backslashes
  exact List.count_eq_zero.mp (by omega)

theorem shownDetermines {s t : Session} (plain : 0x5C ∉ s.bytes) (same : toString s = toString t) :
    s = t := by
  have text : s.bytes.flatMap shownByte = t.bytes.flatMap shownByte := String.ofList_injective same
  have size : s.bytes.length = t.bytes.length := s.size.trans t.size.symm
  have bytes := plainDetermined plain (plainBoth size plain text) text
  cases s
  cases t
  simpa using bytes

theorem escapesOutside (raw : Bytes) :
    escapes raw = raw.countP fun b => b < 0x20 ∨ 0x7E < b := by
  unfold escapes
  congr 1
  funext b
  simp only [printable, Bool.not_and, Bool.decide_or]
  congr 1 <;> simp [← decide_not]

theorem textIdentifies :
    (∀ s t : Session, 0x5C ∉ s.bytes ∨ 0x5C ∉ t.bytes → (toString s = toString t ↔ s = t)) ∧
    ∀ s : Session, (∀ c ∈ (toString s).toList, 0x20 ≤ c.toNat ∧ c.toNat ≤ 0x7E) ∧
      (toString s).length = 10 + 3 * s.bytes.countP fun b => b < 0x20 ∨ 0x7E < b := by
  refine ⟨fun s t plain => ⟨fun same => ?_, congrArg _⟩, fun s => ⟨?_, ?_⟩⟩
  · rcases plain with left | right
    · exact shownDetermines left same
    · exact (shownDetermines right same.symm).symm
  · intro c member
    obtain ⟨b, _, among⟩ := List.mem_flatMap.mp ((String.toList_ofList (l := s.shown)) ▸ member)
    exact shownByteVisible b c among
  · have length : (toString s).length = s.shown.length := String.length_ofList
    rw [length, shown, shownLength, s.size, escapesOutside]

/- A byte of zero and its escape written out, at the front of two sessions: the text of the first is longer. -/
theorem textIdentifiesWrittenEscape :
    let zero : Session := ⟨0x00 :: List.replicate 9 0x41, rfl⟩
    let written : Session := ⟨[0x5C, 0x78, 0x30, 0x30] ++ List.replicate 6 0x41, rfl⟩
    (0x5C ∉ zero.bytes ∨ 0x5C ∉ written.bytes) ∧ zero ≠ written ∧ toString zero ≠ toString written := by
  intro zero written
  have plain : 0x5C ∉ zero.bytes ∨ 0x5C ∉ written.bytes := .inl (by decide)
  have distinct : zero ≠ written := by decide
  exact ⟨plain, distinct, mt (textIdentifies.1 zero written plain).mp distinct⟩

/- Where both have backslashes, one may escape what the other has written out. -/
example :
    let s : Session := ⟨0x00 :: [0x5C, 0x78, 0x30, 0x30] ++ List.replicate 5 0x41, rfl⟩
    let t : Session := ⟨[0x5C, 0x78, 0x30, 0x30] ++ 0x00 :: List.replicate 5 0x41, rfl⟩
    s ≠ t ∧ toString s = toString t := by
  decide

end Session
end MarketFeed
