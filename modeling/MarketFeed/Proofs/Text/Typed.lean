import MarketFeed.Text.Reader

/-! Text as it is typed. What is left of a text that is trimmed is the part between the blanks at its
ends. A text is a number where it has digits behind at most one plus sign and their number keeps to the
limit; else the first character by which this shows decides what is wrong. The digits that a number is
written with are read as that number. -/
namespace MarketFeed.Text

structure Trimmed (text core : List Char) : Prop where
  around : ∃ before after, text = before ++ core ++ after ∧ (∀ c ∈ before, isBlank c = true) ∧
    ∀ c ∈ after, isBlank c = true
  first : ∀ c ∈ core.head?, isBlank c = false
  last : ∀ c ∈ core.getLast?, isBlank c = false

theorem blanksDropped {blanks rest : List Char} (blank : ∀ c ∈ blanks, isBlank c = true)
    (first : ∀ c ∈ rest.head?, isBlank c = false) : (blanks ++ rest).dropWhile isBlank = rest := by
  rw [List.dropWhile_append_of_pos blank]
  cases rest with
  | nil => rfl
  | cons c rest => simp [first c rfl]

theorem droppedFirst (text : List Char) :
    ∀ c ∈ (text.dropWhile isBlank).head?, isBlank c = false := by
  intro c first
  have stopped := List.head?_dropWhile_not isBlank text
  rwa [Option.mem_def.mp first] at stopped

theorem takenBlank {text : List Char} {c : Char} (member : c ∈ text.takeWhile isBlank) :
    isBlank c = true := List.all_eq_true.mp List.all_takeWhile c member

theorem trimTrimmed {text core : List Char} (trimmed : Trimmed text core) : trimChars text = core := by
  obtain ⟨⟨before, after, rfl, blankBefore, blankAfter⟩, first, last⟩ := trimmed
  rw [trimChars, List.append_assoc]
  cases core with
  | nil =>
    have blank : ∀ c ∈ before ++ after, isBlank c = true :=
      List.forall_mem_append.mpr ⟨blankBefore, blankAfter⟩
    have dropped := @blanksDropped _ [] blank (by simp)
    rw [List.append_nil] at dropped
    rw [List.nil_append, dropped]
    rfl
  | cons c rest =>
    have reversed : ∀ d ∈ (c :: rest).reverse.head?, isBlank d = false := by
      rwa [List.head?_reverse]
    rw [blanksDropped blankBefore (by simpa using first c rfl), List.reverse_append,
      blanksDropped (by simpa using blankAfter) reversed, List.reverse_reverse]

theorem trimmedTrim (text : List Char) : Trimmed text (trimChars text) := by
  let rest := text.dropWhile isBlank
  let kept := rest.reverse.dropWhile isBlank
  have split : rest = kept.reverse ++ (rest.reverse.takeWhile isBlank).reverse := by
    rw [← List.reverse_append, List.takeWhile_append_dropWhile, List.reverse_reverse]
  refine ⟨⟨text.takeWhile isBlank, (rest.reverse.takeWhile isBlank).reverse, ?_, ?_, ?_⟩, ?_, ?_⟩
  · show text = _ ++ kept.reverse ++ _
    rw [List.append_assoc, ← split, List.takeWhile_append_dropWhile]
  · exact fun c => takenBlank
  · exact fun c member => takenBlank (List.mem_reverse.mp member)
  · intro c first
    have leads : kept.reverse.head? = some c := first
    refine droppedFirst text c ?_
    show c ∈ rest.head?
    rw [split, List.head?_append, leads]
    rfl
  · show ∀ c ∈ kept.reverse.getLast?, isBlank c = false
    rw [List.getLast?_reverse]
    exact droppedFirst rest.reverse

theorem trimIff {text core : List Char} : trimChars text = core ↔ Trimmed text core :=
  ⟨fun trimmed => trimmed ▸ trimmedTrim text, trimTrimmed⟩

def unsigned : List Char → List Char
  | '+' :: rest => rest
  | text => text

structure Decimal (text : List Char) (n : Nat) : Prop where
  some : unsigned text ≠ []
  digits : ∀ c ∈ unsigned text, c.isDigit = true
  value : n = Nat.ofDigitChars 10 (unsigned text) 0

structure Within (limit start : Nat) (text : List Char) : Prop where
  digits : ∀ c ∈ text, c.isDigit = true
  small : Nat.ofDigitChars 10 text start ≤ limit

inductive Faulty (limit : Nat) (text : List Char) : NumberFault → Prop where
  | empty (nothing : text = []) : Faulty limit text .empty
  | sign (alone : text = ['+']) : Faulty limit text .invalidDigit
  | other {front c rest} (split : unsigned text = front ++ c :: rest) (within : Within limit 0 front)
      (other : c.isDigit = false) : Faulty limit text .invalidDigit
  | large {front c rest} (split : unsigned text = front ++ c :: rest) (within : Within limit 0 front)
      (digit : c.isDigit = true) (beyond : limit < Nat.ofDigitChars 10 (front ++ [c]) 0) :
      Faulty limit text .tooLarge

theorem digitsGrow (digits : List Char) (start : Nat) :
    start ≤ Nat.ofDigitChars 10 digits start := by
  induction digits generalizing start with
  | nil => exact Nat.le_refl start
  | cons c rest ih =>
    rw [Nat.ofDigitChars_cons]
    exact Nat.le_trans (by omega) (ih _)

theorem withinFirst {limit start : Nat} {c : Char} {rest : List Char}
    (within : Within limit start (c :: rest)) :
    c.isDigit = true ∧ 10 * start + (c.toNat - 48) ≤ limit ∧
      Within limit (10 * start + (c.toNat - 48)) rest := by
  obtain ⟨digit, digits⟩ := List.forall_mem_cons.mp within.digits
  have small := within.small
  rw [Nat.ofDigitChars_cons] at small
  exact ⟨digit, Nat.le_trans (digitsGrow rest _) small, digits, small⟩

theorem readDigitsFront {limit start : Nat} {front : List Char} (within : Within limit start front)
    (rest : List Char) :
    readDigits limit start (front ++ rest) =
      readDigits limit (Nat.ofDigitChars 10 front start) rest := by
  induction front generalizing start with
  | nil => rfl
  | cons c front ih =>
    obtain ⟨digit, small, later⟩ := withinFirst within
    rw [List.cons_append, readDigits, if_neg (by simp [digit]), if_neg (Nat.not_lt_of_le small),
      ih later, Nat.ofDigitChars_cons]
    rfl

theorem withinOrEnds {limit start : Nat} (small : start ≤ limit) (text : List Char) :
    Within limit start text ∨ ∃ front c rest, text = front ++ c :: rest ∧ Within limit start front ∧
      (c.isDigit = true → limit < Nat.ofDigitChars 10 (front ++ [c]) start) := by
  induction text generalizing start with
  | nil => exact .inl ⟨by simp, small⟩
  | cons c rest ih =>
    by_cases more : c.isDigit = true ∧ 10 * start + (c.toNat - 48) ≤ limit
    · rcases ih more.2 with within | ⟨front, last, behind, rfl, within, ends⟩
      · exact .inl ⟨List.forall_mem_cons.mpr ⟨more.1, within.digits⟩, within.small⟩
      · exact .inr ⟨c :: front, last, behind, rfl,
          ⟨List.forall_mem_cons.mpr ⟨more.1, within.digits⟩, within.small⟩, ends⟩
    · refine .inr ⟨[], c, rest, rfl, ⟨by simp, small⟩, fun digit => ?_⟩
      exact Nat.lt_of_not_le fun fits => more ⟨digit, fits⟩

theorem unsignedEmpty {text : List Char} (empty : unsigned text = []) :
    text = [] ∨ text = ['+'] := by
  unfold unsigned at empty
  split at empty
  · exact .inr (by rw [empty])
  · exact .inl empty

theorem decimalOrFaulty (limit : Nat) (text : List Char) :
    (∃ n, Decimal text n ∧ n ≤ limit) ∨ ∃ fault, Faulty limit text fault := by
  by_cases empty : unsigned text = []
  · rcases unsignedEmpty empty with nothing | alone
    · exact .inr ⟨_, .empty nothing⟩
    · exact .inr ⟨_, .sign alone⟩
  · rcases withinOrEnds (Nat.zero_le limit) (unsigned text) with
      within | ⟨front, c, rest, split, within, ends⟩
    · exact .inl ⟨_, ⟨empty, within.digits, rfl⟩, within.small⟩
    · cases digit : c.isDigit with
      | true => exact .inr ⟨_, .large split within digit (ends digit)⟩
      | false => exact .inr ⟨_, .other split within digit⟩

theorem readUnsigned {text : List Char} (some : unsigned text ≠ []) (limit : Nat) :
    readNumber limit text = readDigits limit 0 (unsigned text) := by
  unfold readNumber
  split
  · exact absurd rfl some
  · exact absurd rfl some
  · rfl
  · rename_i unmarked
    have plain : unsigned text = text := by
      unfold unsigned
      split
      · exact absurd rfl (unmarked _)
      · rfl
    rw [plain]

theorem readDecimal {text : List Char} {n limit : Nat} (decimal : Decimal text n)
    (small : n ≤ limit) : readNumber limit text = .ok n := by
  obtain ⟨some, digits, rfl⟩ := decimal
  have read := readDigitsFront ⟨digits, small⟩ []
  rw [List.append_nil] at read
  rw [readUnsigned some, read, readDigits]

theorem readFaulty {text : List Char} {limit : Nat} {fault : NumberFault}
    (faulty : Faulty limit text fault) : readNumber limit text = .error fault := by
  have some {front rest : List Char} {c : Char} (split : unsigned text = front ++ c :: rest) :
      unsigned text ≠ [] := by simp [split]
  cases faulty with
  | empty nothing => rw [nothing, readNumber]
  | sign alone => rw [alone, readNumber]
  | other split within other =>
    rw [readUnsigned (some split), split, readDigitsFront within]
    simp [readDigits, other]
  | large split within digit beyond =>
    rw [readUnsigned (some split), split, readDigitsFront within]
    rw [Nat.ofDigitChars_append, Nat.ofDigitChars_cons, Nat.ofDigitChars_nil] at beyond
    rw [readDigits, if_neg (by simp [digit])]
    exact if_pos beyond

theorem decimalIff {limit : Nat} {text : List Char} {n : Nat} :
    readNumber limit text = .ok n ↔ Decimal text n ∧ n ≤ limit := by
  constructor
  · intro read
    rcases decimalOrFaulty limit text with ⟨m, decimal, small⟩ | ⟨fault, faulty⟩
    · rw [readDecimal decimal small] at read
      cases Except.ok.inj read
      exact ⟨decimal, small⟩
    · rw [readFaulty faulty] at read
      contradiction
  · exact fun ⟨decimal, small⟩ => readDecimal decimal small

theorem decimalWritten (n : Nat) : Decimal (toString n).toList n := by
  have digits : ∀ c ∈ Nat.toDigits 10 n, c.isDigit = true := fun c member =>
    Nat.isDigit_of_mem_toDigits (by decide) (by decide) member
  have plain : unsigned (Nat.toDigits 10 n) = Nat.toDigits 10 n := by
    unfold unsigned
    split
    · rename_i same
      exact absurd (digits '+' (by simp [same])) (by decide)
    · rfl
  rw [Nat.toString_eq_ofList_toDigits, String.toList_ofList]
  refine ⟨?_, ?_, ?_⟩
  · rw [plain]
    exact Nat.toDigits_ne_nil
  · rwa [plain]
  · rw [plain, Nat.ofDigitChars_ten_toDigits]

theorem digitOf {c : Char} (digit : c.isDigit = true) : ∃ d < 10, c = Nat.digitChar d := by
  have written : ∀ n < 10, Nat.digitChar n = Char.ofNat (n + 48) := by decide
  simp only [Char.isDigit, ge_iff_le, Bool.and_eq_true, decide_eq_true_eq,
    UInt32.le_iff_toNat_le] at digit
  obtain ⟨least, most⟩ := digit
  have least : 48 ≤ c.toNat := least
  have most : c.toNat ≤ 57 := most
  refine ⟨c.toNat - 48, by omega, ?_⟩
  rw [written _ (by omega), Nat.sub_add_cancel least, Char.ofNat_toNat]

theorem digitsBehind {digits : List Char} (all : ∀ c ∈ digits, c.isDigit = true) {n : Nat}
    (positive : 0 < n) :
    Nat.toDigits 10 (Nat.ofDigitChars 10 digits n) = Nat.toDigits 10 n ++ digits := by
  induction digits generalizing n with
  | nil => simp
  | cons c digits ih =>
    obtain ⟨first, later⟩ := List.forall_mem_cons.mp all
    obtain ⟨d, small, rfl⟩ := digitOf first
    rw [Nat.ofDigitChars_cons_digitChar_of_lt_ten small, ih later (by omega),
      ← Nat.toDigits_append_toDigits (by decide) positive small, Nat.toDigits_of_lt_base small,
      List.append_assoc, List.singleton_append]

theorem digitsCanonical {c : Char} {digits : List Char} (all : ∀ d ∈ c :: digits, d.isDigit = true)
    (leads : c ≠ '0') : Nat.toDigits 10 (Nat.ofDigitChars 10 (c :: digits) 0) = c :: digits := by
  obtain ⟨first, later⟩ := List.forall_mem_cons.mp all
  obtain ⟨d, small, rfl⟩ := digitOf first
  have positive : 0 < d := Nat.pos_of_ne_zero fun zero => leads (by rw [zero]; rfl)
  rw [Nat.ofDigitChars_cons_digitChar_of_lt_ten small, Nat.mul_zero, Nat.zero_add,
    digitsBehind later positive, Nat.toDigits_of_lt_base small, List.singleton_append]

theorem leadingZero {n : Nat} {rest : List Char} (leads : Nat.toDigits 10 n = '0' :: rest) :
    n = 0 := by
  induction n using Nat.strongRecOn generalizing rest with
  | ind n ih =>
    rw [Nat.toDigits_eq_if (by decide)] at leads
    split at leads
    · rename_i small
      have zero : ∀ d < 10, Nat.digitChar d = '0' → d = 0 := by decide
      exact zero n small (List.cons.inj leads).1
    · rename_i large
      cases front : Nat.toDigits 10 (n / 10) with
      | nil => exact absurd front Nat.toDigits_ne_nil
      | cons c digits =>
        rw [front, List.cons_append] at leads
        have above : n / 10 = 0 := ih (n / 10) (by omega) (front.trans (by rw [(List.cons.inj leads).1]))
        omega

theorem readDigitsOk {limit m : Nat} {digits : List Char}
    (read : readDigits limit 0 digits = .ok m) :
    Within limit 0 digits ∧ m = Nat.ofDigitChars 10 digits 0 := by
  rcases withinOrEnds (Nat.zero_le limit) digits with within | ⟨front, c, rest, rfl, within, ends⟩
  · have whole := readDigitsFront within []
    rw [List.append_nil, read] at whole
    exact ⟨within, Except.ok.inj whole⟩
  · rw [readDigitsFront within, readDigits] at read
    split at read
    · contradiction
    · rename_i digit
      have beyond := ends (by simpa using digit)
      rw [Nat.ofDigitChars_append, Nat.ofDigitChars_cons, Nat.ofDigitChars_nil] at beyond
      have refused := read.symm.trans (if_pos beyond)
      contradiction

end MarketFeed.Text
