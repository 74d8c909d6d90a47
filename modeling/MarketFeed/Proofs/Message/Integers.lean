import Mathlib.Algebra.BigOperators.Fin
import Mathlib.Algebra.Order.Ring.Int
import Mathlib.Data.Int.ModEq
import Mathlib.Tactic.Linarith
import Mathlib.Tactic.Ring
import MarketFeed.Message.Value

/-! Integer fields of any width. A word that the bytes are pushed into holds their value up to multiples
of its range; moved up and down again it keeps as many of the low bits as the field has, and stands for
the one number in the signed range of these bits that agrees with them. -/
namespace MarketFeed

def valueOf (raw : Bytes) : Nat :=
  ∑ i : Fin raw.length, raw[i].toNat * 256 ^ (raw.length - 1 - i)

theorem spanPower (width : Nat) : span width = 256 ^ width := by
  induction width with
  | zero => rfl
  | succ width ih => rw [span, ih, pow_succ, Nat.mul_comm]

theorem readBeFrom (n : Nat) (raw : Bytes) :
    raw.foldl (fun n b => 256 * n + b.toNat) n = n * 256 ^ raw.length + readBE raw := by
  induction raw generalizing n with
  | nil => simp [readBE]
  | cons b rest ih =>
    rw [readBE, List.foldl_cons, List.foldl_cons, ih, ih (256 * 0 + b.toNat), List.length_cons]
    ring

theorem readBeJoin (a b : Bytes) : readBE (a ++ b) = readBE a * 256 ^ b.length + readBE b := by
  rw [readBE, List.foldl_append, readBeFrom]
  rfl

theorem readBeCons (b : UInt8) (rest : Bytes) :
    readBE (b :: rest) = b.toNat * 256 ^ rest.length + readBE rest := by
  simpa [readBE] using readBeJoin [b] rest

theorem valueRead (raw : Bytes) : valueOf raw = readBE raw := by
  induction raw with
  | nil => rfl
  | cons b rest ih =>
    rw [readBeCons, ← ih]
    refine (Fin.sum_univ_succ (n := rest.length) _).trans (congrArg _ ?_)
    refine Finset.sum_congr rfl fun i _ => ?_
    have place : (b :: rest).length - 1 - (i.succ : Nat) = rest.length - 1 - i := by
      rw [List.length_cons, Fin.val_succ]
      omega
    rw [place]
    rfl

theorem movedUpToNat (word : UInt64) {bits : Nat} (few : bits < 64) :
    (movedUp word bits few).toNat = word.toNat * 2 ^ bits % 2 ^ 64 := by
  have amount : (UInt64.ofNat bits).toNat % 64 = bits := by
    rw [UInt64.toNat_ofNat_of_lt' (Nat.lt_trans few (by decide)), Nat.mod_eq_of_lt few]
  rw [movedUp, UInt64.toNat_shiftLeft, amount, Nat.shiftLeft_eq]

theorem pushByteToNat (word : UInt64) (b : UInt8) :
    (pushByte word b).toNat = (word.toNat * 256 + b.toNat) % 2 ^ 64 := by
  have small := b.toNat_lt
  have high : word.toNat * 2 ^ 8 % 2 ^ 64 = (word.toNat % 2 ^ 56) <<< 8 := by
    rw [Nat.shiftLeft_eq]
    omega
  rw [pushByte, UInt64.toNat_or, movedUpToNat, UInt8.toNat_toUInt64, high,
    ← Nat.shiftLeft_add_eq_or_of_lt (by omega), Nat.shiftLeft_eq]
  omega

theorem pushedToNat (word : UInt64) (raw : Bytes) :
    (raw.foldl pushByte word).toNat = (word.toNat * 256 ^ raw.length + readBE raw) % 2 ^ 64 := by
  induction raw generalizing word with
  | nil => simp [readBE, Nat.mod_eq_of_lt word.toNat_lt]
  | cons b rest ih =>
    rw [List.foldl_cons, ih, pushByteToNat, readBeCons, List.length_cons]
    calc ((word.toNat * 256 + b.toNat) % 2 ^ 64 * 256 ^ rest.length + readBE rest) % 2 ^ 64
      _ = ((word.toNat * 256 + b.toNat) * 256 ^ rest.length + readBE rest) % 2 ^ 64 :=
        ((Nat.mod_modEq _ _).mul_right _).add_right _
      _ = (word.toNat * 256 ^ (rest.length + 1) +
          (b.toNat * 256 ^ rest.length + readBE rest)) % 2 ^ 64 := by
        congr 1
        ring

theorem readWordToNat (raw : Bytes) : (readWord raw).toNat = readBE raw % 2 ^ 64 := by
  have word : (readWord raw).toNat = readBE (wordOf raw) % 2 ^ 64 := by
    rw [readWord, pushedToNat]
    simp
  have whole := readBeJoin (raw.take (wordStart raw)) (wordOf raw)
  rw [wordOf, bytesFrom, List.take_append_drop, List.length_drop] at whole
  rw [word, whole, wordOf, bytesFrom]
  by_cases few : raw.length ≤ 8
  · have start : wordStart raw = 0 := Nat.sub_eq_zero_of_le few
    simp [start, readBE]
  · have rest : raw.length - wordStart raw = 8 := by
      unfold wordStart
      omega
    rw [rest]
    omega

structure Signs (bits value : Nat) (v : Int) : Prop where
  least : -2 ^ (bits - 1) ≤ v
  below : v < 2 ^ (bits - 1)
  same : v ≡ value [ZMOD 2 ^ bits]

theorem powerHalves {bits : Nat} (positive : 0 < bits) : (2 : Int) ^ bits = 2 * 2 ^ (bits - 1) := by
  rw [← pow_succ', Nat.sub_add_cancel positive]

theorem signsUnique {bits value : Nat} (positive : 0 < bits) {a b : Int}
    (signsA : Signs bits value a) (signsB : Signs bits value b) : a = b := by
  have multiple : (2 : Int) ^ bits ∣ a - b := (signsB.same.trans signsA.same.symm).dvd
  have near : |a - b| < (2 : Int) ^ bits := by
    obtain ⟨leastA, belowA, _⟩ := signsA
    obtain ⟨leastB, belowB, _⟩ := signsB
    rw [powerHalves positive, abs_lt]
    constructor <;> linarith
  exact sub_eq_zero.mp (Int.eq_zero_of_abs_lt_dvd multiple near)

theorem signsMoved {bits spare : Nat} (positive : 0 < bits) (total : bits + spare = 64)
    {value : Nat} {top : Int} (least : -2 ^ 63 ≤ top) (below : top < 2 ^ 63)
    (same : top ≡ value * 2 ^ spare [ZMOD 2 ^ 64]) : Signs bits value (top / 2 ^ spare) := by
  have unit : (0 : Int) < 2 ^ spare := by positivity
  have range : (2 : Int) ^ 64 = 2 ^ bits * 2 ^ spare := by rw [← pow_add, total]
  have half : (2 : Int) ^ 63 = 2 ^ (bits - 1) * 2 ^ spare := by
    rw [← pow_add]
    congr 1
    omega
  rw [range] at same
  have exact : (2 : Int) ^ spare ∣ top := by
    have multiple : (2 : Int) ^ spare ∣ value * 2 ^ spare - top :=
      (Dvd.intro_left _ rfl).trans same.dvd
    exact (Int.dvd_iff_dvd_of_dvd_sub multiple).mp (Dvd.intro_left _ rfl)
  obtain ⟨v, back⟩ := exact
  rw [mul_comm] at back
  subst back
  rw [half] at least below
  rw [Int.mul_ediv_cancel _ unit.ne']
  refine ⟨?_, ?_, Int.ModEq.mul_right_cancel' unit.ne' same⟩
  · exact le_of_mul_le_mul_right (by rwa [neg_mul]) unit
  · exact lt_of_mul_lt_mul_right below unit.le

theorem movedDownToInt (word : Int64) {bits : Nat} (few : bits < 64) :
    (movedDown word bits few).toInt = word.toInt / 2 ^ bits := by
  have amounts : ∀ n : Fin 64, ((Int64.ofNat n).toBitVec.smod 64).toNat = n := by decide
  have amount := amounts ⟨bits, few⟩
  rw [movedDown, ← Int64.toInt_toBitVec, Int64.toBitVec_shiftRight, BitVec.toInt_sshiftRight',
    amount, Int64.toInt_toBitVec, Int.shiftRight_eq_div_pow]
  norm_cast

theorem signedWord (word : UInt64) : word.toInt64.toInt ≡ word.toNat [ZMOD 2 ^ 64] := by
  have signed : word.toInt64.toInt = (word.toNat : Int).bmod (2 ^ 64) :=
    BitVec.toInt_eq_toNat_bmod word.toBitVec
  rw [signed]
  exact Int.bmod_emod

theorem signedSigns {raw : Bytes} (read : min raw.length 8 ≠ 0) :
    Signs (8 * min raw.length 8) (readBE raw) (signedOf raw) := by
  have few := spareBitsFew read
  have total : 8 * min raw.length 8 + spareBits raw = 64 := by
    unfold spareBits
    omega
  rw [signedOf, dif_neg read, movedDownToInt]
  refine signsMoved (by omega) total (Int64.le_toInt _) (Int64.toInt_lt _) ?_
  refine (signedWord _).trans ?_
  rw [movedUpToNat, readWordToNat]
  have moved : readBE raw % 2 ^ 64 * 2 ^ spareBits raw % 2 ^ 64 ≡
      readBE raw * 2 ^ spareBits raw [MOD 2 ^ 64] :=
    (Nat.mod_modEq _ _).trans ((Nat.mod_modEq _ _).mul_right _)
  exact_mod_cast Int.natCast_modEq_iff.mpr moved

namespace FieldValue

theorem decodeUnsigned {kind : FieldKind} (unsigned : kind.isUnsigned = true) (raw : Bytes) :
    decode kind raw = .unsigned (valueOf raw % 2 ^ 64) := by
  have word : unsignedOf raw = valueOf raw % 2 ^ 64 := by
    rw [unsignedOf, readWordToNat, valueRead]
  rw [← word]
  cases kind <;> first | rfl | contradiction

theorem decodeSigned {kind : FieldKind} (signed : kind.isSigned = true) (raw : Bytes) :
    decode kind raw = .signed (signedOf raw) := by
  cases kind <;> first | rfl | contradiction

end FieldValue

theorem widthPositive {raw : Bytes} (nonempty : raw ≠ []) : min raw.length 8 ≠ 0 := by
  have positive := List.length_pos_of_ne_nil nonempty
  omega

theorem signsSigned {raw : Bytes} (nonempty : raw ≠ []) (v : Int) :
    Signs (8 * min raw.length 8) (valueOf raw) v ↔ v = signedOf raw := by
  have read := widthPositive nonempty
  have signs := signedSigns read
  rw [← valueRead] at signs
  constructor
  · exact fun other => signsUnique (by omega) other signs
  · rintro rfl
    exact signs

theorem valueZeros (zeros : Nat) (raw : Bytes) :
    valueOf (List.replicate zeros 0 ++ raw) = valueOf raw := by
  have nothing : readBE (List.replicate zeros 0) = 0 := by
    induction zeros with
    | zero => rfl
    | succ zeros ih => simpa [readBE, List.replicate_succ] using ih
  rw [valueRead, valueRead, readBeJoin, nothing, Nat.zero_mul, Nat.zero_add]

theorem valueWritten {width value : Nat} (fits : value < 256 ^ width) :
    valueOf (be width value) = value := by
  rw [valueRead, readBeWritten, spanPower, Nat.mod_eq_of_lt fits]

structure ReadsIntegers (raw : Bytes) : Prop where
  unsigned : ∀ kind : FieldKind, kind.isUnsigned = true →
    FieldValue.decode kind raw = .unsigned (valueOf raw % 2 ^ 64)
  signed : ∀ kind : FieldKind, kind.isSigned = true → ∃ v,
    FieldValue.decode kind raw = .signed v ∧ (raw = [] → v = 0) ∧
      (raw ≠ [] → ∀ other, Signs (8 * min raw.length 8) (valueOf raw) other ↔ other = v)
  padded : ∀ kind : FieldKind, kind.isUnsigned = true → ∀ zeros,
    FieldValue.decode kind (List.replicate zeros 0 ++ raw) = FieldValue.decode kind raw
  agreeing : 8 ≤ raw.length → ∀ kind other : FieldKind, kind.isSigned = true →
    other.isUnsigned = true → ∃ (v : Int) (n : Nat), FieldValue.decode kind raw = .signed v ∧
      FieldValue.decode other raw = .unsigned n ∧ v ≡ n [ZMOD 2 ^ 64]
  slices : wordStart raw ≤ raw.length
  shifts : raw ≠ [] → spareBits raw < 64

structure RestoresIntegers (width : Nat) : Prop where
  unsigned : ∀ value < 256 ^ width, ∀ kind : FieldKind, kind.isUnsigned = true →
    FieldValue.decode kind (be width value) = .unsigned value
  signed : ∀ v : Int, -2 ^ (8 * width - 1) ≤ v → v < 2 ^ (8 * width - 1) →
    ∀ kind : FieldKind, kind.isSigned = true →
      FieldValue.decode kind (be width (v % 2 ^ (8 * width)).toNat) = .signed v

theorem readsIntegers (raw : Bytes) : ReadsIntegers raw := by
  refine ⟨fun _ kind => FieldValue.decodeUnsigned kind raw, ?_, ?_, ?_, wordStartInside raw,
    fun nonempty => spareBitsFew (widthPositive nonempty)⟩
  · intro kind signed
    refine ⟨_, FieldValue.decodeSigned signed raw, ?_, signsSigned⟩
    rintro rfl
    rfl
  · intro kind unsigned zeros
    rw [FieldValue.decodeUnsigned unsigned, FieldValue.decodeUnsigned unsigned, valueZeros]
  · intro wide kind other signed unsigned
    have nonempty : raw ≠ [] := by
      rintro rfl
      contradiction
    have signs := (signsSigned nonempty _).mpr rfl
    rw [Nat.min_eq_right wide] at signs
    refine ⟨_, _, FieldValue.decodeSigned signed raw, FieldValue.decodeUnsigned unsigned raw, ?_⟩
    exact signs.same.trans (Int.natCast_modEq_iff.mpr (Nat.mod_modEq _ _).symm)

theorem restoresIntegers {width : Nat} (positive : 1 ≤ width) (few : width ≤ 8) :
    RestoresIntegers width := by
  have bytes : (256 : Nat) ^ width = 2 ^ (8 * width) := by
    rw [Nat.pow_mul]
  refine ⟨?_, ?_⟩
  · intro value fits kind unsigned
    have inside : value < 2 ^ 64 :=
      Nat.lt_of_lt_of_le (bytes ▸ fits) (Nat.pow_le_pow_right (by decide) (by omega))
    rw [FieldValue.decodeUnsigned unsigned, valueWritten fits, Nat.mod_eq_of_lt inside]
  · intro v least below kind signed
    have modulus : (0 : Int) < 2 ^ (8 * width) := by positivity
    have residue : ((v % 2 ^ (8 * width)).toNat : Int) = v % 2 ^ (8 * width) :=
      Int.toNat_of_nonneg (Int.emod_nonneg v modulus.ne')
    have fits : (v % 2 ^ (8 * width)).toNat < 256 ^ width := by
      zify
      rw [residue, show (256 : Int) ^ width = 2 ^ (8 * width) by exact_mod_cast bytes]
      exact Int.emod_lt_of_pos v modulus
    have written : (be width (v % 2 ^ (8 * width)).toNat).length = width := beLength _ _
    have nonempty : be width (v % 2 ^ (8 * width)).toNat ≠ [] :=
      List.ne_nil_of_length_pos (by omega)
    have signs := signsSigned nonempty v
    rw [written, Nat.min_eq_left few, valueWritten fits] at signs
    have same : v ≡ (v % 2 ^ (8 * width)).toNat [ZMOD 2 ^ (8 * width)] := by
      rw [residue]
      exact (Int.mod_modEq _ _).symm
    rw [FieldValue.decodeSigned signed, ← signs.mp ⟨least, below, same⟩]

theorem integersExact :
    (∀ raw, ReadsIntegers raw) ∧ ∀ width, 1 ≤ width → width ≤ 8 → RestoresIntegers width :=
  ⟨readsIntegers, fun _ => restoresIntegers⟩

/- Nine bytes of which the first does not count, and three bytes that are less than zero. -/
theorem integersExactOddWidths :
    let wide : Bytes := [7, 0xFF, 0xFF, 0xFF, 0xFF, 0xFF, 0xFF, 0xFF, 0xFE]
    FieldValue.decode .uint16 wide = .unsigned 0xFFFFFFFFFFFFFFFE ∧
      FieldValue.decode .int16 wide = .signed (-2) ∧ ReadsIntegers wide ∧
      FieldValue.decode .int64 [0x80, 0, 1] = .signed (-0x7FFFFF) ∧ RestoresIntegers 3 :=
  ⟨by decide, by decide, integersExact.1 _, by decide, integersExact.2 3 (by decide) (by decide)⟩

end MarketFeed
