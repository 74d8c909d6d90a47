import MarketFeed.Net.Address
import MarketFeed.Proofs.Text.Typed

/-! Addresses as they are typed. A text stands for an address where it is the text that the address is
written as, and for no other. -/
namespace MarketFeed.Net

theorem octetRead {digits : List Char} {n : UInt8} (read : octet? digits = some n) :
    digits = Nat.toDigits 10 n.toNat := by
  unfold octet? at read
  split at read
  · contradiction
  · contradiction
  · rename_i some zeros
    split at read
    · contradiction
    · split at read
      · rename_i m found
        obtain ⟨⟨all, small⟩, rfl⟩ := Text.readDigitsOk found
        cases Option.some.inj read
        rw [UInt8.toNat_ofNat', Nat.mod_eq_of_lt (by omega)]
        cases digits with
        | nil => exact absurd rfl some
        | cons c rest =>
          by_cases leads : c = '0'
          · subst leads
            cases rest with
            | nil => rfl
            | cons d rest => exact absurd rfl (zeros d rest)
          · exact (Text.digitsCanonical all leads).symm
      · contradiction

theorem octetWritten (n : UInt8) : octet? (Nat.toDigits 10 n.toNat) = some n := by
  have bound := n.toNat_lt
  have few : (Nat.toDigits 10 n.toNat).length ≤ 3 :=
    (Nat.length_toDigits_le_iff (by decide) (by decide)).mpr (by omega)
  have within : Text.Within 255 0 (Nat.toDigits 10 n.toNat) :=
    ⟨fun c member => Nat.isDigit_of_mem_toDigits (by decide) (by decide) member,
      by rw [Nat.ofDigitChars_ten_toDigits]; omega⟩
  have read := Text.readDigitsFront within []
  rw [List.append_nil, Nat.ofDigitChars_ten_toDigits] at read
  unfold octet?
  split
  · rename_i none
    exact absurd none Nat.toDigits_ne_nil
  · rename_i d rest zeros
    rw [Text.leadingZero zeros] at zeros
    have one : ['0'] = '0' :: d :: rest := zeros
    exact absurd one (by simp)
  · rw [if_neg (Nat.not_lt_of_le few), read]
    simp [Text.readDigits]

theorem octetIff {digits : List Char} {n : UInt8} :
    octet? digits = some n ↔ digits = Nat.toDigits 10 n.toNat :=
  ⟨octetRead, fun written => written ▸ octetWritten n⟩

namespace Address

def parts (x : Address) : List (List Char) :=
  [x.a, x.b, x.c, x.d].map fun n => Nat.toDigits 10 n.toNat

theorem partsJoined (x : Address) : (toString x).toList = ['.'].intercalate x.parts := by
  have digits (n : UInt8) : (toString n).toList = Nat.toDigits 10 n.toNat := by
    show (Nat.repr n.toNat).toList = _
    rw [Nat.toList_repr]
  show (toString x.a ++ "." ++ toString x.b ++ "." ++ toString x.c ++ "." ++ toString x.d).toList = _
  simp [digits, parts, List.intercalate]

theorem splitParts (x : Address) : (toString x).toList.splitOn '.' = x.parts := by
  rw [partsJoined]
  refine List.splitOn_intercalate '.' ?_ (by simp [parts])
  simp only [parts, List.mem_map]
  rintro _ ⟨n, _, rfl⟩ dot
  exact absurd (Nat.isDigit_of_mem_toDigits (by decide) (by decide) dot) (by decide)

theorem readWritten (x : Address) : read? (toString x) = some x := by
  rw [read?, splitParts]
  simp [parts, octetWritten]

theorem readIff {text : String} {x : Address} : read? text = some x ↔ text = toString x := by
  constructor
  · intro read
    unfold read? at read
    split at read
    · rename_i a b c d split
      simp only [Option.bind_eq_bind, Option.bind_eq_some_iff, octetIff] at read
      obtain ⟨p, rfl, q, rfl, r, rfl, s, rfl, same⟩ := read
      cases Option.some.inj same
      apply String.toList_inj.mp
      rw [partsJoined, ← @List.intercalate_splitOn _ text.toList _ _ '.', split]
      rfl
    · contradiction
  · rintro rfl
    exact readWritten x

end Address
end MarketFeed.Net
