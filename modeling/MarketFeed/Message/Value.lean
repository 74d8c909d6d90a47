import MarketFeed.Layout.Kind
import MarketFeed.Bytes

/-!
Field values. Integers are big-endian over at most the last eight bytes of the field, whatever width
the kind's name suggests; text is kept as bytes and becomes characters only when it is shown.
-/
namespace MarketFeed

inductive FieldValue where
  | char (c : Char)
  | unsigned (n : Nat)
  | signed (n : Int)
  | text (raw : Bytes)
  | binary (raw : Bytes)
  deriving DecidableEq, Repr

def bytesFrom (raw : Bytes) (start : Nat) (_ : start ≤ raw.length) : Bytes := raw.drop start

/- A 64-bit word is moved by less than its width only. -/
def movedUp (word : UInt64) (bits : Nat) (_ : bits < 64) : UInt64 := word <<< UInt64.ofNat bits

def movedDown (word : Int64) (bits : Nat) (_ : bits < 64) : Int64 := word >>> Int64.ofNat bits

def wordStart (raw : Bytes) : Nat := raw.length - 8

theorem wordStartInside (raw : Bytes) : wordStart raw ≤ raw.length := Nat.sub_le _ _

def wordOf (raw : Bytes) : Bytes := bytesFrom raw (wordStart raw) (wordStartInside raw)

def pushByte (word : UInt64) (b : UInt8) : UInt64 := movedUp word 8 (by decide) ||| b.toUInt64

def readWord (raw : Bytes) : UInt64 := (wordOf raw).foldl pushByte 0

def unsignedOf (raw : Bytes) : Nat := (readWord raw).toNat

def spareBits (raw : Bytes) : Nat := 64 - 8 * min raw.length 8

theorem spareBitsFew {raw : Bytes} (read : min raw.length 8 ≠ 0) : spareBits raw < 64 := by
  unfold spareBits
  omega

/- Two's complement over the width that was read: the word is moved until its sign stands in the top
bit, and back again. -/
def signedOf (raw : Bytes) : Int :=
  if unread : min raw.length 8 = 0 then 0
  else
    let top := movedUp (readWord raw) (spareBits raw) (spareBitsFew unread)
    (movedDown top.toInt64 (spareBits raw) (spareBitsFew unread)).toInt

namespace FieldValue

def decode (kind : FieldKind) (raw : Bytes) : FieldValue :=
  match kind with
  | .char => match raw with
    | first :: _ => char (latin1 first)
    | [] => binary []
  | .uint8 | .uint16 | .uint32 | .uint64 => unsigned (unsignedOf raw)
  | .int16 | .int32 | .int64 => signed (signedOf raw)
  | .text => text raw
  | .binary => binary raw

def shown : FieldValue → String
  | char c => String.singleton c
  | unsigned n => toString n
  | signed n => toString n
  | text raw => match readUtf8 raw with
    | some s => s
    | none => String.ofList (raw.map latin1)
  | binary raw => upperHex raw

end FieldValue
end MarketFeed
