import MarketFeed.Bytes
import MarketFeed.Text.Reader

/-!
IPv4 addresses in strict dotted decimal: four numbers up to 255, each without leading zeros, and
nothing around them.
-/
namespace MarketFeed.Net

structure Address where
  a : UInt8
  b : UInt8
  c : UInt8
  d : UInt8
  deriving DecidableEq, Repr

structure Endpoint where
  address : Address
  port : UInt16
  deriving DecidableEq, Repr

def octet? (digits : List Char) : Option UInt8 :=
  match digits with
  | [] => none
  | '0' :: _ :: _ => none
  | _ =>
    if 3 < digits.length then none
    else match Text.readDigits 255 0 digits with
      | .ok n => some (UInt8.ofNat n)
      | .error _ => none

namespace Address

def read? (text : String) : Option Address :=
  match text.toList.splitOn '.' with
  | [a, b, c, d] => do return ⟨← octet? a, ← octet? b, ← octet? c, ← octet? d⟩
  | _ => none

instance : ToString Address := ⟨fun x => s!"{x.a}.{x.b}.{x.c}.{x.d}"⟩

def isMulticast (x : Address) : Bool := 224 ≤ x.a && x.a ≤ 239

def isLoopback (x : Address) : Bool := x.a == 127

def loopbackBroadcast : Address := ⟨127, 255, 255, 255⟩

end Address

instance : ToString Endpoint := ⟨fun e => s!"{e.address}:{e.port}"⟩

end MarketFeed.Net
