import MarketFeed.Bytes

/-!
Session tokens: ten opaque bytes, compared byte for byte. The shown text keeps printable ASCII and
writes every other byte as a backslash escape; the backslash itself is not escaped.
-/
namespace MarketFeed

structure Session where
  bytes : Bytes
  size : bytes.length = 10 := by decide
  deriving DecidableEq, Repr

structure SessionLength where
  length : Nat
  deriving DecidableEq, Repr

namespace Session

def ofBytes (raw : Bytes) : Except SessionLength Session :=
  if h : raw.length = 10 then .ok ⟨raw, h⟩ else .error ⟨raw.length⟩

def ofText (text : String) : Except SessionLength Session := ofBytes (utf8 text)

def printable (b : UInt8) : Bool := 0x20 ≤ b && b ≤ 0x7e

def shownByte (b : UInt8) : List Char :=
  if printable b then [latin1 b] else '\\' :: 'x' :: upperHexOfByte b

def shown (s : Session) : List Char := s.bytes.flatMap shownByte

instance : ToString Session := ⟨fun s => String.ofList s.shown⟩

def labelled (s : Session) : String := "SessionId(\"" ++ toString s ++ "\")"

end Session

def SessionLength.message (e : SessionLength) : String :=
  s!"session token must be 10 bytes, got {e.length}"

end MarketFeed
