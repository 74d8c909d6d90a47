import MarketFeed.Text.Reader

/-!
How the bytes of a field are read. A kind's name is found without regard to ASCII case and to
blanks around it; a name nobody defined means raw bytes.
-/
namespace MarketFeed

inductive FieldKind where
  | char
  | uint8
  | uint16
  | uint32
  | uint64
  | int16
  | int32
  | int64
  | text
  | binary
  deriving DecidableEq, Repr

namespace FieldKind

def ofName (name : String) : FieldKind :=
  match String.ofList ((Text.trimChars name.toList).map Char.toLower) with
  | "char" => char
  | "uint8" | "u8" => uint8
  | "uint16" | "u16" => uint16
  | "uint32" | "u32" => uint32
  | "uint64" | "u64" => uint64
  | "int16" | "i16" => int16
  | "int32" | "i32" => int32
  | "int64" | "i64" => int64
  | "string" | "alpha" => text
  | _ => binary

def name : FieldKind → String
  | char => "char"
  | uint8 => "uint8"
  | uint16 => "uint16"
  | uint32 => "uint32"
  | uint64 => "uint64"
  | int16 => "int16"
  | int32 => "int32"
  | int64 => "int64"
  | text => "string"
  | binary => "binary"

def isUnsigned : FieldKind → Bool
  | uint8 | uint16 | uint32 | uint64 => true
  | _ => false

def isSigned : FieldKind → Bool
  | int16 | int32 | int64 => true
  | _ => false

end FieldKind
end MarketFeed
