import MarketFeed.Files
import MarketFeed.Layout.Kind

/-!
Message layouts: fields of fixed size in wire order. Offsets are the running sum of the sizes, fixed
when the layout is built. Nothing here asks whether a size suits its kind.
-/
namespace MarketFeed

structure FieldDecl where
  name : String
  kind : FieldKind
  size : Nat
  deriving DecidableEq, Repr

structure FieldSpec where
  name : String
  kind : FieldKind
  size : Nat
  offset : Nat
  deriving DecidableEq, Repr

def FieldSpec.stop (f : FieldSpec) : Nat := f.offset + f.size

structure MessageSpec where
  tag : UInt8
  name : String
  totalLength : Nat
  fields : List FieldSpec
  deriving DecidableEq, Repr

inductive LayoutError where
  | readFailed (path : String) (fault : FileFault)
  | notALayout
  | badTag (message tag : String)
  | duplicateType (tag : UInt8)
  | zeroSizeField (message field : String)
  | tooLong (message : String)
  deriving DecidableEq, Repr

namespace MessageSpec

def maxLength : Nat := 0xFFFFFFFF

def place (message : String) : (offset : Nat) → List FieldDecl →
    Except LayoutError (List FieldSpec × Nat)
  | offset, [] => .ok ([], offset)
  | offset, f :: rest =>
    if f.size = 0 then .error (.zeroSizeField message f.name)
    else if maxLength < offset + f.size then .error (.tooLong message)
    else (place message (offset + f.size) rest).map fun (fields, total) =>
      (⟨f.name, f.kind, f.size, offset⟩ :: fields, total)

def build (tag : UInt8) (name : String) (fields : List FieldDecl) :
    Except LayoutError MessageSpec :=
  (place name 0 fields).map fun (placed, total) => ⟨tag, name, total, placed⟩

end MessageSpec
end MarketFeed
