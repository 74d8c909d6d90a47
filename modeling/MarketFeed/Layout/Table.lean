import MarketFeed.Layout.Spec
import MarketFeed.Text.Shown

/-!
The layout table: at most one layout per type byte, kept in the order of the bytes. The first
layout of a byte stays; a second one is refused and changes nothing.
-/
namespace MarketFeed

def LayoutError.message : LayoutError → String
  | .readFailed path fault => s!"failed to read {path}: {fault.message}"
  | .notALayout => "invalid layout JSON"
  | .badTag name tag =>
    s!"message '{name}' has type tag {Text.quoted tag}, expected exactly one byte"
  | .duplicateType tag =>
    s!"type byte 0x{String.ofList (hexOfByte tag)} is defined more than once"
  | .zeroSizeField name field => s!"field '{field}' of message '{name}' has zero size"
  | .tooLong name => s!"message '{name}' is longer than u32::MAX bytes"

structure Table where
  specs : List MessageSpec
  deriving DecidableEq, Repr

structure Insertion where
  answer : Except LayoutError Unit
  table : Table

namespace Table

def empty : Table := ⟨[]⟩

def get? (t : Table) (tag : UInt8) : Option MessageSpec := t.specs.find? (·.tag == tag)

def insertOrdered (spec : MessageSpec) : List MessageSpec → List MessageSpec
  | [] => [spec]
  | other :: rest =>
    if spec.tag < other.tag then spec :: other :: rest else other :: insertOrdered spec rest

def put (t : Table) (spec : MessageSpec) : Insertion :=
  if (t.get? spec.tag).isSome then ⟨.error (.duplicateType spec.tag), t⟩
  else ⟨.ok (), ⟨insertOrdered spec t.specs⟩⟩

/- The table behind an insertion, where it is not looked at again after an error. -/
def insert (t : Table) (spec : MessageSpec) : Except LayoutError Table :=
  let done := t.put spec
  done.answer.map fun _ => done.table

def size (t : Table) : Nat := t.specs.length

def isEmpty (t : Table) : Bool := t.specs.isEmpty

end Table

structure MessageDescription where
  tag : String
  name : String
  fields : List FieldDecl
  deriving DecidableEq, Repr

namespace MessageDescription

def tagByte? (d : MessageDescription) : Option UInt8 :=
  match utf8 d.tag with
  | [b] => some b
  | _ => none

def spec (d : MessageDescription) : Except LayoutError MessageSpec :=
  match d.tagByte? with
  | none => .error (.badTag d.name d.tag)
  | some tag => MessageSpec.build tag d.name d.fields

end MessageDescription

namespace Table

def extend (t : Table) : List MessageDescription → Except LayoutError Table
  | [] => .ok t
  | d :: rest =>
    match d.spec with
    | .error e => .error e
    | .ok spec =>
      match t.insert spec with
      | .error e => .error e
      | .ok next => next.extend rest

def ofDescriptions (ds : List MessageDescription) : Except LayoutError Table := empty.extend ds

end Table
end MarketFeed
