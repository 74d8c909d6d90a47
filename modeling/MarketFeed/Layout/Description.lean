import MarketFeed.Json.Tree
import MarketFeed.Layout.Table

/-!
Layout files. A record is a JSON object, whose unknown keys are ignored, or an array of its parts in
the order of declaration. The shape of the whole file is settled before any layout is built from it.
-/
namespace MarketFeed

namespace Json

def part? (key : String) (members : List (Option String × Json)) : Option (Option Json) :=
  match members.filter (·.1 == some key) with
  | [] => some none
  | [(_, value)] => some (some value)
  | _ => none

/- The parts of a record under these keys. Arrays may leave out parts at the end, but not extend
the record; objects may leave out any. -/
def record? (keys : List String) : Json → Option (List (Option Json))
  | .array items =>
    if keys.length < items.length then none
    else some (items.map some ++ List.replicate (keys.length - items.length) none)
  | .object members =>
    if members.all (·.1.isSome) then keys.mapM (part? · members) else none
  | .scalar _ => none

def text? : Json → Option String
  | .scalar (.text t) => t
  | _ => none

def items? : Json → Option (List Json)
  | .array items => some items
  | _ => none

def size? : Json → Option Nat
  | .scalar (.natural n) => if n < 0x100000000 then some n else none
  | _ => none

end Json

def FieldDecl.ofJson? (json : Json) : Option FieldDecl := do
  match ← json.record? ["name", "type", "size"] with
  | [some name, some kind, some size] =>
    return ⟨← name.text?, .ofName (← kind.text?), ← size.size?⟩
  | _ => none

def MessageDescription.ofJson? (json : Json) : Option MessageDescription := do
  match ← json.record? ["type", "name", "fields"] with
  | [some tag, some name, fields] =>
    let fields ← match fields with
      | some fields => (← fields.items?).mapM FieldDecl.ofJson?
      | none => pure []
    return ⟨← tag.text?, ← name.text?, fields⟩
  | _ => none

def layoutMessages? (json : Json) : Option (List MessageDescription) := do
  match ← json.record? ["messages"] with
  | [some messages] => (← messages.items?).mapM MessageDescription.ofJson?
  | _ => none

namespace Table

def ofJson (text : String) : Except LayoutError Table :=
  match (Json.parse? text).bind layoutMessages? with
  | some ds => ofDescriptions ds
  | none => .error .notALayout

def load (path : String) (content : Except FileFault Bytes) : Except LayoutError Table :=
  match asText content with
  | .error fault => .error (.readFailed path fault)
  | .ok text => ofJson text

end Table
end MarketFeed
