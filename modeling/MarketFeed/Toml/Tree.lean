import MarketFeed.Toml.Document

/-!
TOML tables built from a document. No key is given twice, a header opens a table once, and what a
value wrote in braces is never extended. Tables that only the path of a header or of a dotted key
named may still be extended, each in its own way.
-/
namespace MarketFeed.Toml

inductive Origin where
  | header
  | implied
  | dotted
  | inline
  deriving DecidableEq, Repr

inductive Node where
  | scalar (s : Scalar)
  | array (items : List Node)
  | table (origin : Origin) (entries : List (String × Node))
  | rows (rows : List (List (String × Node)))
  deriving Repr

abbrev Entries := List (String × Node)

namespace Entries

def replace (entries : Entries) (key : String) (node : Node) : Entries :=
  entries.map fun (k, old) => if k == key then (k, node) else (k, old)

def add (entries : Entries) (key : String) (node : Node) : Entries := entries ++ [(key, node)]

/- Gives a value to a dotted key. The table that receives it must be where the path starts or have
been named by a dotted key; on the way to it the path may also pass through implied tables and the
last rows of arrays. -/
def assign (entries : Entries) (node : Node) : (path : List String) → Option Entries
  | [] => none
  | [key] => if (entries.lookup key).isSome then none else some (entries.add key node)
  | key :: next :: path =>
    match entries.lookup key with
    | none => (assign [] node (next :: path)).map fun inner => entries.add key (.table .dotted inner)
    | some (.table .dotted inner) =>
      (assign inner node (next :: path)).map fun inner => entries.replace key (.table .dotted inner)
    | some (.table .implied inner) =>
      if path.isEmpty then none
      else (assign inner node (next :: path)).map fun inner =>
        entries.replace key (.table .implied inner)
    | some (.rows (last :: earlier)) =>
      if path.isEmpty then none
      else (assign last node (next :: path)).map fun last =>
        entries.replace key (.rows (last :: earlier))
    | some _ => none

/- Opens what a header names and fills it. The path passes through every table that was not written
in braces and through the last rows of arrays. -/
def enter (kind : HeaderKind) (fill : Entries → Option Entries) (entries : Entries) :
    (path : List String) → Option Entries
  | [] => none
  | [key] =>
    match kind, entries.lookup key with
    | .table, none => (fill []).map fun inner => entries.add key (.table .header inner)
    | .table, some (.table .implied inner) =>
      (fill inner).map fun inner => entries.replace key (.table .header inner)
    | .row, none => (fill []).map fun row => entries.add key (.rows [row])
    | .row, some (.rows rows) =>
      (fill []).map fun row => entries.replace key (.rows (row :: rows))
    | _, some _ => none
  | key :: next :: path =>
    match entries.lookup key with
    | none =>
      (enter kind fill [] (next :: path)).map fun inner => entries.add key (.table .implied inner)
    | some (.table origin inner) =>
      if origin = .inline then none
      else (enter kind fill inner (next :: path)).map fun inner =>
        entries.replace key (.table origin inner)
    | some (.rows (last :: earlier)) =>
      (enter kind fill last (next :: path)).map fun last =>
        entries.replace key (.rows (last :: earlier))
    | some _ => none

end Entries

mutual

def Node.ofValue? : Value → Option Node
  | .scalar s => some (.scalar s)
  | .array items => (nodesOf? items).map .array
  | .inline pairs => (Entries.extend? [] pairs).map (.table .inline)

def nodesOf? : List Value → Option (List Node)
  | [] => some []
  | value :: rest => do return (← Node.ofValue? value) :: (← nodesOf? rest)

def Entries.extend? (entries : Entries) : List Pair → Option Entries
  | [] => some entries
  | (path, value) :: rest => do
    Entries.extend? (← entries.assign (← Node.ofValue? value) path) rest

end

def Document.entries? (d : Document) : Option Entries := do
  let start ← Entries.extend? [] d.pairs
  d.sections.foldlM (fun entries s => entries.enter s.kind (Entries.extend? · s.pairs) s.path) start

def parse? (text : String) : Option Entries :=
  (Text.Reader.readAll document text).bind Document.entries?

end MarketFeed.Toml
