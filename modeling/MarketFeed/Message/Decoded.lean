import MarketFeed.Layout.Table
import MarketFeed.Message.Value
import MarketFeed.Packet.Framing

/-!
Messages matched to their layout by the first byte. A body may be shorter than its layout: the
fields that fit are read and the first that does not ends the walk.
-/
namespace MarketFeed

structure DecodedMessage where
  body : Bytes
  spec : Option MessageSpec
  deriving DecidableEq, Repr

inductive DecodeStatus where
  | complete
  | truncated (field length : Nat)
  | unknown
  deriving DecidableEq, Repr

structure DecodedField where
  spec : FieldSpec
  value : FieldValue
  deriving DecidableEq, Repr

def decodeMessage (body : Bytes) (table : Table) : DecodedMessage :=
  ⟨body, (typeTag body).bind table.get?⟩

theorem decodedFirst {table : Table} {first : UInt8} {found : Option MessageSpec}
    (layout : table.get? first = found) (rest : Bytes) :
    decodeMessage (first :: rest) table = ⟨first :: rest, found⟩ := by
  simp [decodeMessage, typeTag, layout]

namespace DecodedMessage

def name? (m : DecodedMessage) : Option String := m.spec.map MessageSpec.name

/- The reported length of a cut body is a 16-bit number. -/
def status (m : DecodedMessage) : DecodeStatus :=
  match m.spec with
  | none => .unknown
  | some spec =>
    let length := m.body.length
    match spec.fields.findIdx? fun f => length < f.stop with
    | some field => .truncated field (length % 0x10000)
    | none => .complete

def slice? (body : Array UInt8) (f : FieldSpec) : Option Bytes :=
  if f.stop ≤ body.size then some (body.extract f.offset f.stop).toList else none

theorem sliceOfBytes (body : Bytes) (f : FieldSpec) :
    slice? body.toArray f =
      if f.stop ≤ body.length then some ((body.drop f.offset).take f.size) else none := by
  have size : f.stop - f.offset = f.size := by simp [FieldSpec.stop]
  simp [slice?, size, List.extract_eq_take_drop]

theorem sliceWithin {body : Bytes} {f : FieldSpec} (fit : f.stop ≤ body.length) :
    slice? body.toArray f = some ((body.drop f.offset).take f.size) := by
  rw [sliceOfBytes, if_pos fit]

theorem sliceBeyond {body : Bytes} {f : FieldSpec} (wide : body.length < f.stop) :
    slice? body.toArray f = none := by
  rw [sliceOfBytes, if_neg (Nat.not_le_of_lt wide)]

def readFields (body : Array UInt8) : List FieldSpec → List DecodedField
  | [] => []
  | f :: rest =>
    match slice? body f with
    | none => []
    | some raw => ⟨f, .decode f.kind raw⟩ :: readFields body rest

def fields (m : DecodedMessage) : List DecodedField :=
  match m.spec with
  | none => []
  | some spec => readFields m.body.toArray spec.fields

end DecodedMessage

structure FieldWalk where
  body : Array UInt8
  rest : List FieldSpec
  deriving DecidableEq, Repr

namespace FieldWalk

def ofMessage (m : DecodedMessage) : FieldWalk :=
  ⟨m.body.toArray, (m.spec.map MessageSpec.fields).getD []⟩

def next (w : FieldWalk) : Option DecodedField × FieldWalk :=
  match w.rest with
  | [] => (none, w)
  | f :: rest =>
    match DecodedMessage.slice? w.body f with
    | none => (none, ⟨w.body, []⟩)
    | some raw => (some ⟨f, .decode f.kind raw⟩, ⟨w.body, rest⟩)

end FieldWalk
end MarketFeed
