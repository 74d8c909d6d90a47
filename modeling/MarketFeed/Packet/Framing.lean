import MarketFeed.Packet.Header

/-!
Message frames: a two-byte length and that many bytes. A cursor reads one frame at an offset of the
packet and stays where it is when the frame is cut; an iterator over it ends for good there and keeps
the fault. `frames` splits a whole packet and keeps what cut it short. Lengths are not compared with any
message layout.
-/
namespace MarketFeed

def lengthSize : Nat := 2

inductive FrameFault where
  | lengthCut (offset : Nat)
  | bodyCut (offset declared available : Nat)
  deriving DecidableEq, Repr

def FrameFault.message : FrameFault → String
  | .lengthCut offset => s!"length prefix at offset {offset} runs past the end of the packet"
  | .bodyCut offset declared available =>
    s!"frame at offset {offset} declares {declared} bytes, only {available} remain"

def readFrame (offset : Nat) (rest : Bytes) : Except FrameFault (Bytes × Bytes) :=
  match rest with
  | high :: low :: tail =>
    let declared := readBE [high, low]
    let (body, after) := tail.splitAt declared
    if body.length = declared then .ok (body, after)
    else .error (.bodyCut offset declared tail.length)
  | _ => .error (.lengthCut offset)

structure FrameCursor where
  offset : Nat
  remaining : Nat
  deriving DecidableEq, Repr

namespace FrameCursor

def start (h : Header) : FrameCursor := ⟨headerSize, h.frameCount⟩

/- The cursor moves only once the frame is known to be whole. -/
def call (packet : Bytes) (c : FrameCursor) : Except FrameFault (Option Bytes) × FrameCursor :=
  if c.remaining = 0 then (.ok none, c)
  else match readFrame c.offset (packet.drop c.offset) with
    | .error fault => (.error fault, c)
    | .ok (body, _) =>
      (.ok (some body), { c with
        offset := c.offset + lengthSize + body.length
        remaining := c.remaining - 1 })

end FrameCursor

structure FrameIterator where
  packet : Bytes
  cursor : FrameCursor
  overrun : Option FrameFault
  deriving DecidableEq, Repr

namespace FrameIterator

def start (packet : Bytes) (h : Header) : FrameIterator := ⟨packet, .start h, none⟩

def remaining (i : FrameIterator) : Nat := i.cursor.remaining

def next (i : FrameIterator) : Option Bytes × FrameIterator :=
  if i.overrun.isSome then (none, i)
  else match i.cursor.call i.packet with
    | (.ok frame, cursor) => (frame, { i with cursor })
    | (.error fault, cursor) => (none, { i with cursor, overrun := some fault })

end FrameIterator

inductive Framing where
  | complete
  | broken (fault : FrameFault) (lost : Nat)
  | frame (body : Bytes) (rest : Framing)
  deriving DecidableEq, Repr

namespace Framing

def split : (count offset : Nat) → Bytes → Framing
  | 0, _, _ => complete
  | count + 1, offset, rest =>
    match readFrame offset rest with
    | .ok (body, after) => frame body (split count (offset + lengthSize + body.length) after)
    | .error fault => broken fault (count + 1)

def bodies : Framing → List Bytes
  | complete => []
  | broken _ _ => []
  | frame body rest => body :: rest.bodies

def fault : Framing → Option FrameFault
  | complete => none
  | broken fault _ => some fault
  | frame _ rest => rest.fault

def lost : Framing → Nat
  | complete => 0
  | broken _ lost => lost
  | frame _ rest => rest.lost

def next : Framing → Option Bytes × Framing
  | complete => (none, complete)
  | broken fault lost => (none, broken fault lost)
  | frame body rest => (some body, rest)

def drained : Framing → Framing
  | frame _ rest => rest.drained
  | ended => ended

end Framing

def frames (packet : Bytes) (h : Header) : Framing :=
  Framing.split h.frameCount headerSize (packet.drop headerSize)

def typeTag (body : Bytes) : Option UInt8 := body.head?

def declaredLength (body : Bytes) : UInt16 := UInt16.ofNat body.length

end MarketFeed
