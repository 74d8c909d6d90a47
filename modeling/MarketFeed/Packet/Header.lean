import MarketFeed.Session

/-!
The 20-byte packet header: session, sequence number of the first message, message count. A count
of zero is a heartbeat, a count of 65535 ends the session and stands for no messages.
-/
namespace MarketFeed

def headerSize : Nat := 20

def endOfSessionCount : UInt16 := 0xFFFF

structure Header where
  session : Session
  sequence : UInt64
  count : UInt16
  deriving DecidableEq, Repr

structure ShortHeader where
  length : Nat
  deriving DecidableEq, Repr

def ShortHeader.message (e : ShortHeader) : String :=
  s!"packet of {e.length} bytes is shorter than the 20-byte header"

namespace Header

def read (packet : Bytes) : Except ShortHeader Header :=
  if h : headerSize ≤ packet.length then
    .ok {
      session := ⟨packet.take 10, by simp [headerSize] at h ⊢; omega⟩
      sequence := UInt64.ofNat (readBE ((packet.drop 10).take 8))
      count := UInt16.ofNat (readBE ((packet.drop 18).take 2)) }
  else .error ⟨packet.length⟩

def write (h : Header) : Bytes := h.session.bytes ++ be 8 h.sequence.toNat ++ be 2 h.count.toNat

def isHeartbeat (h : Header) : Bool := h.count == 0

def isEndOfSession (h : Header) : Bool := h.count == endOfSessionCount

def frameCount (h : Header) : Nat := if h.isEndOfSession then 0 else h.count.toNat

def nextSequence (h : Header) : UInt64 := addSat h.sequence h.frameCount

def sequenceAt (h : Header) (position : Nat) : UInt64 := h.sequence + UInt64.ofNat position

end Header
end MarketFeed
