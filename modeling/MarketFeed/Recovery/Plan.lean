import MarketFeed.Bytes

/-!
What a recovery asks for and how far it has come. A total of zero means until the server has nothing
more, a chunk size of zero means the default.
-/
namespace MarketFeed

def defaultChunk : UInt16 := 5000

def chunkOrDefault (configured : UInt16) : UInt16 :=
  if configured = 0 then defaultChunk else configured

structure RecoveryPlan where
  start : UInt64
  total : Nat
  chunkSize : UInt16
  /- Milliseconds to wait for a live header; none waits for ever. -/
  sessionTimeout : Option Nat
  deriving DecidableEq, Repr

structure RecoveryCursor where
  sequence : UInt64
  /- Messages still wanted; says nothing of an unbounded recovery. -/
  remaining : Nat
  bounded : Bool
  deriving DecidableEq, Repr

namespace RecoveryCursor

def start (sequence : UInt64) (total : Nat) : RecoveryCursor := ⟨sequence, total, total != 0⟩

def requestCount (c : RecoveryCursor) (chunk : UInt16) : UInt16 :=
  if c.bounded then UInt16.ofNat (min c.remaining chunk.toNat) else chunk

def advance (c : RecoveryCursor) (received : Nat) : RecoveryCursor :=
  { c with
    sequence := addSat c.sequence received
    remaining := if c.bounded then c.remaining - received else c.remaining }

def isDone (c : RecoveryCursor) : Bool := c.bounded && c.remaining == 0

end RecoveryCursor
end MarketFeed
