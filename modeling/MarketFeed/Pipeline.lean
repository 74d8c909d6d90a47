import MarketFeed.Message.Decoded

/-!
Packets turned into message events. Every framed message is counted, the filter decides only which
are reported, and the count is held to the cap over all packets. Events are data; how one reads is
the business of whoever receives it.
-/
namespace MarketFeed

inductive FeedEvent where
  | message (session : Session) (sequence : UInt64) (message : DecodedMessage)
  | sessionChange (previous current : Session) (sequence : UInt64)
  | gap (session : Session) (expected received missing : UInt64)
  | duplicate (session : Session) (expected received : UInt64)
  | endOfSession (session : Session) (sequence : UInt64)
  | frameOverrun (session : Session) (sequence : UInt64) (skipped : Nat)
  | sessionAcquired (session : Session) (sequence : UInt64)
  | chunkRequested (session : Session) (start : UInt64) (count : UInt16)
  | replyTimeout (start : UInt64) (count : UInt16) (attempt : Nat)
  | chunkFinished (start : UInt64) (requested : UInt16) (received : Nat)
  | stalled (sequence : UInt64) (remaining : Nat) (bounded : Bool)
  | capReached (decoded : Nat)
  deriving DecidableEq, Repr

structure TypeFilter where
  types : List UInt8
  deriving DecidableEq, Repr

def TypeFilter.allows (f : TypeFilter) (tag : UInt8) : Bool := f.types.contains tag

structure PacketReport where
  processed : Nat
  reported : Nat
  overrun : Bool
  capReached : Bool
  deriving DecidableEq, Repr

structure Pipeline where
  table : Table
  filter : Option TypeFilter
  /- Messages after which the run stops; zero means never. -/
  cap : Nat
  processed : Nat
  deriving DecidableEq, Repr

structure Processed where
  pipeline : Pipeline
  report : PacketReport
  events : List FeedEvent
  deriving DecidableEq, Repr

namespace Pipeline

def fresh (table : Table) (filter : Option TypeFilter) (cap : Nat) : Pipeline :=
  ⟨table, filter, cap, 0⟩

/- The count in memory has 64 bits and starts again behind them. A cap stops the count before; without
one nothing is decided by it. -/
def counter (p : Pipeline) : UInt64 := UInt64.ofNat p.processed

def capReached (p : Pipeline) : Bool := p.cap != 0 && p.cap ≤ p.processed

def passes (p : Pipeline) (body : Bytes) : Bool :=
  match p.filter, typeTag body with
  | none, _ => true
  | some filter, some tag => filter.allows tag
  | some _, none => false

/- Works through the frames from the one at `position`, until they end or the cap is reached. A cut
frame is noticed only when it is asked for. -/
def consume (p : Pipeline) (h : Header) (position reported : Nat) : Framing → Processed
  | .frame body rest =>
    if p.capReached then ⟨p, ⟨position, reported, false, true⟩, []⟩
    else
      let counted := { p with processed := p.processed + 1 }
      if p.passes body then
        let next := counted.consume h (position + 1) (reported + 1) rest
        { next with events :=
            .message h.session (h.sequenceAt position) (decodeMessage body p.table) :: next.events }
      else counted.consume h (position + 1) reported rest
  | .broken _ lost =>
    if p.capReached then ⟨p, ⟨position, reported, false, true⟩, []⟩
    else
      ⟨p, ⟨position, reported, true, false⟩,
        [.frameOverrun h.session (h.sequenceAt position) lost]⟩
  | .complete => ⟨p, ⟨position, reported, false, p.capReached⟩, []⟩

def process (p : Pipeline) (h : Header) (packet : Bytes) : Processed :=
  if h.isEndOfSession then
    ⟨p, ⟨0, 0, false, p.capReached⟩, [.endOfSession h.session h.sequence]⟩
  else p.consume h 0 0 (frames packet h)

end Pipeline
end MarketFeed
