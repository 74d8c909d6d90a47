import MarketFeed.Pipeline
import MarketFeed.Sequence

/-!
The live feed: datagrams in, events out. A datagram without a header is dropped, a failed receive
changes nothing, and a run returns only at the message cap; a script of receptions that ends before
it leaves the run waiting.
-/
namespace MarketFeed

/- A datagram is cut to the size of the receive buffer. What earlier ones left there is never read. -/
def receiveBufferSize : Nat := 64 * 1024

inductive Reception where
  | datagram (raw : Bytes)
  | failure
  deriving DecidableEq, Repr

inductive PacketStatus where
  | skipped
  | processed (report : PacketReport)
  deriving DecidableEq, Repr

structure LiveSummary where
  packets : Nat
  decoded : Nat
  deriving DecidableEq, Repr

structure LiveFeed where
  tracker : Tracker
  pipeline : Pipeline
  packets : Nat
  deriving DecidableEq, Repr

def Sequencing.event? (session : Session) : Sequencing → Option FeedEvent
  | .joined _ _ => none
  | .sessionChange previous current sequence => some (.sessionChange previous current sequence)
  | .gap expected received missing => some (.gap session expected received missing)
  | .duplicate expected received => some (.duplicate session expected received)
  | .inOrder => none

/- One receive: the feed after it, its events, and what became of the datagram unless it failed. -/
structure LiveStep where
  feed : LiveFeed
  status : Option PacketStatus
  events : List FeedEvent
  deriving DecidableEq, Repr

namespace LiveFeed

def fresh (pipeline : Pipeline) : LiveFeed := ⟨.idle, pipeline, 0⟩

def summary (f : LiveFeed) : LiveSummary := ⟨f.packets, f.pipeline.processed⟩

def accept (f : LiveFeed) (datagram : Bytes) : LiveStep :=
  let packet := datagram.take receiveBufferSize
  match Header.read packet with
  | .error _ => ⟨f, some .skipped, []⟩
  | .ok h =>
    let (found, tracker) := f.tracker.track h
    let done := f.pipeline.process h packet
    ⟨⟨tracker, done.pipeline, f.packets + 1⟩, some (.processed done.report),
      (found.event? h.session).toList ++ done.events⟩

def step (f : LiveFeed) : Reception → LiveStep
  | .datagram raw => f.accept raw
  | .failure => ⟨f, none, []⟩

/- Every step of a script, whatever the cap says. -/
def steps (f : LiveFeed) : List Reception → List LiveStep
  | [] => []
  | r :: rest => let done := f.step r; done :: done.feed.steps rest

end LiveFeed

structure LiveRun where
  feed : LiveFeed
  events : List FeedEvent
  returned : Bool
  deriving DecidableEq, Repr

def LiveStep.stops (s : LiveStep) : Bool :=
  match s.status with
  | some (.processed report) => report.capReached
  | _ => false

namespace LiveFeed

def stop (f : LiveFeed) : LiveRun := ⟨f, [.capReached f.summary.decoded], true⟩

def listen (f : LiveFeed) : List Reception → LiveRun
  | [] => ⟨f, [], false⟩
  | r :: rest =>
    let done := f.step r
    let after := if done.stops then done.feed.stop else done.feed.listen rest
    { after with events := done.events ++ after.events }

def run (f : LiveFeed) (script : List Reception) : LiveRun :=
  if f.pipeline.capReached then f.stop else f.listen script

end LiveFeed
end MarketFeed
