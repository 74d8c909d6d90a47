import MarketFeed.Pipeline
import MarketFeed.Live
import MarketFeed.Recovery.Server

/-!
The wait for the replies to one rerequest. It ends when the request is answered, at the message cap,
at a failed receive, or at the third timeout in a row; a datagram breaks a series of timeouts even
if nothing in it counts.
-/
namespace MarketFeed

/- Timeouts in a row that end a chunk. -/
def maxTimeouts : Nat := 3

structure ChunkRequest where
  start : UInt64
  count : UInt16
  deriving DecidableEq, Repr

/- How far the wait has come: messages counted for the request, and timeouts since the last
datagram. -/
structure Gathering where
  pipeline : Pipeline
  received : Nat
  timeouts : Nat
  deriving DecidableEq, Repr

structure Gathered where
  state : Gathering
  ended : Bool
  capReached : Bool
  events : List FeedEvent
  deriving DecidableEq, Repr

namespace Gathering

def take (g : Gathering) (request : ChunkRequest) : Reply → Gathered
  | .timeout =>
    let attempt := g.timeouts + 1
    ⟨{ g with timeouts := attempt }, decide (maxTimeouts ≤ attempt), false,
      [.replyTimeout request.start request.count attempt]⟩
  | .failure => ⟨g, true, false, []⟩
  | .datagram raw =>
    let packet := raw.take receiveBufferSize
    match Header.read packet with
    | .error _ => ⟨{ g with timeouts := 0 }, false, false, []⟩
    | .ok h =>
      let done := g.pipeline.process h packet
      let received := g.received + done.report.processed
      ⟨⟨done.pipeline, received, 0⟩,
        done.report.capReached || decide (request.count.toNat ≤ received),
        done.report.capReached, done.events⟩

end Gathering

structure Chunk where
  pipeline : Pipeline
  received : Nat
  capReached : Bool
  events : List FeedEvent
  unread : List Reply
  deriving DecidableEq, Repr

namespace Gathering

def expire (g : Gathering) (request : ChunkRequest) : Chunk :=
  ⟨g.pipeline, g.received, false,
    (List.range' (g.timeouts + 1) (maxTimeouts - g.timeouts)).map
      (.replyTimeout request.start request.count ·), []⟩

def collect (g : Gathering) (request : ChunkRequest) : List Reply → Chunk
  | [] => g.expire request
  | reply :: rest =>
    let taken := g.take request reply
    if taken.ended then
      ⟨taken.state.pipeline, taken.state.received, taken.capReached, taken.events, rest⟩
    else
      let after := taken.state.collect request rest
      { after with events := taken.events ++ after.events }

end Gathering

/- Waits for the replies to `request` among `replies`; behind them nothing comes. -/
def awaitReplies (p : Pipeline) (request : ChunkRequest) (replies : List Reply) : Chunk :=
  Gathering.collect ⟨p, 0, 0⟩ request replies

namespace Gathering

theorem collectUnread (g : Gathering) (request : ChunkRequest) (replies : List Reply) :
    (g.collect request replies).unread.length ≤ replies.length := by
  induction replies generalizing g with
  | nil => simp [collect, expire]
  | cons reply rest ih =>
    have := ih (g.take request reply).state
    by_cases ended : (g.take request reply).ended
    · simp [collect, ended]
    · simp [collect, ended]; omega

theorem collectShortens (g : Gathering) (request : ChunkRequest) (replies : List Reply)
    (more : g.received < (g.collect request replies).received) :
    (g.collect request replies).unread.length < replies.length := by
  cases replies with
  | nil => simp [collect, expire] at more
  | cons reply rest =>
    have := collectUnread (g.take request reply).state request rest
    by_cases ended : (g.take request reply).ended
    · simp [collect, ended]
    · simp [collect, ended]; omega

end Gathering
end MarketFeed
