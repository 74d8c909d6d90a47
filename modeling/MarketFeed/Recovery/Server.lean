import MarketFeed.Net.Host
import MarketFeed.Packet.Encoding
import MarketFeed.Packet.Rerequest

/-!
The rerequest side of a recovery: a queue of replies and the server that fills it. A server either
follows a script of batches, one for each request sent to it, or keeps an archive of sequence
numbers and answers from it. Replies that are not read stay in the queue.
-/
namespace MarketFeed

inductive Reply where
  | datagram (raw : Bytes)
  | timeout
  | failure
  deriving DecidableEq, Repr

inductive SendFault where
  | refused
  | notARerequest (length : RerequestLength)
  | socket (fault : Net.SocketFault)
  deriving DecidableEq, Repr

def SendFault.message : SendFault → String
  | .refused => "scripted send failure"
  | .notARerequest length => length.message
  | .socket fault => fault.message

/- A server that holds the sequence numbers from `first` up to but not including `stop`. -/
structure Archive where
  first : UInt64
  stop : UInt64
  perPacket : Nat
  /- The most messages that are served for one request. -/
  maxReply : Option UInt16
  failReplies : Bool
  failSends : Bool
  deriving DecidableEq, Repr

namespace Archive

def body : Bytes := [0x41, 0, 0, 0, 1]

def packets (perPacket : Nat) (session : Session) : (sequence : UInt64) → (wanted : Nat) →
    List Bytes
  | _, 0 => []
  | sequence, wanted + 1 =>
    let size := min (wanted + 1) (max 1 perPacket)
    let packet := match encodePacket session sequence (List.replicate size body) with
      | .ok raw => raw
      | .error _ => []
    packet :: packets perPacket session (sequence + UInt64.ofNat size) (wanted + 1 - size)
  termination_by _ wanted => wanted
  decreasing_by omega

def available (a : Archive) (r : Rerequest) : Nat :=
  if r.start < a.first then 0 else a.stop.toNat - r.start.toNat

def wanted (a : Archive) (r : Rerequest) : Nat :=
  match a.maxReply with
  | some most => min most.toNat r.count.toNat
  | none => r.count.toNat

def answer (a : Archive) (r : Rerequest) : List Bytes :=
  packets a.perPacket r.session r.start (min (a.wanted r) (a.available r))

end Archive

inductive Server where
  /- Batch `k` answers the `k`-th request, and past the last batch nothing comes. The send of that
  number in `failAt` fails. -/
  | script (batches : List (List Reply)) (failAt : Option (Nat × SendFault))
  | archive (a : Archive)
  deriving DecidableEq, Repr

structure RerequestLink where
  server : Server
  queue : List Reply
  sent : List Bytes
  deriving DecidableEq, Repr

namespace RerequestLink

def fresh (server : Server) : RerequestLink := ⟨server, [], []⟩

def send (l : RerequestLink) (datagram : Bytes) : Except SendFault RerequestLink :=
  match l.server with
  | .script batches failAt =>
    match failAt.filter fun (k, _) => k == l.sent.length with
    | some (_, fault) => .error fault
    | none => .ok {
        server := .script batches.tail failAt
        queue := l.queue ++ batches.head?.getD []
        sent := l.sent ++ [datagram] }
  | .archive a =>
    if a.failSends then .error .refused
    else match Rerequest.read datagram with
      | .error length => .error (.notARerequest length)
      | .ok r => .ok { l with
          queue := l.queue ++ (a.answer r).map .datagram
          sent := l.sent ++ [datagram] }

def failsReplies (l : RerequestLink) : Bool :=
  match l.server with
  | .archive a => a.failReplies
  | .script _ _ => false

/- What the next waits bring; behind the last, every wait times out. -/
def inbox (l : RerequestLink) : List Reply := if l.failsReplies then [.failure] else l.queue

def withInbox (l : RerequestLink) (rest : List Reply) : RerequestLink :=
  if l.failsReplies then l else { l with queue := rest }

end RerequestLink
end MarketFeed
