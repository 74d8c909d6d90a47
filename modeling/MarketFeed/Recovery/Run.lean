import MarketFeed.Recovery.Chunk
import MarketFeed.Recovery.Plan
import MarketFeed.Text.Shown

/-!
Recovery: learn the session from the live feed, then rerequest chunk after chunk. The cursor moves
by what was decoded and not by what was asked for. A chunk that brings nothing ends the run, as a
failure where a total was wanted and as the end of data where none was. Time is not modelled: with
a session timeout a dry live script expires at once, without one the run waits for ever.
-/
namespace MarketFeed

inductive RecoveryOutcome where
  | completed
  | endOfData
  | capReached
  | stalled
  deriving DecidableEq, Repr

def RecoveryOutcome.isSuccess (o : RecoveryOutcome) : Bool := o != .stalled

structure RecoveryReport where
  outcome : RecoveryOutcome
  session : Session
  cursor : RecoveryCursor
  chunks : Nat
  decoded : Nat
  deriving DecidableEq, Repr

inductive RecoveryError where
  | sessionTimeout (milliseconds : Nat)
  | send (fault : SendFault)
  deriving DecidableEq, Repr

namespace RecoveryError

def message : RecoveryError → String
  | sessionTimeout milliseconds =>
    s!"no live packet within {Text.duration milliseconds} to learn the session from"
  | send fault => s!"failed to send rerequest: {fault.message}"

def causes : RecoveryError → List String
  | sessionTimeout milliseconds => [message (sessionTimeout milliseconds)]
  | send fault => [message (send fault), fault.message]

end RecoveryError

inductive RecoveryResult where
  | waiting
  | failed (error : RecoveryError)
  | finished (report : RecoveryReport)
  deriving DecidableEq, Repr

structure RecoveryRun where
  events : List FeedEvent
  result : RecoveryResult
  link : RerequestLink
  /- The datagram at which the run failed. The log of the link does not hold it. -/
  refused : Option Bytes
  deriving DecidableEq, Repr

structure RecoveryState where
  pipeline : Pipeline
  cursor : RecoveryCursor
  chunks : Nat
  deriving DecidableEq, Repr

namespace RecoveryState

def request (s : RecoveryState) (chunkSize : UInt16) : ChunkRequest :=
  ⟨s.cursor.sequence, s.cursor.requestCount chunkSize⟩

def answered (s : RecoveryState) (chunk : Chunk) : RecoveryState where
  pipeline := chunk.pipeline
  cursor := s.cursor.advance chunk.received
  chunks := s.chunks + 1

def outcome? (s : RecoveryState) (chunk : Chunk) : Option RecoveryOutcome :=
  if chunk.capReached then some .capReached
  else if chunk.received = 0 then some (if s.cursor.bounded then .stalled else .endOfData)
  else if s.cursor.isDone then some .completed
  else none

def closing (s : RecoveryState) : RecoveryOutcome → List FeedEvent
  | .capReached => [.capReached s.pipeline.processed]
  | .stalled | .endOfData => [.stalled s.cursor.sequence s.cursor.remaining s.cursor.bounded]
  | .completed => []

def report (s : RecoveryState) (session : Session) (outcome : RecoveryOutcome) : RecoveryReport :=
  ⟨outcome, session, s.cursor, s.chunks, s.pipeline.processed⟩

end RecoveryState

namespace RerequestLink

def headroom (l : RerequestLink) (sequence : UInt64) : Nat :=
  match l.server with
  | .script _ _ => 0
  | .archive _ => 0xFFFFFFFFFFFFFFFF - sequence.toNat

def backlog (l : RerequestLink) : Nat :=
  match l.server with
  | .script batches _ => l.queue.length + batches.flatten.length
  | .archive _ => l.queue.length

end RerequestLink

namespace RecoveryState

theorem receivedMore {s : RecoveryState} {chunk : Chunk} (more : s.outcome? chunk = none) :
    0 < chunk.received := by
  apply Nat.pos_of_ne_zero
  intro nothing
  by_cases cap : chunk.capReached <;> simp [outcome?, cap, nothing] at more

end RecoveryState

theorem awaitShortens {p : Pipeline} {request : ChunkRequest} {replies : List Reply}
    (more : 0 < (awaitReplies p request replies).received) :
    (awaitReplies p request replies).unread.length < replies.length :=
  Gathering.collectShortens ⟨p, 0, 0⟩ request replies more

namespace Archive

theorem answerAtEnd (a : Archive) (r : Rerequest) (last : r.start.toNat = 0xFFFFFFFFFFFFFFFF) :
    a.answer r = [] := by
  have : a.stop.toNat - r.start.toNat = 0 := by have := a.stop.toNat_lt; omega
  simp [answer, available, this, packets]

end Archive

namespace RerequestLink

theorem backlogSent {batches : List (List Reply)} {failAt : Option (Nat × SendFault)}
    {queue : List Reply} {sent : List Bytes} {datagram : Bytes} {link : RerequestLink}
    (ok : send ⟨.script batches failAt, queue, sent⟩ datagram = .ok link) :
    link.server = .script batches.tail failAt ∧ link.queue = queue ++ batches.head?.getD [] := by
  unfold send at ok
  dsimp only at ok
  split at ok
  · cases ok
  · cases ok; exact ⟨rfl, rfl⟩

theorem queueSent {a : Archive} {queue : List Reply} {sent : List Bytes} {r : Rerequest}
    {link : RerequestLink} (ok : send ⟨.archive a, queue, sent⟩ r.write = .ok link) :
    link.server = .archive a ∧ link.queue = queue ++ (a.answer r).map .datagram := by
  unfold send at ok
  dsimp only at ok
  rw [Rerequest.readWritten] at ok
  split at ok
  · cases ok
  · cases ok; exact ⟨rfl, rfl⟩

end RerequestLink

/- A chunk behind which the run goes on used up replies or moved an archive's cursor. -/
theorem chunkDescends (s : RecoveryState) (old link : RerequestLink) (session : Session)
    (size : UInt16) (chunk : Chunk)
    (sent : old.send (Rerequest.write
      ⟨session, (s.request size).start, (s.request size).count⟩) = .ok link)
    (waited : chunk = awaitReplies s.pipeline (s.request size) link.inbox)
    (more : (s.answered chunk).outcome? chunk = none) :
    Prod.Lex (· < ·) (· < ·)
      ((link.withInbox chunk.unread).headroom (s.answered chunk).cursor.sequence,
        (link.withInbox chunk.unread).backlog)
      (old.headroom s.cursor.sequence, old.backlog) := by
  have received := RecoveryState.receivedMore more
  have shorter : chunk.unread.length < link.inbox.length := by
    rw [waited] at received ⊢
    exact awaitShortens received
  obtain ⟨server, queue, log⟩ := old
  obtain ⟨server', queue', log'⟩ := link
  cases server with
  | script batches failAt =>
    obtain ⟨rfl, rfl⟩ := RerequestLink.backlogSent sent
    simp only [RerequestLink.withInbox, RerequestLink.failsReplies, RerequestLink.inbox,
      RerequestLink.headroom, RerequestLink.backlog, Bool.false_eq_true, if_false] at shorter ⊢
    apply Prod.Lex.right
    cases batches with
    | nil => simp at shorter ⊢; omega
    | cons batch rest => simp at shorter ⊢; omega
  | archive a =>
    obtain ⟨rfl, rfl⟩ := RerequestLink.queueSent sent
    have room := s.cursor.sequence.toNat_lt
    have moved := addSatToNat s.cursor.sequence chunk.received
    cases fails : a.failReplies with
    | true =>
      simp [RerequestLink.inbox, RerequestLink.failsReplies, fails] at waited
      rw [waited] at received
      simp [awaitReplies, Gathering.collect, Gathering.take] at received
    | false =>
      simp only [RecoveryState.answered, RerequestLink.withInbox, RerequestLink.failsReplies,
        RerequestLink.inbox, RerequestLink.headroom, RerequestLink.backlog, fails,
        Bool.false_eq_true, if_false, RecoveryCursor.advance] at shorter ⊢
      by_cases last : s.cursor.sequence.toNat = 0xFFFFFFFFFFFFFFFF
      · have stays : (addSat s.cursor.sequence chunk.received).toNat = s.cursor.sequence.toNat := by
          omega
        rw [Archive.answerAtEnd _ _ last] at shorter
        rw [stays]
        apply Prod.Lex.right
        simpa using shorter
      · apply Prod.Lex.left
        omega

def recoverFrom (session : Session) (size : UInt16) (s : RecoveryState) (link : RerequestLink) :
    RecoveryRun :=
  let request := s.request size
  let asked := FeedEvent.chunkRequested session request.start request.count
  let datagram := Rerequest.write ⟨session, request.start, request.count⟩
  match _ : link.send datagram with
  | .error fault => ⟨[asked], .failed (.send fault), link, some datagram⟩
  | .ok sent =>
    let chunk := awaitReplies s.pipeline request sent.inbox
    let next := s.answered chunk
    let rest := sent.withInbox chunk.unread
    let events := asked :: chunk.events ++
      [.chunkFinished request.start request.count chunk.received]
    match _ : next.outcome? chunk with
    | some outcome =>
      ⟨events ++ next.closing outcome, .finished (next.report session outcome), rest, none⟩
    | none =>
      let run := recoverFrom session size next rest
      { run with events := events ++ run.events }
termination_by (link.headroom s.cursor.sequence, link.backlog)
decreasing_by exact chunkDescends s link sent session size _ ‹_› rfl ‹_›

def firstHeader? : List Reception → Option Header
  | [] => none
  | .failure :: rest => firstHeader? rest
  | .datagram raw :: rest =>
    match Header.read (raw.take receiveBufferSize) with
    | .ok h => some h
    | .error _ => firstHeader? rest

def recover (plan : RecoveryPlan) (pipeline : Pipeline) (live : List Reception)
    (link : RerequestLink) : RecoveryRun :=
  match firstHeader? live with
  | none =>
    match plan.sessionTimeout with
    | some limit => ⟨[], .failed (.sessionTimeout limit), link, none⟩
    | none => ⟨[], .waiting, link, none⟩
  | some h =>
    let run := recoverFrom h.session (chunkOrDefault plan.chunkSize)
      ⟨pipeline, .start plan.start plan.total, 0⟩ link
    { run with events := .sessionAcquired h.session h.sequence :: run.events }

end MarketFeed
