import MarketFeed.Proofs.Views
import MarketFeed.Proofs.Recovery.Rounds

/-! Recoveries that differ in the view of their messages alone. The waits count the same replies, so
the rounds ask for the same and end alike; with the live feed that makes both drivers blind to filter
and table. -/
namespace MarketFeed

variable {view : DecodedMessage → Option DecodedMessage}

namespace Gathering

structure Mirrors (view : DecodedMessage → Option DecodedMessage) (g h : Gathering) : Prop where
  pipeline : g.pipeline.Mirrors view h.pipeline
  received : h.received = g.received
  timeouts : h.timeouts = g.timeouts

variable {g h : Gathering}

theorem mirrorsTake (m : Mirrors view g h) (request : ChunkRequest) (reply : Reply) :
    Mirrors view (g.take request reply).state (h.take request reply).state ∧
      (h.take request reply).ended = (g.take request reply).ended ∧
      (h.take request reply).capReached = (g.take request reply).capReached ∧
      (h.take request reply).events = seen view (g.take request reply).events := by
  cases reply with
  | failure => exact ⟨m, rfl, rfl, rfl⟩
  | timeout =>
    rw [take, take, m.timeouts]
    exact ⟨⟨m.pipeline, m.received, rfl⟩, rfl, rfl, rfl⟩
  | datagram raw =>
    cases read : Header.read (raw.take receiveBufferSize) with
    | error e =>
      have drops (g : Gathering) :
          g.take request (.datagram raw) = ⟨{ g with timeouts := 0 }, false, false, []⟩ := by
        simp only [take, read]
      rw [drops, drops]
      exact ⟨⟨m.pipeline, m.received, rfl⟩, rfl, rfl, rfl⟩
    | ok head =>
      let k : Packet := ⟨head, raw.take receiveBufferSize⟩
      have works (g : Gathering) : g.take request (.datagram raw) =
          ⟨⟨(g.pipeline.process k.header k.raw).pipeline,
            g.received + (g.pipeline.process k.header k.raw).report.processed, 0⟩,
            (g.pipeline.process k.header k.raw).report.capReached || decide (request.count.toNat ≤
              g.received + (g.pipeline.process k.header k.raw).report.processed),
            (g.pipeline.process k.header k.raw).report.capReached,
            (g.pipeline.process k.header k.raw).events⟩ := by
        simp only [take, read, k]
      obtain ⟨behind, report⟩ := Pipeline.mirrorsProcess m.pipeline k
      rw [works, works, Pipeline.mirrorsEvents m.pipeline k, report, m.received]
      exact ⟨⟨behind, rfl, rfl⟩, rfl, rfl, rfl⟩

theorem seenTimeouts (request : ChunkRequest) (attempts : List Nat) :
    seen view (attempts.map (.replyTimeout request.start request.count ·)) =
      attempts.map (.replyTimeout request.start request.count ·) := by
  induction attempts with
  | nil => rfl
  | cons attempt rest ih => exact congrArg _ ih

theorem mirrorsCollect (m : Mirrors view g h) (request : ChunkRequest) (replies : List Reply) :
    (g.collect request replies).pipeline.Mirrors view (h.collect request replies).pipeline ∧
      h.collect request replies =
        { g.collect request replies with
          pipeline := (h.collect request replies).pipeline
          events := seen view (g.collect request replies).events } := by
  induction replies generalizing g h with
  | nil =>
    refine ⟨m.pipeline, ?_⟩
    simp only [collect, expire, m.received, m.timeouts, seenTimeouts]
  | cons reply rest ih =>
    obtain ⟨state, ended, capped, events⟩ := mirrorsTake m request reply
    cases stops : (g.take request reply).ended with
    | true =>
      rw [collectEnded stops, collectEnded (ended.trans stops), capped, events, state.received]
      exact ⟨state.pipeline, rfl⟩
    | false =>
      obtain ⟨pipeline, later⟩ := ih state
      rw [collectOn stops, collectOn (ended.trans stops), events]
      refine ⟨pipeline, ?_⟩
      rw [later, seenAppend]

end Gathering

namespace RecoveryState

structure Mirrors (view : DecodedMessage → Option DecodedMessage) (s t : RecoveryState) : Prop where
  pipeline : s.pipeline.Mirrors view t.pipeline
  cursor : t.cursor = s.cursor
  chunks : t.chunks = s.chunks

variable {s t : RecoveryState}

theorem mirrorsRequest (m : Mirrors view s t) (size : UInt16) :
    t.request size = s.request size := by
  rw [request, request, m.cursor]

theorem mirrorsDatagram (m : Mirrors view s t) (session : Session) (size : UInt16) :
    t.datagram session size = s.datagram session size := by
  rw [datagram, datagram, rerequest, rerequest, mirrorsRequest m]

theorem mirrorsChunk (m : Mirrors view s t) (size : UInt16) (sent : RerequestLink) :
    (s.chunk size sent).pipeline.Mirrors view (t.chunk size sent).pipeline ∧
      t.chunk size sent =
        { s.chunk size sent with
          pipeline := (t.chunk size sent).pipeline
          events := seen view (s.chunk size sent).events } := by
  have starts : Gathering.Mirrors view ⟨s.pipeline, 0, 0⟩ ⟨t.pipeline, 0, 0⟩ :=
    ⟨m.pipeline, rfl, rfl⟩
  rw [chunk, chunk, mirrorsRequest m]
  exact Gathering.mirrorsCollect starts _ _

theorem mirrorsNext (m : Mirrors view s t) (size : UInt16) (sent : RerequestLink) :
    Mirrors view (s.next size sent) (t.next size sent) := by
  obtain ⟨pipeline, chunk⟩ := mirrorsChunk m size sent
  refine ⟨pipeline, ?_, congrArg (· + 1) m.chunks⟩
  rw [next, next, answered, answered, chunk, m.cursor]

theorem mirrorsBehind (m : Mirrors view s t) (size : UInt16) (sent : RerequestLink) :
    t.linkBehind size sent = s.linkBehind size sent := by
  rw [linkBehind, linkBehind, (mirrorsChunk m size sent).2]

theorem mirrorsOutcome (m : Mirrors view s t) (size : UInt16) (sent : RerequestLink) :
    (t.next size sent).outcome? (t.chunk size sent) =
      (s.next size sent).outcome? (s.chunk size sent) := by
  rw [outcome?, outcome?, (mirrorsNext m size sent).cursor, (mirrorsChunk m size sent).2]

theorem mirrorsRound (m : Mirrors view s t) (session : Session) (size : UInt16)
    (sent : RerequestLink) :
    t.roundEvents session size sent = seen view (s.roundEvents session size sent) := by
  rw [roundEvents, roundEvents, asked, asked, mirrorsRequest m, (mirrorsChunk m size sent).2,
    seenAppend]
  rfl

theorem mirrorsClosing (m : Mirrors view s t) (outcome : RecoveryOutcome) :
    t.closing outcome = seen view (s.closing outcome) := by
  cases outcome <;> simp [closing, m.cursor, m.pipeline.processed, seen, FeedEvent.seen?]

theorem mirrorsReport (m : Mirrors view s t) (session : Session) (outcome : RecoveryOutcome) :
    t.report session outcome = s.report session outcome := by
  rw [report, report, m.cursor, m.chunks, m.pipeline.processed]

end RecoveryState

theorem mirrorsRecovers {session size s t link rounds run}
    (r : Recovers session size s link rounds run) (m : s.Mirrors view t) :
    ∃ others, Recovers session size t link others { run with events := seen view run.events } := by
  induction r generalizing t with
  | @refused s link fault send =>
    rw [← RecoveryState.mirrorsDatagram m] at send
    have again := Recovers.refused send
    rw [RecoveryState.asked, RecoveryState.mirrorsRequest m, RecoveryState.mirrorsDatagram m] at again
    exact ⟨_, again⟩
  | @last s link sent outcome send ends =>
    rw [← RecoveryState.mirrorsDatagram m] at send
    rw [← RecoveryState.mirrorsOutcome m] at ends
    have behind := RecoveryState.mirrorsNext m size sent
    have again := Recovers.last send ends
    rw [RecoveryState.mirrorsRound m, RecoveryState.mirrorsClosing behind, ← seenAppend,
      RecoveryState.mirrorsReport behind, RecoveryState.mirrorsBehind m] at again
    exact ⟨_, again⟩
  | @more s link sent rounds run send goes later ih =>
    rw [← RecoveryState.mirrorsDatagram m] at send
    rw [← RecoveryState.mirrorsOutcome m] at goes
    obtain ⟨others, rest⟩ := ih (RecoveryState.mirrorsNext m size sent)
    rw [← RecoveryState.mirrorsBehind m] at rest
    have again := Recovers.more send goes rest
    rw [RecoveryState.mirrorsRound m, ← seenAppend] at again
    exact ⟨_, again⟩

theorem mirrorsRecover {p q : Pipeline} (m : p.Mirrors view q) (plan : RecoveryPlan)
    (live : List Reception) (link : RerequestLink) :
    recover plan q live link =
      { recover plan p live link with events := seen view (recover plan p live link).events } := by
  cases heard : firstHeader? live with
  | none =>
    cases limit : plan.sessionTimeout <;> simp [recover, heard, limit, seen]
  | some h =>
    obtain ⟨rounds, run, r, whole⟩ := recoverHeard heard plan p link
    obtain ⟨others, again⟩ := mirrorsRecovers r (t := ⟨q, .start plan.start plan.total, 0⟩)
      ⟨m, rfl, rfl⟩
    rw [whole, recoverFollows heard again]
    rfl

theorem recoverFiltered (plan : RecoveryPlan) (table : Table) (filter : Option TypeFilter)
    (cap : Nat) (live : List Reception) (link : RerequestLink) :
    recover plan (.fresh table filter cap) live link =
      { recover plan (.fresh table none cap) live link with
        events := (recover plan (.fresh table none cap) live link).events.filter
          (FeedEvent.admitted filter) } := by
  have mirrored := mirrorsRecover ((Pipeline.fresh table none cap).filteredMirrors filter) plan live
    link
  rw [seenFiltered] at mirrored
  exact mirrored

def LiveFeed.through (f : LiveFeed) (p : Pipeline) : LiveFeed := { f with pipeline := p }

structure StepsAlike (see : List FeedEvent → List FeedEvent) (kept : PacketStatus → PacketStatus)
    (a b : LiveStep) : Prop where
  events : b.events = see a.events
  status : b.status.map kept = a.status.map kept
  tracker : b.feed.tracker = a.feed.tracker
  summary : b.feed.summary = a.feed.summary

structure RunsAlike (see : List FeedEvent → List FeedEvent) (a b : LiveRun) : Prop where
  events : b.events = see a.events
  returned : b.returned = a.returned
  tracker : b.feed.tracker = a.feed.tracker
  summary : b.feed.summary = a.feed.summary

/- No driver tells the second pipeline from the first but by the events, which are those of the first
as `see` leaves them, and by what `kept` drops from the status of a step. -/
structure ShowsAlike (see : List FeedEvent → List FeedEvent) (kept : PacketStatus → PacketStatus)
    (p q : Pipeline) : Prop where
  steps : ∀ (f : LiveFeed) (script : List Reception),
    List.Forall₂ (StepsAlike see kept) ((f.through p).steps script) ((f.through q).steps script)
  runs : ∀ (f : LiveFeed) (script : List Reception),
    RunsAlike see ((f.through p).run script) ((f.through q).run script)
  recoveries : ∀ (plan : RecoveryPlan) (live : List Reception) (link : RerequestLink),
    recover plan q live link =
      { recover plan p live link with events := see (recover plan p live link).events }

theorem mirrorsShow {p q : Pipeline} {see : List FeedEvent → List FeedEvent}
    {kept : PacketStatus → PacketStatus} (m : p.Mirrors view q) (sees : seen view = see)
    (keeps : ∀ {f g : LiveFeed}, f.Mirrors view g → ∀ r,
      (g.step r).status.map kept = (f.step r).status.map kept) :
    ShowsAlike see kept p q where
  steps := by
    intro f script
    have starts : (f.through p).Mirrors view (f.through q) := ⟨rfl, rfl, m⟩
    refine LiveFeed.mirrorsSteps (fun {a b} alike r => ?_) starts script
    obtain ⟨behind, events, _⟩ := LiveFeed.mirrorsStep alike r
    exact ⟨by rw [events, sees], keeps alike r, behind.tracker, LiveFeed.mirrorsSummary behind⟩
  runs := by
    intro f script
    obtain ⟨behind, events, returned⟩ :=
      LiveFeed.mirrorsRun (f := f.through p) (g := f.through q) ⟨rfl, rfl, m⟩ script
    exact ⟨by rw [events, sees], returned, behind.tracker, LiveFeed.mirrorsSummary behind⟩
  recoveries := by
    intro plan live link
    rw [mirrorsRecover m, sees]

theorem filterAndTableOnlyShow (p : Pipeline) (filter : TypeFilter) (table : Table) :
    ShowsAlike (List.filter (FeedEvent.admitted (some filter))) PacketStatus.unreported
        (p.filtered none) (p.filtered (some filter)) ∧
      ShowsAlike (List.map (FeedEvent.described table)) id p (p.described table) := by
  constructor
  · exact mirrorsShow (p.filteredMirrors (some filter)) (seenFiltered (some filter))
      fun alike r => (LiveFeed.mirrorsStep alike r).2.2
  · refine mirrorsShow (p.describedMirrors table) (seenDescribed table) fun {f g} alike r => ?_
    obtain ⟨_, events, status⟩ := LiveFeed.mirrorsStep alike r
    have shown : (g.step r).events.countP FeedEvent.isMessage =
        (f.step r).events.countP FeedEvent.isMessage := by
      rw [events, seenDescribed, List.countP_map]
      congr 1
      funext e
      cases e <;> rfl
    rw [Option.map_id, id, id, g.stepReports, f.stepReports, shown, ← unreportedReporting,
      ← Option.map_map, status, Option.map_map]

end MarketFeed
