import MarketFeed.Recovery.Run
import MarketFeed.Proofs.Recovery.Replies

/-! A recovery as a chain of rounds. A round sends one rerequest and works through what comes back;
behind it the run ends or goes on with the next round. The relation holds of every run, so a fact
about all runs is proved by one case for a refused send, one for the last round and one for a round
that goes on. -/
namespace MarketFeed

namespace RecoveryState

def rerequest (s : RecoveryState) (session : Session) (size : UInt16) : Rerequest :=
  ⟨session, (s.request size).start, (s.request size).count⟩

def datagram (s : RecoveryState) (session : Session) (size : UInt16) : Bytes :=
  (s.rerequest session size).write

def asked (s : RecoveryState) (session : Session) (size : UInt16) : FeedEvent :=
  .chunkRequested session (s.request size).start (s.request size).count

def chunk (s : RecoveryState) (size : UInt16) (sent : RerequestLink) : Chunk :=
  awaitReplies s.pipeline (s.request size) sent.inbox

def next (s : RecoveryState) (size : UInt16) (sent : RerequestLink) : RecoveryState :=
  s.answered (s.chunk size sent)

def roundEvents (s : RecoveryState) (session : Session) (size : UInt16) (sent : RerequestLink) :
    List FeedEvent :=
  s.asked session size :: (s.chunk size sent).events ++
    [.chunkFinished (s.request size).start (s.request size).count (s.chunk size sent).received]

def linkBehind (s : RecoveryState) (size : UInt16) (sent : RerequestLink) : RerequestLink :=
  sent.withInbox (s.chunk size sent).unread

end RecoveryState

structure Round where
  state : RecoveryState
  sent : RerequestLink
  deriving DecidableEq, Repr

namespace Round

def replies (size : UInt16) (r : Round) : List Reply :=
  Gathering.reads ⟨r.state.pipeline, 0, 0⟩ (r.state.request size) r.sent.inbox

def packets (size : UInt16) (r : Round) : List Packet := (r.replies size).filterMap Reply.packet?

end Round

inductive Recovers (session : Session) (size : UInt16) :
    RecoveryState → RerequestLink → List Round → RecoveryRun → Prop where
  | refused {s link fault} (send : link.send (s.datagram session size) = .error fault) :
      Recovers session size s link []
        ⟨[s.asked session size], .failed (.send fault), link, some (s.datagram session size)⟩
  | last {s link sent outcome} (send : link.send (s.datagram session size) = .ok sent)
      (ends : (s.next size sent).outcome? (s.chunk size sent) = some outcome) :
      Recovers session size s link [⟨s, sent⟩]
        ⟨s.roundEvents session size sent ++ (s.next size sent).closing outcome,
          .finished ((s.next size sent).report session outcome), s.linkBehind size sent, none⟩
  | more {s link sent rounds run} (send : link.send (s.datagram session size) = .ok sent)
      (goes : (s.next size sent).outcome? (s.chunk size sent) = none)
      (later : Recovers session size (s.next size sent) (s.linkBehind size sent) rounds run) :
      Recovers session size s link (⟨s, sent⟩ :: rounds)
        { run with events := s.roundEvents session size sent ++ run.events }

theorem recovers (session : Session) (size : UInt16) (s : RecoveryState) (link : RerequestLink) :
    ∃ rounds, Recovers session size s link rounds (recoverFrom session size s link) := by
  fun_induction recoverFrom session size s link with
  | case1 s link request asked datagram fault send => exact ⟨_, .refused send⟩
  | case2 s link request asked datagram sent send chunk next rest events outcome ends =>
    exact ⟨_, .last send ends⟩
  | case3 s link request asked datagram sent send chunk next rest events goes run ih =>
    obtain ⟨rounds, later⟩ := ih
    exact ⟨_, .more send goes later⟩

theorem recoversOnce {session size s link rounds others run other}
    (r : Recovers session size s link rounds run)
    (again : Recovers session size s link others other) : rounds = others ∧ run = other := by
  induction r generalizing others other with
  | refused send =>
    cases again with
    | refused same =>
      cases send.symm.trans same
      exact ⟨rfl, rfl⟩
    | last sent _ => cases send.symm.trans sent
    | more sent _ _ => cases send.symm.trans sent
  | last send ends =>
    cases again with
    | refused fails => cases send.symm.trans fails
    | last same stops =>
      cases send.symm.trans same
      cases ends.symm.trans stops
      exact ⟨rfl, rfl⟩
    | more same goes _ =>
      cases send.symm.trans same
      cases ends.symm.trans goes
  | more send goes later ih =>
    cases again with
    | refused fails => cases send.symm.trans fails
    | last same ends =>
      cases send.symm.trans same
      cases ends.symm.trans goes
    | more same on rest =>
      cases send.symm.trans same
      obtain ⟨rfl, rfl⟩ := ih rest
      exact ⟨rfl, rfl⟩

theorem recoversRun {session size s link rounds run}
    (r : Recovers session size s link rounds run) : recoverFrom session size s link = run := by
  obtain ⟨others, again⟩ := recovers session size s link
  exact (recoversOnce again r).2

namespace RecoveryState

theorem nextPipeline (s : RecoveryState) (size : UInt16) (sent : RerequestLink) :
    (s.next size sent).pipeline = s.pipeline.counted (s.chunk size sent).received := by
  obtain ⟨pipeline, received⟩ :=
    Gathering.collectAllowed ⟨s.pipeline, 0, 0⟩ (s.request size) sent.inbox
  rw [Nat.zero_add] at received
  rw [← received] at pipeline
  exact pipeline

theorem nextWorks (s : RecoveryState) (size : UInt16) (sent : RerequestLink) :
    (s.next size sent).pipeline = s.pipeline.work (Round.packets size ⟨s, sent⟩) ∧
      (s.chunk size sent).events.filter FeedEvent.ofPacket =
        s.pipeline.workEvents (Round.packets size ⟨s, sent⟩) :=
  Gathering.collectWorks _ _ _

theorem chunkTells (s : RecoveryState) (size : UInt16) (sent : RerequestLink) :
    ∀ e ∈ (s.chunk size sent).events, e.ofPacket = true ∨
      ∃ attempt, e = .replyTimeout (s.request size).start (s.request size).count attempt :=
  Gathering.collectTells _ _ _

theorem chunkWaits (s : RecoveryState) (size : UInt16) (sent : RerequestLink) :
    ∀ e ∈ (s.chunk size sent).events, e.whileWaiting = true := by
  intro e member
  rcases s.chunkTells size sent e member with told | ⟨attempt, rfl⟩
  · exact ofPacketWaits told
  · rfl

theorem chunkHeard (s : RecoveryState) (size : UInt16) (sent : RerequestLink) :
    (s.chunk size sent).events.countP FeedEvent.isMessage ≤ (s.chunk size sent).received ∧
      (s.pipeline.filter = none →
        (s.chunk size sent).events.countP FeedEvent.isMessage = (s.chunk size sent).received) := by
  have heard := Gathering.collectHeard ⟨s.pipeline, 0, 0⟩ (s.request size) sent.inbox
  rwa [Nat.zero_add] at heard

theorem roundPicks {α : Type} {pick : FeedEvent → Option α}
    (deaf : ∀ e, e.whileWaiting = true → pick e = none) (s : RecoveryState) (session : Session)
    (size : UInt16) (sent : RerequestLink) :
    (s.roundEvents session size sent).filterMap pick =
      (pick (s.asked session size)).toList ++
        (pick (.chunkFinished (s.request size).start (s.request size).count
          (s.chunk size sent).received)).toList := by
  have quiet : (s.chunk size sent).events.filterMap pick = [] :=
    List.filterMap_eq_nil_iff.mpr fun e member => deaf e (s.chunkWaits size sent e member)
  rw [roundEvents, List.filterMap_append, List.filterMap_cons, quiet]
  cases pick (s.asked session size) <;> cases finished : pick (.chunkFinished _ _ _) <;>
    simp [finished]

theorem closingTells (s : RecoveryState) (outcome : RecoveryOutcome) :
    (s.closing outcome).filter FeedEvent.ofPacket = [] := by
  cases outcome <;> rfl

theorem roundTells (s : RecoveryState) (session : Session) (size : UInt16) (sent : RerequestLink) :
    (s.roundEvents session size sent).filter FeedEvent.ofPacket =
      s.pipeline.workEvents (Round.packets size ⟨s, sent⟩) := by
  rw [← (s.nextWorks size sent).2]
  simp [roundEvents, asked, FeedEvent.ofPacket]

end RecoveryState

theorem recoversWork {session size s link rounds run}
    (r : Recovers session size s link rounds run) :
    run.events.filter FeedEvent.ofPacket =
        s.pipeline.workEvents (rounds.flatMap (Round.packets size)) ∧
      ∀ report, run.result = .finished report →
        report.decoded = (s.pipeline.work (rounds.flatMap (Round.packets size))).processed := by
  induction r with
  | refused send => exact ⟨rfl, fun _ finished => by contradiction⟩
  | @last s link sent outcome send ends =>
    refine ⟨?_, ?_⟩
    · simp [s.roundTells, RecoveryState.closingTells]
    · intro report finished
      cases finished
      simp [RecoveryState.report, (s.nextWorks size sent).1]
  | @more s link sent rounds run send goes later ih =>
    have behind := (s.nextWorks size sent).1
    refine ⟨?_, ?_⟩
    · simp [s.roundTells, ih.1, behind, Pipeline.workEventsAppend]
    · intro report finished
      rw [ih.2 report finished, behind, List.flatMap_cons, Pipeline.workAppend]

namespace RerequestLink

theorem scriptSent {link sent : RerequestLink} {batches : List (List Reply)}
    {failAt : Option (Nat × SendFault)} (script : link.server = .script batches failAt)
    {datagram : Bytes} (send : link.send datagram = .ok sent) :
    sent.server = .script batches.tail failAt ∧
      sent.inbox = link.queue ++ batches.head?.getD [] ∧
      sent.sent = link.sent ++ [datagram] := by
  unfold RerequestLink.send at send
  rw [script] at send
  dsimp only at send
  split at send
  · contradiction
  · cases send
    exact ⟨rfl, rfl, rfl⟩

theorem scriptInbox {link : RerequestLink} {batches : List (List Reply)}
    {failAt : Option (Nat × SendFault)} (script : link.server = .script batches failAt)
    (rest : List Reply) : link.withInbox rest = { link with queue := rest } := by
  simp [withInbox, failsReplies, script]

end RerequestLink

theorem Round.repliesUnread (size : UInt16) (r : Round) :
    r.replies size ++ (r.state.chunk size r.sent).unread = r.sent.inbox :=
  Gathering.readsUnread _ _ _

theorem batchesHanded (batches : List (List Reply)) (n : Nat) :
    batches.head?.getD [] ++ (batches.tail.take n).flatten = (batches.take (n + 1)).flatten := by
  cases batches <;> simp

theorem recoversReads {session size s link rounds run}
    (r : Recovers session size s link rounds run) {batches : List (List Reply)}
    {failAt : Option (Nat × SendFault)} (script : link.server = .script batches failAt) :
    run.link.sent.length = link.sent.length + rounds.length ∧
      rounds.flatMap (Round.replies size) ++ run.link.queue =
        link.queue ++ (batches.take rounds.length).flatten := by
  induction r generalizing batches with
  | refused send => simp
  | @last s link sent outcome send ends =>
    obtain ⟨server, inbox, log⟩ := RerequestLink.scriptSent script send
    have behind := RerequestLink.scriptInbox server (s.chunk size sent).unread
    have whole := batchesHanded batches 0
    have front := Round.repliesUnread size ⟨s, sent⟩
    simp only [RecoveryState.linkBehind, behind, log, List.flatMap_singleton, front, inbox]
    simpa using whole
  | @more s link sent rounds run send goes later ih =>
    obtain ⟨server, inbox, log⟩ := RerequestLink.scriptSent script send
    have behind := RerequestLink.scriptInbox server (s.chunk size sent).unread
    rw [RecoveryState.linkBehind, behind] at ih
    obtain ⟨sends, replies⟩ := ih server
    have logged : sent.sent.length = link.sent.length + 1 := by simp [log]
    have whole := batchesHanded batches rounds.length
    have front := Round.repliesUnread size ⟨s, sent⟩
    refine ⟨?_, ?_⟩
    · dsimp only [List.length_cons] at sends ⊢
      omega
    · simp only [List.flatMap_cons, List.append_assoc, replies, List.length_cons]
      rw [← List.append_assoc, front, inbox, List.append_assoc, whole]

/- The replies that a run read of a script's batches: those handed out less those still queued. -/
def RecoveryRun.read (run : RecoveryRun) (batches : List (List Reply)) : List Reply :=
  let handed := (batches.take run.link.sent.length).flatten
  handed.take (handed.length - run.link.queue.length)

section

variable {session : Session} {size : UInt16} {s : RecoveryState} {rounds : List Round}
  {run : RecoveryRun} {batches : List (List Reply)} {failAt : Option (Nat × SendFault)}

theorem recoversHanded (r : Recovers session size s (.fresh (.script batches failAt)) rounds run) :
    run.link.sent.length = rounds.length ∧
      rounds.flatMap (Round.replies size) ++ run.link.queue =
        (batches.take run.link.sent.length).flatten := by
  obtain ⟨sends, replies⟩ := recoversReads r rfl
  have count : run.link.sent.length = rounds.length := by simpa [RerequestLink.fresh] using sends
  rw [count]
  exact ⟨rfl, replies⟩

theorem recoversRead (r : Recovers session size s (.fresh (.script batches failAt)) rounds run) :
    run.read batches = rounds.flatMap (Round.replies size) := by
  simp [RecoveryRun.read, ← (recoversHanded r).2]

theorem recoversPackets
    (r : Recovers session size s (.fresh (.script batches failAt)) rounds run) :
    (run.read batches).filterMap Reply.packet? = rounds.flatMap (Round.packets size) := by
  rw [recoversRead r, List.filterMap_flatMap]
  rfl

end

theorem firstHeaderPackets (live : List Reception) :
    firstHeader? live = (live.filterMap Reception.packet?).head?.map Packet.header := by
  induction live with
  | nil => rfl
  | cons r rest ih =>
    cases found : r.packet? with
    | none =>
      rw [List.filterMap_cons_none found, ← ih]
      cases r with
      | failure => rfl
      | datagram raw =>
        obtain ⟨e, failed⟩ := Packet.readNone found
        simp [firstHeader?, failed]
    | some k =>
      rw [List.filterMap_cons_some found]
      cases r with
      | failure => contradiction
      | datagram raw =>
        have ok := (Packet.readSome found).1
        simp [firstHeader?, ok]

theorem heardFirst {live : List Reception} (heard : ∃ r ∈ live, r.packet? ≠ none) :
    ∃ h, firstHeader? live = some h := by
  obtain ⟨r, member, holds⟩ := heard
  obtain ⟨k, found⟩ := Option.ne_none_iff_exists'.mp holds
  have among : k ∈ live.filterMap Reception.packet? := List.mem_filterMap.mpr ⟨r, member, found⟩
  rw [firstHeaderPackets]
  cases packets : live.filterMap Reception.packet? with
  | nil =>
    rw [packets] at among
    contradiction
  | cons first rest => exact ⟨first.header, rfl⟩

theorem recoverHeard {live : List Reception} {h : Header} (heard : firstHeader? live = some h)
    (plan : RecoveryPlan) (pipeline : Pipeline) (link : RerequestLink) :
    ∃ rounds run, Recovers h.session (chunkOrDefault plan.chunkSize)
        ⟨pipeline, .start plan.start plan.total, 0⟩ link rounds run ∧
      recover plan pipeline live link =
        { run with events := .sessionAcquired h.session h.sequence :: run.events } := by
  obtain ⟨rounds, r⟩ := recovers h.session (chunkOrDefault plan.chunkSize)
    ⟨pipeline, .start plan.start plan.total, 0⟩ link
  exact ⟨rounds, _, r, by simp [recover, heard]⟩

theorem recoverFollows {live : List Reception} {h : Header} (heard : firstHeader? live = some h)
    {plan : RecoveryPlan} {pipeline : Pipeline} {link : RerequestLink} {rounds : List Round}
    {run : RecoveryRun}
    (r : Recovers h.session (chunkOrDefault plan.chunkSize)
      ⟨pipeline, .start plan.start plan.total, 0⟩ link rounds run) :
    recover plan pipeline live link =
      { run with events := .sessionAcquired h.session h.sequence :: run.events } := by
  have follows := recoversRun r
  simp [recover, heard, follows]

theorem recoverUnheard {live : List Reception} (unheard : firstHeader? live = none)
    (plan : RecoveryPlan) (pipeline : Pipeline) (link : RerequestLink) :
    ∃ result, recover plan pipeline live link = ⟨[], result, link, none⟩ ∧
      (plan.sessionTimeout = none ∧ result = .waiting ∨
        ∃ limit, plan.sessionTimeout = some limit ∧ result = .failed (.sessionTimeout limit)) := by
  cases limit : plan.sessionTimeout with
  | none => exact ⟨.waiting, by simp [recover, unheard, limit], .inl ⟨rfl, rfl⟩⟩
  | some most =>
    exact ⟨.failed (.sessionTimeout most), by simp [recover, unheard, limit],
      .inr ⟨most, rfl, rfl⟩⟩

theorem finishedHeard {plan : RecoveryPlan} {pipeline : Pipeline} {live : List Reception}
    {link : RerequestLink} {report : RecoveryReport}
    (finished : (recover plan pipeline live link).result = .finished report) :
    ∃ h, firstHeader? live = some h := by
  cases heard : firstHeader? live with
  | some h => exact ⟨h, rfl⟩
  | none =>
    obtain ⟨result, whole, ⟨_, rfl⟩ | ⟨limit, _, rfl⟩⟩ :=
      recoverUnheard heard plan pipeline link <;>
    simp [whole] at finished

theorem chunkPositive (configured : UInt16) : chunkOrDefault configured ≠ 0 := by
  unfold chunkOrDefault
  split
  · decide
  · assumption

end MarketFeed
