import MarketFeed.Proofs.Recovery.Rounds

/-! The order in which a recovery tells its events: the session, one block for each chunk, and the
outcome. A run that fails does so between two steps: without a session nothing is told at all, and
behind a refused send stands the request alone. -/
namespace MarketFeed

structure Block where
  start : UInt64
  count : UInt16
  waited : List FeedEvent
  received : Nat
  deriving DecidableEq, Repr

namespace Block

def events (session : Session) (b : Block) : List FeedEvent :=
  .chunkRequested session b.start b.count :: b.waited ++
    [.chunkFinished b.start b.count b.received]

def Waits (b : Block) : FeedEvent → Prop
  | .replyTimeout start count _ => start = b.start ∧ count = b.count
  | .message _ _ _ | .endOfSession _ _ | .frameOverrun _ _ _ => True
  | _ => False

structure Sound (filter : Option TypeFilter) (b : Block) : Prop where
  waited : ∀ e ∈ b.waited, b.Waits e
  messages : b.waited.countP FeedEvent.isMessage ≤ b.received
  every : filter = none → b.waited.countP FeedEvent.isMessage = b.received

end Block

def RecoveryReport.closing (report : RecoveryReport) : List FeedEvent :=
  match report.outcome with
  | .capReached => [.capReached report.decoded]
  | .stalled => [.stalled report.cursor.sequence report.cursor.remaining true]
  | .endOfData => [.stalled report.cursor.sequence report.cursor.remaining false]
  | .completed => []

/- What is told behind the blocks of a run that started behind `chunks` others, and how it ends. Only
the last block may have brought nothing, and a refused send comes behind none that has. -/
inductive Closes (session : Session) (chunks : Nat) :
    List Block → List FeedEvent → RecoveryResult → Prop where
  | refused {blocks start count fault} (progress : ∀ b ∈ blocks, 1 ≤ b.received) :
      Closes session chunks blocks [.chunkRequested session start count] (.failed (.send fault))
  | finished {blocks last report} (progress : ∀ b ∈ blocks, 1 ≤ b.received)
      (named : report.session = session) (counted : report.chunks = chunks + blocks.length + 1) :
      Closes session chunks (blocks ++ [last]) report.closing (.finished report)

theorem Closes.behind {session chunks blocks tail result} {b : Block} (progress : 1 ≤ b.received)
    (closes : Closes session (chunks + 1) blocks tail result) :
    Closes session chunks (b :: blocks) tail result := by
  cases closes with
  | refused later => exact .refused (List.forall_mem_cons.mpr ⟨progress, later⟩)
  | @finished front last report later named counted =>
    have shifted : report.chunks = chunks + (b :: front).length + 1 := by
      rw [counted, List.length_cons]
      omega
    exact @finished _ _ (b :: front) last report (List.forall_mem_cons.mpr ⟨progress, later⟩) named
      shifted

def Round.block (size : UInt16) (r : Round) : Block where
  start := (r.state.request size).start
  count := (r.state.request size).count
  waited := (r.state.chunk size r.sent).events
  received := (r.state.chunk size r.sent).received

namespace RecoveryState

theorem roundBlock (s : RecoveryState) (session : Session) (size : UInt16) (sent : RerequestLink) :
    s.roundEvents session size sent = (Round.block size ⟨s, sent⟩).events session := rfl

theorem blockSound (s : RecoveryState) (size : UInt16) (sent : RerequestLink) :
    (Round.block size ⟨s, sent⟩).Sound s.pipeline.filter where
  waited := by
    intro e member
    rcases s.chunkTells size sent e member with told | ⟨attempt, rfl⟩
    · cases e <;> simp [FeedEvent.ofPacket, Block.Waits] at told ⊢
    · exact ⟨rfl, rfl⟩
  messages := (s.chunkHeard size sent).1
  every := (s.chunkHeard size sent).2

theorem closingReported {s : RecoveryState} {chunk : Chunk} {outcome : RecoveryOutcome}
    (ends : s.outcome? chunk = some outcome) (session : Session) :
    s.closing outcome = (s.report session outcome).closing := by
  unfold outcome? at ends
  split at ends
  · cases ends
    rfl
  · split at ends
    · cases bounded : s.cursor.bounded <;> rw [bounded] at ends <;> cases ends <;>
        simp [closing, RecoveryReport.closing, report, bounded]
    · split at ends
      · cases ends
        rfl
      · contradiction

end RecoveryState

theorem recoversBlocks {session size s link rounds run}
    (r : Recovers session size s link rounds run) :
    ∃ tail, run.events = (rounds.map (Round.block size)).flatMap (Block.events session) ++ tail ∧
      Closes session s.chunks (rounds.map (Round.block size)) tail run.result := by
  induction r with
  | refused send => exact ⟨_, rfl, .refused fun b member => by contradiction⟩
  | @last s link sent outcome send ends =>
    refine ⟨((s.next size sent).report session outcome).closing, ?_, ?_⟩
    · rw [RecoveryState.closingReported ends session]
      simp [s.roundBlock]
    · exact @Closes.finished _ _ [] _ _ (fun b member => by contradiction) rfl rfl
  | @more s link sent rounds run send goes later ih =>
    obtain ⟨tail, events, closes⟩ := ih
    refine ⟨tail, ?_, closes.behind (RecoveryState.receivedMore goes)⟩
    rw [events, s.roundBlock]
    simp

theorem recoversSound {session size s link rounds run}
    (r : Recovers session size s link rounds run) :
    ∀ b ∈ rounds.map (Round.block size), b.Sound s.pipeline.filter := by
  induction r with
  | refused send => exact fun b member => by contradiction
  | @last s link sent outcome send ends =>
    exact List.forall_mem_cons.mpr ⟨s.blockSound size sent, fun b member => by contradiction⟩
  | @more s link sent rounds run send goes later ih =>
    rw [s.nextPipeline] at ih
    exact List.forall_mem_cons.mpr ⟨s.blockSound size sent, ih⟩

theorem RerequestLink.scriptRefuses {link : RerequestLink} {batches : List (List Reply)}
    {failAt : Option (Nat × SendFault)} (script : link.server = .script batches failAt)
    {datagram : Bytes} {fault : SendFault} (send : link.send datagram = .error fault) :
    failAt = some (link.sent.length, fault) := by
  unfold RerequestLink.send at send
  rw [script] at send
  dsimp only at send
  split at send
  · rename_i named
    obtain ⟨found, here⟩ := Option.filter_eq_some_iff.mp named
    have number := eq_of_beq here
    cases send
    rw [found, ← number]
  · contradiction

theorem recoversRefused {session size s link rounds run}
    (r : Recovers session size s link rounds run) {batches : List (List Reply)}
    {failAt : Option (Nat × SendFault)} (script : link.server = .script batches failAt)
    {fault : SendFault} (failed : run.result = .failed (.send fault)) :
    failAt = some (run.link.sent.length, fault) := by
  induction r generalizing batches with
  | refused send =>
    cases failed
    exact RerequestLink.scriptRefuses script send
  | last send ends => contradiction
  | @more s link sent rounds run send goes later ih =>
    obtain ⟨server, _, _⟩ := RerequestLink.scriptSent script send
    have behind : (s.linkBehind size sent).server = .script batches.tail failAt := by
      rw [RecoveryState.linkBehind, RerequestLink.scriptInbox server]
      exact server
    exact ih behind failed

inductive Traced (plan : RecoveryPlan) (live : List Reception) (filter : Option TypeFilter)
    (failAt : Option (Nat × SendFault)) (run : RecoveryRun) : Prop where
  | unheard (silent : firstHeader? live = none) (events : run.events = [])
      (sent : run.link.sent = [])
      (result : plan.sessionTimeout = none ∧ run.result = .waiting ∨
        ∃ limit, plan.sessionTimeout = some limit ∧ run.result = .failed (.sessionTimeout limit))
  | heard {h : Header} {blocks : List Block} {tail : List FeedEvent}
      (acquired : firstHeader? live = some h)
      (events : run.events = .sessionAcquired h.session h.sequence ::
        (blocks.flatMap (Block.events h.session) ++ tail))
      (sound : ∀ b ∈ blocks, b.Sound filter)
      (closes : Closes h.session 0 blocks tail run.result)
      (sent : run.link.sent.length = blocks.length)
      (refused : ∀ fault, run.result = .failed (.send fault) →
        failAt = some (blocks.length, fault))

theorem recoveryTraced (plan : RecoveryPlan) (table : Table) (filter : Option TypeFilter)
    (cap : Nat) (live : List Reception) (batches : List (List Reply))
    (failAt : Option (Nat × SendFault)) :
    Traced plan live filter failAt
      (recover plan (.fresh table filter cap) live (.fresh (.script batches failAt))) := by
  cases acquired : firstHeader? live with
  | none =>
    obtain ⟨result, whole, ended⟩ := recoverUnheard acquired plan (.fresh table filter cap)
      (.fresh (.script batches failAt))
    rw [whole]
    exact .unheard acquired rfl rfl ended
  | some h =>
    obtain ⟨rounds, run, r, whole⟩ := recoverHeard acquired plan (.fresh table filter cap)
      (.fresh (.script batches failAt))
    obtain ⟨tail, events, closes⟩ := recoversBlocks r
    have sends := (recoversReads r rfl).1
    have count : run.link.sent.length =
        (rounds.map (Round.block (chunkOrDefault plan.chunkSize))).length := by
      simpa [RerequestLink.fresh] using sends
    rw [whole]
    refine .heard acquired (congrArg _ events) (recoversSound r) closes count ?_
    intro fault failed
    rw [← count]
    exact recoversRefused r rfl failed

/- The second request brings nothing, which ends the data; where it is refused, one whole block stands in
front of it. -/
theorem recoveryTracedBothEnds :
    let session : Session := ⟨List.replicate 10 0x41, rfl⟩
    let live : List Reception := [.failure, .datagram (Header.write ⟨session, 90, 0⟩)]
    let batches : List (List Reply) :=
      [[.timeout, .datagram (Header.write ⟨session, 5, 2⟩ ++ [0, 1, 0x41, 0, 0])], [.failure]]
    let plan : RecoveryPlan := ⟨5, 0, 2, none⟩
    let run (failAt : Option (Nat × SendFault)) : RecoveryRun :=
      recover plan (.fresh .empty none 0) live (.fresh (.script batches failAt))
    let refusal : Option (Nat × SendFault) := some (1, .refused)
    (run none).result = .finished ⟨.endOfData, session, ⟨7, 0, false⟩, 2, 2⟩ ∧
      Traced plan live none none (run none) ∧
      (run refusal).result = .failed (.send .refused) ∧
      Traced plan live none refusal (run refusal) := by
  intro session live batches plan run refusal
  refine ⟨by cbv, ?_, by cbv, ?_⟩
  · exact recoveryTraced plan .empty none 0 live batches none
  · exact recoveryTraced plan .empty none 0 live batches refusal

end MarketFeed
