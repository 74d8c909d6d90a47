import MarketFeed.Proofs.Recovery.Accounting

/-! Recovery from an archive that answers. Between two chunks the queue is empty and the cursor
stands at the next number not yet served, so that the packets, the short answers and the size of
the chunks leave no trace: the run brings the wanted part of the archive once and in order, up to
the cap. -/
namespace MarketFeed

/- Every reply fits the receive buffer, no send and no receive fails, and no request is answered
with nothing by design. -/
structure Archive.Faithful (a : Archive) : Prop where
  packed : 1 ≤ a.perPacket
  fits : a.perPacket ≤ 9359
  serves : a.maxReply ≠ some 0
  replies : a.failReplies = false
  sends : a.failSends = false

def Archive.held (a : Archive) (start : UInt64) : Nat :=
  if a.first ≤ start ∧ start < a.stop then a.stop.toNat - start.toNat else 0

def archived (table : Table) (session : Session) (sequence : UInt64) (n : Nat) : List FeedEvent :=
  (List.range n).map fun i =>
    .message session (sequence + UInt64.ofNat i) (decodeMessage Archive.body table)

def upTo (limit n : Nat) : Nat := if limit = 0 then n else min n limit

theorem archivedAppend (table : Table) (session : Session) (sequence : UInt64) (a b : Nat) :
    archived table session sequence a ++ archived table session (sequence + UInt64.ofNat a) b =
      archived table session sequence (a + b) := by
  simp only [archived, List.range_add, List.map_append, List.map_map, Function.comp_def,
    UInt64.ofNat_add, UInt64.add_assoc]

theorem archivedMessages {p : Pipeline} (all : p.filter = none) (h : Header) (n : Nat) :
    p.messages h 0 (List.replicate n Archive.body) = archived p.table h.session h.sequence n := by
  rw [Pipeline.messagesUnfiltered all]
  apply List.ext_getElem
  · simp [archived]
  · intro i left right
    simp [archived, Header.sequenceAt]

theorem archivedIsMessage (table : Table) (session : Session) (sequence : UInt64) (n : Nat) :
    (archived table session sequence n).filter FeedEvent.isMessage =
      archived table session sequence n := by
  rw [List.filter_eq_self]
  intro e member
  obtain ⟨i, _, rfl⟩ := List.mem_map.mp member
  rfl

theorem archivePacket {size : Nat} (fits : size ≤ 9359) (session : Session) (sequence : UInt64) :
    ∃ raw, encodePacket session sequence (List.replicate size Archive.body) = .ok raw ∧
      ∃ k, Packet.read? raw = some k ∧ k.bodies.length = size ∧
        ∀ p : Pipeline, p.filter = none →
          (p.process k.header k.raw).events =
            archived p.table session sequence (p.allowance size) := by
  have few : (List.replicate size Archive.body).length ≤ maxMessages := by
    rw [List.length_replicate, maxMessages]
    omega
  have small : ∀ body ∈ List.replicate size Archive.body, body.length ≤ 0xFFFF := by
    intro body member
    rw [List.eq_of_mem_replicate member]
    decide
  have short : headerSize + ((List.replicate size Archive.body).flatMap writeFrame).length ≤
      receiveBufferSize := by
    have each : (writeFrame Archive.body).length = 7 := rfl
    simp only [List.length_flatMap, List.map_replicate, each, List.sum_replicate_nat, headerSize,
      receiveBufferSize]
    omega
  obtain ⟨raw, written, k, found, header, going, framing⟩ :=
    Packet.readWritten few small short session sequence
  have bodies : k.bodies = List.replicate size Archive.body := by
    rw [Packet.bodies, framing, Framing.ofBodiesBodies]
  have count : k.bodies.length = size := by rw [bodies, List.length_replicate]
  have whole : k.framing.fault = none := by rw [framing, Framing.ofBodiesFault]
  refine ⟨raw, written, k, found, count, ?_⟩
  intro p all
  have few := p.allowanceLe size
  rw [Pipeline.processedEvents going, Pipeline.cutWhole whole, List.append_nil, Pipeline.taken,
    count, bodies, List.take_replicate, Nat.min_eq_left few, archivedMessages all, header]

theorem packetsNext {perPacket : Nat} (packed : 1 ≤ perPacket) (fits : perPacket ≤ 9359)
    (session : Session) (sequence : UInt64) (wanted : Nat) :
    ∃ size raw k, 1 ≤ size ∧ size ≤ wanted + 1 ∧
      Archive.packets perPacket session sequence (wanted + 1) =
        raw :: Archive.packets perPacket session (sequence + UInt64.ofNat size)
          (wanted + 1 - size) ∧
      (Reply.datagram raw).packet? = some k ∧ k.bodies.length = size ∧
      ∀ p : Pipeline, p.filter = none →
        (p.process k.header k.raw).events =
          archived p.table session sequence (p.allowance size) := by
  have few : min (wanted + 1) (max 1 perPacket) ≤ 9359 := by omega
  obtain ⟨raw, written, k, found, count, told⟩ := archivePacket few session sequence
  refine ⟨_, raw, k, ?_, Nat.min_le_left _ _, ?_, found, count, told⟩
  · omega
  · rw [Archive.packets, written]

/- The answer to a request is worked through packet by packet. The induction is on the messages
still to come; they stay within the request, so nothing but the cap ends the wait before them. -/
theorem collectArchive {perPacket : Nat} (packed : 1 ≤ perPacket) (fits : perPacket ≤ 9359)
    (session : Session) (request : ChunkRequest) {g : Gathering} (all : g.pipeline.filter = none)
    (uncapped : g.pipeline.capReached = false) (sequence : UInt64) (wanted : Nat)
    (within : g.received + wanted ≤ request.count.toNat) :
    let chunk := g.collect request
      ((Archive.packets perPacket session sequence wanted).map Reply.datagram)
    chunk.received = g.received + g.pipeline.allowance wanted ∧
      (chunk.capReached = false → chunk.unread = []) ∧
      chunk.events.filter FeedEvent.isMessage =
        archived g.pipeline.table session sequence (g.pipeline.allowance wanted) := by
  induction wanted using Nat.strongRecOn generalizing g sequence with
  | _ wanted ih =>
    cases wanted with
    | zero =>
      simp only [Archive.packets, List.map_nil, Pipeline.allowanceZero]
      refine ⟨rfl, fun _ => rfl, ?_⟩
      rw [archived, List.range_zero, List.map_nil, List.filter_eq_nil_iff]
      intro e member
      obtain ⟨attempt, _, rfl⟩ := List.mem_map.mp member
      exact Bool.false_ne_true
    | succ wanted =>
      obtain ⟨size, raw, k, nonempty, sized, split, found, count, told⟩ :=
        packetsNext packed fits session sequence wanted
      have taken : g.pipeline.taken k = g.pipeline.allowance size := by rw [Pipeline.taken, count]
      have step := Gathering.takePacket found g request
      have events := told g.pipeline all
      have whole := g.pipeline.allowanceAdd size (wanted + 1 - size)
      rw [Nat.add_sub_cancel' sized] at whole
      rw [taken, events] at step
      simp only [split, List.map_cons]
      cases capped : (g.pipeline.counted (g.pipeline.allowance size)).capReached with
      | true =>
        have ended : (g.take request (.datagram raw)).ended = true := by simp [step, capped]
        rw [Pipeline.allowanceCapped capped, Nat.add_zero] at whole
        rw [Gathering.collectEnded ended, step, whole]
        exact ⟨rfl, by simp [capped], archivedIsMessage _ _ _ _⟩
      | false =>
        have counted := Pipeline.allowanceWhole capped
        rw [counted] at step whole capped
        by_cases answered : request.count.toNat ≤ g.received + size
        · have final : size = wanted + 1 := by omega
          have ended : (g.take request (.datagram raw)).ended = true := by simp [step, answered]
          rw [final] at counted step
          rw [Gathering.collectEnded ended, step, counted, final, Nat.sub_self]
          exact ⟨rfl, fun _ => by simp [Archive.packets], archivedIsMessage _ _ _ _⟩
        · have goes : (g.take request (.datagram raw)).ended = false := by
            simp [step, capped, answered]
          rw [Gathering.collectOn goes, step]
          obtain ⟨received, unread, later⟩ := ih (wanted + 1 - size) (by omega)
            (g := ⟨g.pipeline.counted size, g.received + size, 0⟩) all capped
            (sequence + UInt64.ofNat size) (by simp only; omega)
          refine ⟨?_, unread, ?_⟩
          · rw [received, whole, Nat.add_assoc]
          · rw [List.filter_append, archivedIsMessage, later, whole]
            exact archivedAppend _ _ _ _ _

namespace Archive

def served (a : Archive) (r : Rerequest) : Nat := min (a.wanted r) (a.available r)

theorem availableHeld (a : Archive) (r : Rerequest) : a.available r = a.held r.start := by
  simp only [available, held, UInt64.lt_iff_toNat_lt, UInt64.le_iff_toNat_le]
  split <;> split <;> omega

theorem servedBounds {a : Archive} (faithful : a.Faithful) {r : Rerequest}
    (asked : 0 < r.count.toNat) :
    a.served r ≤ r.count.toNat ∧ a.served r ≤ a.held r.start ∧
      (a.served r = 0 → a.held r.start = 0) := by
  have wanted : a.wanted r ≤ r.count.toNat ∧ 0 < a.wanted r := by
    unfold Archive.wanted
    cases most : a.maxReply with
    | none => exact ⟨Nat.le_refl _, asked⟩
    | some n =>
      have serves : 0 < n.toNat := by
        apply Nat.pos_of_ne_zero
        intro zero
        have nothing : n = 0 := UInt16.toNat_inj.mp zero
        exact faithful.serves (by rw [most, nothing])
      simp only
      omega
  rw [served, availableHeld]
  omega

theorem heldMoved {a : Archive} {start : UInt64} {n : Nat} (within : n ≤ a.held start) :
    (addSat start n).toNat = start.toNat + n ∧ addSat start n = start + UInt64.ofNat n ∧
      a.held (addSat start n) = a.held start - n := by
  have moved := addSatToNat start n
  have first := start.toNat_lt
  have stop := a.stop.toNat_lt
  have inside : (addSat start n).toNat = start.toNat + n := by
    unfold held at within
    split at within <;> omega
  have same : addSat start n = start + UInt64.ofNat n := by
    apply UInt64.toNat_inj.mp
    have fits := (addSat start n).toNat_lt
    rw [inside, shiftedToNat (by omega)]
  refine ⟨inside, same, ?_⟩
  simp only [held, UInt64.lt_iff_toNat_lt, UInt64.le_iff_toNat_le] at within ⊢
  split at within <;> split <;> omega

end Archive

namespace RecoveryState

def ahead (a : Archive) (total : Nat) (s : RecoveryState) : Nat :=
  if total = 0 then a.held s.cursor.sequence
  else min (a.held s.cursor.sequence) (total - s.pipeline.processed)

structure Ready (a : Archive) (s : RecoveryState) (link : RerequestLink) : Prop where
  server : link.server = .archive a
  queue : link.queue = []
  all : s.pipeline.filter = none

variable {a : Archive} {start : UInt64} {total cap : Nat} {s : RecoveryState} {size : UInt16}
  {link sent : RerequestLink} {session : Session}

theorem archiveSends (faithful : a.Faithful) (ready : s.Ready a link) (session : Session)
    (size : UInt16) :
    ∃ sent, link.send (s.datagram session size) = .ok sent ∧ sent.server = .archive a ∧
      sent.inbox = (Archive.packets a.perPacket session s.cursor.sequence
        (a.served (s.rerequest session size))).map .datagram := by
  have read : Rerequest.read (s.datagram session size) = .ok (s.rerequest session size) :=
    Rerequest.readWritten _
  refine ⟨⟨.archive a, (a.answer (s.rerequest session size)).map .datagram,
    link.sent ++ [s.datagram session size]⟩, ?_, rfl, ?_⟩
  · simp [RerequestLink.send, ready.server, faithful.sends, read, ready.queue]
  · simp [RerequestLink.inbox, RerequestLink.failsReplies, faithful.replies, Archive.answer,
      Archive.served, rerequest, request]

theorem servedAhead (faithful : a.Faithful) (t : Tracks start total cap s) (u : Underway total s)
    (positive : size ≠ 0) (session : Session) :
    a.served (s.rerequest session size) ≤ s.ahead a total ∧
      a.served (s.rerequest session size) ≤ (s.request size).count.toNat ∧
      (a.served (s.rerequest session size) = 0 → s.ahead a total = 0) := by
  obtain ⟨asks, within⟩ := requestWanted t u positive
  obtain ⟨few, held, dry⟩ := Archive.servedBounds faithful (r := s.rerequest session size) asks
  change a.served (s.rerequest session size) ≤ (s.request size).count.toNat at few
  change a.served (s.rerequest session size) ≤ a.held s.cursor.sequence at held
  change a.served (s.rerequest session size) = 0 → a.held s.cursor.sequence = 0 at dry
  unfold ahead
  by_cases whole : total = 0
  · rw [if_pos whole]
    exact ⟨held, few, dry⟩
  · have request := within whole
    rw [if_neg whole]
    exact ⟨by omega, few, fun none => by have := dry none; omega⟩

theorem archiveChunk (faithful : a.Faithful) (t : Tracks start total cap s) (u : Underway total s)
    (positive : size ≠ 0) (ready : s.Ready a link)
    (send : link.send (s.datagram session size) = .ok sent) :
    (s.chunk size sent).received = s.pipeline.allowance (a.served (s.rerequest session size)) ∧
      ((s.chunk size sent).capReached = false →
        (s.next size sent).Ready a (s.linkBehind size sent)) ∧
      (s.chunk size sent).events.filter FeedEvent.isMessage =
        archived s.pipeline.table session s.cursor.sequence (s.chunk size sent).received := by
  obtain ⟨behind, sends, server, inbox⟩ := archiveSends faithful ready session size
  obtain rfl : sent = behind := Except.ok.inj (send.symm.trans sends)
  obtain ⟨received, unread, told⟩ := collectArchive faithful.packed faithful.fits session
    (s.request size) (g := ⟨s.pipeline, 0, 0⟩) ready.all u.uncapped s.cursor.sequence
    (a.served (s.rerequest session size))
    (by rw [Nat.zero_add]; exact (servedAhead faithful t u positive session).2.1)
  rw [← inbox] at received unread told
  rw [Nat.zero_add] at received
  have counted : (s.chunk size sent).received =
      s.pipeline.allowance (a.served (s.rerequest session size)) := received
  refine ⟨counted, ?_, by rw [counted]; exact told⟩
  intro uncapped
  refine ⟨?_, ?_, ?_⟩
  · simp [linkBehind, RerequestLink.withInbox, RerequestLink.failsReplies, server, faithful.replies]
  · have empty : (s.chunk size sent).unread = [] := unread uncapped
    simp [linkBehind, RerequestLink.withInbox, RerequestLink.failsReplies, server,
      faithful.replies, empty]
  · rw [nextPipeline]
    exact ready.all

theorem messagesRound (s : RecoveryState) (session : Session) (size : UInt16) (sent : RerequestLink) :
    (s.roundEvents session size sent).filter FeedEvent.isMessage =
      (s.chunk size sent).events.filter FeedEvent.isMessage := by
  simp [roundEvents, asked, FeedEvent.isMessage]

theorem messagesClosing (s : RecoveryState) (outcome : RecoveryOutcome) :
    (s.closing outcome).filter FeedEvent.isMessage = [] := by
  cases outcome <;> rfl

theorem aheadMoved {received : Nat} (within : received ≤ s.ahead a total)
    (counts : (s.chunk size sent).received = received) :
    (s.next size sent).ahead a total = s.ahead a total - received ∧
      (s.next size sent).cursor.sequence = s.cursor.sequence + UInt64.ofNat received := by
  have held : received ≤ a.held s.cursor.sequence := by
    unfold ahead at within
    split at within <;> omega
  obtain ⟨_, moved, left⟩ := Archive.heldMoved held
  have cursor : (s.next size sent).cursor.sequence = addSat s.cursor.sequence received := by
    rw [← counts]
    rfl
  have processed := s.nextCount size sent
  refine ⟨?_, cursor.trans moved⟩
  simp only [ahead, cursor, left, processed, counts]
  split <;> omega

theorem lastShort {outcome : RecoveryOutcome}
    (ends : (s.next size sent).outcome? (s.chunk size sent) = some outcome)
    (uncapped : (s.chunk size sent).capReached = false) :
    (s.chunk size sent).received = 0 ∨ (s.next size sent).cursor.isDone = true := by
  unfold outcome? at ends
  rw [if_neg (by simp [uncapped])] at ends
  split at ends
  · exact .inl (by assumption)
  · split at ends
    · exact .inr (by assumption)
    · contradiction

theorem aheadLast (faithful : a.Faithful) (t : Tracks start total cap s) (u : Underway total s)
    (positive : size ≠ 0) (ready : s.Ready a link)
    (send : link.send (s.datagram session size) = .ok sent) {outcome : RecoveryOutcome}
    (ends : (s.next size sent).outcome? (s.chunk size sent) = some outcome) :
    (s.chunk size sent).received = s.pipeline.allowance (s.ahead a total) := by
  obtain ⟨served, _, dry⟩ := servedAhead faithful t u positive session
  obtain ⟨received, _, _⟩ := archiveChunk faithful t u positive ready send
  have whole := s.pipeline.allowanceAdd (a.served (s.rerequest session size))
    (s.ahead a total - a.served (s.rerequest session size))
  rw [Nat.add_sub_cancel' served, ← received, ← nextPipeline] at whole
  rw [whole]
  have cap := chunkCap t u positive sent
  cases capped : (s.next size sent).pipeline.capReached with
  | true => rw [Pipeline.allowanceCapped capped, Nat.add_zero]
  | false =>
    have all := capped
    rw [nextPipeline, received] at all
    rw [Pipeline.allowanceWhole all] at received
    have emptied : s.ahead a total - a.served (s.rerequest session size) = 0 := by
      rcases lastShort ends (cap.trans capped) with nothing | done
      · rw [dry (received.symm.trans nothing)]
        exact Nat.zero_sub _
      · obtain ⟨wanted, enough⟩ := (isDoneIff (nextTracks t size sent)).mp done
        have counted := s.nextCount size sent
        simp only [ahead, if_neg wanted]
        omega
    rw [emptied, Pipeline.allowanceZero, Nat.add_zero]

end RecoveryState

theorem recoversArchive {a : Archive} (faithful : a.Faithful) {session size s link rounds run}
    (r : Recovers session size s link rounds run) (positive : size ≠ 0) {start : UInt64}
    {total cap : Nat} (t : Tracks start total cap s) (u : Underway total s)
    (ready : s.Ready a link) :
    ∃ report, run.result = .finished report ∧
      report.decoded = s.pipeline.processed + s.pipeline.allowance (s.ahead a total) ∧
      run.events.filter FeedEvent.isMessage =
        archived s.pipeline.table session s.cursor.sequence
          (s.pipeline.allowance (s.ahead a total)) := by
  induction r with
  | @refused s link fault send =>
    obtain ⟨sent, sends, _⟩ := RecoveryState.archiveSends faithful ready session size
    rw [sends] at send
    contradiction
  | @last s link sent outcome send ends =>
    obtain ⟨_, _, told⟩ := RecoveryState.archiveChunk faithful t u positive ready send
    have received := RecoveryState.aheadLast faithful t u positive ready send ends
    rw [received] at told
    refine ⟨_, rfl, ?_, ?_⟩
    · rw [← received]
      exact s.nextCount size sent
    · rw [List.filter_append, RecoveryState.messagesRound, RecoveryState.messagesClosing, told,
        List.append_nil]
  | @more s link sent rounds run send goes later ih =>
    obtain ⟨received, behind, told⟩ := RecoveryState.archiveChunk faithful t u positive ready send
    obtain ⟨served, _, _⟩ := RecoveryState.servedAhead faithful t u positive session
    have going := RecoveryState.nextUnderway t u positive goes
    have uncapped := going.uncapped
    have cap := RecoveryState.chunkCap t u positive sent
    rw [RecoveryState.nextPipeline, received] at uncapped
    have whole := Pipeline.allowanceWhole uncapped
    rw [whole] at received
    obtain ⟨left, moved⟩ := RecoveryState.aheadMoved served received
    obtain ⟨report, finished, decoded, messages⟩ :=
      ih (RecoveryState.nextTracks t size sent) going (behind (cap.trans going.uncapped))
    have split := s.pipeline.allowanceAdd (a.served (s.rerequest session size))
      (s.ahead a total - a.served (s.rerequest session size))
    rw [Nat.add_sub_cancel' served, whole] at split
    rw [RecoveryState.nextPipeline, received, left] at decoded messages
    refine ⟨report, finished, ?_, ?_⟩
    · rw [decoded, split, ← Nat.add_assoc]
      rfl
    · rw [List.filter_append, RecoveryState.messagesRound, told, messages, received, moved, split,
        ← archivedAppend]
      rfl

def brought (plan : RecoveryPlan) (cap held : Nat) : Nat := upTo cap (upTo plan.total held)

theorem archivedNumbers {events : List FeedEvent} {table : Table} {session : Session}
    {start : UInt64} {n : Nat}
    (messages : events.filter FeedEvent.isMessage = archived table session start n)
    (fits : start.toNat + n ≤ 0xFFFFFFFFFFFFFFFF) :
    events.filterMap FeedEvent.numbered? =
      (List.range' start.toNat n).map fun number => (session, number) := by
  have only := numberedKept (fun _ _ _ => (rfl : FeedEvent.isMessage _ = true)) events
  have numbers : (archived table session start n).filterMap FeedEvent.numbered? =
      (List.range n).map fun i => (session, (start + UInt64.ofNat i).toNat) := by
    rw [archived, List.filterMap_map, ← List.filterMap_eq_map]
    rfl
  rw [← only, messages, numbers, List.range'_eq_map_range, List.map_map]
  apply List.map_congr_left
  intro i member
  have below := List.mem_range.mp member
  rw [shiftedToNat (by omega), Function.comp_apply]

theorem broughtAhead (plan : RecoveryPlan) (table : Table) (cap : Nat) (a : Archive) :
    (Pipeline.fresh table none cap).allowance
        (RecoveryState.ahead a plan.total
          ⟨.fresh table none cap, .start plan.start plan.total, 0⟩) =
      brought plan cap (a.held plan.start) := rfl

theorem broughtBounds (plan : RecoveryPlan) (cap held : Nat) :
    brought plan cap held ≤ held ∧ (plan.total ≠ 0 → brought plan cap held ≤ plan.total) := by
  unfold brought upTo
  split <;> split <;> omega

theorem Archive.heldFits (a : Archive) (start : UInt64) :
    start.toNat + a.held start ≤ 0xFFFFFFFFFFFFFFFF := by
  have first := start.toNat_lt
  have stop := a.stop.toNat_lt
  unfold held
  split <;> omega

theorem verdictWithin {total cap decoded : Nat} (within : total ≠ 0 → decoded ≤ total) :
    verdict total cap decoded =
      if cap ≠ 0 ∧ decoded = cap then .capReached
      else if total ≠ 0 ∧ decoded = total then .completed
      else if total ≠ 0 then .stalled
      else .endOfData := by
  have whole : (total ≠ 0 ∧ total ≤ decoded) ↔ (total ≠ 0 ∧ decoded = total) :=
    and_congr_right fun wanted => by have := within wanted; omega
  simp only [verdict, whole]

structure Exact (plan : RecoveryPlan) (table : Table) (cap count : Nat) (session : Session)
    (events : List FeedEvent) (report : RecoveryReport) : Prop where
  messages : events.filter FeedEvent.isMessage = archived table session plan.start count
  numbers : events.filterMap FeedEvent.numbered? =
    (List.range' plan.start.toNat count).map fun number => (session, number)
  decoded : report.decoded = count
  sequence : report.cursor.sequence.toNat = plan.start.toNat + count
  remaining : plan.total ≠ 0 → report.cursor.remaining = plan.total - count
  outcome : report.outcome =
    if cap ≠ 0 ∧ count = cap then .capReached
    else if plan.total ≠ 0 ∧ count = plan.total then .completed
    else if plan.total ≠ 0 then .stalled
    else .endOfData

theorem recoveryExact (plan : RecoveryPlan) (table : Table) (cap : Nat) {live : List Reception}
    {h : Header} (heard : firstHeader? live = some h) {a : Archive} (faithful : a.Faithful) :
    ∃ report,
      (recover plan (.fresh table none cap) live (.fresh (.archive a))).result = .finished report ∧
      Exact plan table cap (brought plan cap (a.held plan.start)) h.session
        (recover plan (.fresh table none cap) live (.fresh (.archive a))).events report := by
  obtain ⟨rounds, run, r, whole⟩ := recoverHeard heard plan (.fresh table none cap)
    (.fresh (.archive a))
  have t := startTracks table none cap plan.start plan.total
  have u := startUnderway table none cap plan.start plan.total
  have positive := chunkPositive plan.chunkSize
  obtain ⟨report, finished, decoded, messages⟩ :=
    recoversArchive faithful r positive t u ⟨rfl, rfl, rfl⟩
  obtain ⟨final, tracks, rfl, _⟩ := recoversAccounts r positive t u finished
  obtain ⟨few, within⟩ := broughtBounds plan cap (a.held plan.start)
  have fits := a.heldFits plan.start
  have count : final.pipeline.processed = brought plan cap (a.held plan.start) := by
    rw [← broughtAhead plan table cap a]
    exact decoded.trans (Nat.zero_add _)
  rw [broughtAhead] at messages
  have told : (.sessionAcquired h.session h.sequence :: run.events).filter FeedEvent.isMessage =
      archived table h.session plan.start (brought plan cap (a.held plan.start)) := messages
  rw [whole]
  refine ⟨_, finished, ⟨told, archivedNumbers told (by omega), count, ?_, ?_, ?_⟩⟩
  · have stands := tracks.sequence
    rw [count] at stands
    exact stands.trans (by omega)
  · intro wanted
    rw [← count]
    exact tracks.remaining wanted
  · rw [← verdictWithin within, ← count]
    rfl

/- Five messages are wanted of the seven behind number 101; the archive answers three at a time, in
packets of two, and the cap stops the run behind the fourth. -/
theorem recoveryExactShortAnswers :
    let a : Archive := ⟨100, 108, 2, some 3, false, false⟩
    let h : Header := ⟨⟨List.replicate 10 0x41, rfl⟩, 900, 0⟩
    ∃ report,
      (recover ⟨101, 5, 0, none⟩ (.fresh .empty none 4) [.failure, .datagram h.write]
        (.fresh (.archive a))).result = .finished report ∧
      Exact ⟨101, 5, 0, none⟩ .empty 4 4 h.session
        (recover ⟨101, 5, 0, none⟩ (.fresh .empty none 4) [.failure, .datagram h.write]
          (.fresh (.archive a))).events report :=
  recoveryExact ⟨101, 5, 0, none⟩ .empty 4 rfl
    ⟨by decide, by decide, by decide, rfl, rfl⟩

end MarketFeed
