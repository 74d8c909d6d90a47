import MarketFeed.Proofs.Recovery.Cap

/-! The order of the replies to one request. Where each reply brings a message and all of them no
more than was asked for, only the last can end the wait, whichever it is: each wait reads its whole
batch, counts the same and leaves nothing to the next. -/
namespace MarketFeed

structure Answers (batch : List Reply) (count : Nat) : Prop where
  holds : ∀ reply ∈ batch, ∃ k, reply.packet? = some k ∧ 0 < k.bodies.length
  few : framesIn batch ≤ count

theorem framesPermuted {a b : List Reply} (order : a.Perm b) : framesIn a = framesIn b :=
  ((order.filterMap _).map _).sum_nat

theorem framesCons {reply : Reply} {k : Packet} (found : reply.packet? = some k)
    (rest : List Reply) : framesIn (reply :: rest) = k.bodies.length + framesIn rest := by
  simp [framesIn, found]

theorem Answers.permuted {a b : List Reply} {count : Nat} (answers : Answers a count)
    (order : a.Perm b) : Answers b count where
  holds := fun reply member => answers.holds reply (order.mem_iff.mpr member)
  few := framesPermuted order ▸ answers.few

theorem framesSome {batch : List Reply}
    (holds : ∀ reply ∈ batch, ∃ k, reply.packet? = some k ∧ 0 < k.bodies.length)
    (none : framesIn batch = 0) : batch = [] := by
  cases batch with
  | nil => rfl
  | cons reply rest =>
    obtain ⟨k, found, some⟩ := holds reply List.mem_cons_self
    rw [framesCons found] at none
    omega

namespace Pipeline

theorem workEventsUncapped {p : Pipeline} (free : p.cap = 0) (packets : List Packet) :
    p.workEvents packets = packets.flatMap fun k => (p.process k.header k.raw).events := by
  induction packets generalizing p with
  | nil => rfl
  | cons k rest ih =>
    have same (j : Packet) : ((p.counted (p.taken k)).process j.header j.raw).events =
        (p.process j.header j.raw).events := (processUncounted free (p.processed + p.taken k) j).2
    rw [workEvents, (p.processedPacket k).1, ih (p := p.counted (p.taken k)) free, List.flatMap_cons]
    simp only [same]

theorem workEventsPermuted {p : Pipeline} (free : p.cap = 0) {a b : List Packet}
    (order : a.Perm b) : (p.workEvents a).Perm (p.workEvents b) := by
  rw [workEventsUncapped free, workEventsUncapped free]
  exact order.flatMap_right _

end Pipeline

def lapses (request : ChunkRequest) (received : Nat) : List FeedEvent :=
  if received < request.count.toNat then
    (List.range' 1 maxTimeouts).map (.replyTimeout request.start request.count ·)
  else []

namespace Gathering

/- The count reaches what was asked for with the last frame or not at all; before it each reply
leaves room for those behind it. -/
theorem collectAnswers {g : Gathering} (free : g.pipeline.cap = 0) (patient : g.timeouts = 0)
    {request : ChunkRequest} (short : g.received < request.count.toNat) {batch : List Reply}
    (holds : ∀ reply ∈ batch, ∃ k, reply.packet? = some k ∧ 0 < k.bodies.length)
    (few : g.received + framesIn batch ≤ request.count.toNat) :
    g.collect request batch =
      ⟨g.pipeline.counted (framesIn batch), g.received + framesIn batch, false,
        g.pipeline.workEvents (batch.filterMap Reply.packet?) ++
          lapses request (g.received + framesIn batch), []⟩ := by
  induction batch generalizing g with
  | nil =>
    have lapsed : lapses request g.received =
        (List.range' 1 maxTimeouts).map (.replyTimeout request.start request.count ·) := if_pos short
    simp [collect, expire, framesIn, patient, Pipeline.workEvents, Pipeline.countedZero, lapsed]
  | cons reply rest ih =>
    obtain ⟨⟨k, found, some⟩, later⟩ := List.forall_mem_cons.mp holds
    rw [framesCons found] at few ⊢
    have taken := takePacket found g request
    rw [Pipeline.takenUnlimited free] at taken
    have uncapped : (g.pipeline.counted k.bodies.length).capReached = false :=
      (Pipeline.uncappedIff _).mpr (.inl free)
    have work : g.pipeline.workEvents ((reply :: rest).filterMap Reply.packet?) =
        (g.pipeline.process k.header k.raw).events ++
          (g.pipeline.counted k.bodies.length).workEvents (rest.filterMap Reply.packet?) := by
      rw [List.filterMap_cons_some found, Pipeline.workEvents, (g.pipeline.processedPacket k).1,
        Pipeline.takenUnlimited free]
    rw [work]
    cases ended : (g.take request reply).ended with
    | true =>
      have all : request.count.toNat ≤ g.received + k.bodies.length := by
        rw [taken, uncapped, Bool.false_or] at ended
        exact of_decide_eq_true ended
      obtain rfl := framesSome later (by omega)
      have quiet : lapses request (g.received + k.bodies.length) = [] := if_neg (by omega)
      rw [collectEnded ended, taken, uncapped]
      simp [framesIn, Pipeline.workEvents, quiet]
    | false =>
      have room := (takeGoes short ended).2
      rw [taken] at room
      have onward := ih
        (g := ⟨g.pipeline.counted k.bodies.length, g.received + k.bodies.length, 0⟩) free rfl room
        later (by rwa [← Nat.add_assoc] at few)
      rw [collectOn ended, taken, onward, Pipeline.countedAgain, Nat.add_assoc, List.append_assoc]

end Gathering

namespace RerequestLink

def reordered (l : RerequestLink) (others : List (List Reply))
    (failAt : Option (Nat × SendFault)) : RerequestLink :=
  { l with server := .script others failAt }

def handing (sent : RerequestLink) (others : List (List Reply))
    (failAt : Option (Nat × SendFault)) : RerequestLink :=
  { sent with server := .script others.tail failAt, queue := others.head?.getD [] }

variable {link : RerequestLink} {batches : List (List Reply)} {failAt : Option (Nat × SendFault)}

theorem reorderedSends (script : link.server = .script batches failAt) (empty : link.queue = [])
    {datagram : Bytes} {sent : RerequestLink} (send : link.send datagram = .ok sent)
    (others : List (List Reply)) :
    (link.reordered others failAt).send datagram = .ok (sent.handing others failAt) := by
  unfold RerequestLink.send at send ⊢
  rw [script] at send
  dsimp only [reordered] at send ⊢
  split at send
  · contradiction
  · cases send
    rw [empty]
    rfl

theorem reorderedRefuses (script : link.server = .script batches failAt) {datagram : Bytes}
    {fault : SendFault} (send : link.send datagram = .error fault) (others : List (List Reply)) :
    (link.reordered others failAt).send datagram = .error fault := by
  unfold RerequestLink.send at send ⊢
  rw [script] at send
  dsimp only [reordered] at send ⊢
  split at send
  · cases send
    rfl
  · contradiction

end RerequestLink

def FeedEvent.endsChunk : FeedEvent → Bool
  | .chunkFinished _ _ _ => true
  | _ => false

def messagesByChunk (events : List FeedEvent) : List (List FeedEvent) :=
  (events.splitOnP FeedEvent.endsChunk).map (List.filter FeedEvent.isMessage)

structure Reordered (run other : RecoveryRun) : Prop where
  requests : other.link.sent = run.link.sent
  told : other.events.filter (fun e => !e.ofPacket) = run.events.filter (fun e => !e.ofPacket)
  result : other.result = run.result
  unread : run.link.queue = [] ∧ other.link.queue = []
  messages : List.Forall₂ List.Perm (messagesByChunk run.events) (messagesByChunk other.events)

theorem Reordered.same {events : List FeedEvent} {result : RecoveryResult} {a b : RerequestLink}
    {refused : Option Bytes} (requests : b.sent = a.sent) (unread : a.queue = [] ∧ b.queue = []) :
    Reordered ⟨events, result, a, refused⟩ ⟨events, result, b, refused⟩ where
  requests := requests
  told := rfl
  result := rfl
  unread := unread
  messages := List.forall₂_same.mpr fun _ _ => .refl _

theorem messagesRoundFirst (s : RecoveryState) (session : Session) (size : UInt16)
    (sent : RerequestLink) (later : List FeedEvent) :
    messagesByChunk (s.roundEvents session size sent ++ later) =
      (s.chunk size sent).events.filter FeedEvent.isMessage :: messagesByChunk later := by
  have inside : ∀ e ∈ s.asked session size :: (s.chunk size sent).events, e.endsChunk = false := by
    refine List.forall_mem_cons.mpr ⟨rfl, fun e member => ?_⟩
    have waits := s.chunkWaits size sent e member
    cases e <;> simp [FeedEvent.whileWaiting, FeedEvent.endsChunk] at waits ⊢
  have spread : s.roundEvents session size sent ++ later =
      (s.asked session size :: (s.chunk size sent).events) ++
        .chunkFinished (s.request size).start (s.request size).count
          (s.chunk size sent).received :: later := by
    simp [RecoveryState.roundEvents]
  unfold messagesByChunk
  rw [spread, List.splitOnP_append_cons_of_forall_mem inside _ rfl]
  rfl

theorem messagesBehind {e : FeedEvent} (silent : e.isMessage = false) (inside : e.endsChunk = false)
    (events : List FeedEvent) : messagesByChunk (e :: events) = messagesByChunk events := by
  unfold messagesByChunk
  rw [List.splitOnP_cons_eq_if_modifyHead, if_neg (by simp [inside])]
  cases List.splitOnP FeedEvent.endsChunk events with
  | nil => rfl
  | cons first rest => simp [silent]

namespace RecoveryState

variable {s : RecoveryState} {size : UInt16} {sent other : RerequestLink}

theorem chunkAnswers (free : s.pipeline.cap = 0) (asks : 0 < (s.request size).count.toNat)
    (answers : Answers sent.inbox (s.request size).count.toNat) :
    s.chunk size sent =
      ⟨s.pipeline.counted (framesIn sent.inbox), framesIn sent.inbox, false,
        s.pipeline.workEvents (sent.inbox.filterMap Reply.packet?) ++
          lapses (s.request size) (framesIn sent.inbox), []⟩ := by
  have whole := Gathering.collectAnswers (g := ⟨s.pipeline, 0, 0⟩) free rfl asks answers.holds
    (by rw [Nat.zero_add]; exact answers.few)
  rw [Nat.zero_add] at whole
  exact whole

structure RoundReordered (s : RecoveryState) (session : Session) (size : UInt16)
    (sent other : RerequestLink) : Prop where
  next : s.next size other = s.next size sent
  outcome : (s.next size other).outcome? (s.chunk size other) =
    (s.next size sent).outcome? (s.chunk size sent)
  unread : (s.chunk size sent).unread = [] ∧ (s.chunk size other).unread = []
  told : (s.roundEvents session size other).filter (fun e => !e.ofPacket) =
    (s.roundEvents session size sent).filter (fun e => !e.ofPacket)
  messages : ((s.chunk size sent).events.filter FeedEvent.isMessage).Perm
    ((s.chunk size other).events.filter FeedEvent.isMessage)

theorem roundReordered (free : s.pipeline.cap = 0) (asks : 0 < (s.request size).count.toNat)
    (answers : Answers sent.inbox (s.request size).count.toNat)
    (order : sent.inbox.Perm other.inbox) (session : Session) :
    RoundReordered s session size sent other := by
  have same := framesPermuted order
  have first := chunkAnswers free asks answers
  have second := chunkAnswers free asks (answers.permuted order)
  rw [← same] at second
  have next : s.next size other = s.next size sent := by
    unfold RecoveryState.next answered
    rw [first, second]
  have quiet (packets : List Packet) :
      (s.pipeline.workEvents packets).filter (fun e => !e.ofPacket) = [] := by
    rw [List.filter_eq_nil_iff]
    intro e member
    simp [s.pipeline.workOfPacket packets e member]
  refine ⟨next, ?_, ?_, ?_, ?_⟩
  · rw [next, first, second]
    rfl
  · rw [first, second]
    exact ⟨rfl, rfl⟩
  · simp only [roundEvents, first, second, List.cons_append, List.append_assoc, List.filter_cons,
      List.filter_append, quiet]
  · rw [first, second]
    simp only [List.filter_append]
    exact ((Pipeline.workEventsPermuted free (order.filterMap _)).filter _).append (.refl _)

end RecoveryState

theorem permutedHead {batches others : List (List Reply)}
    (orders : List.Forall₂ List.Perm batches others) :
    (batches.head?.getD []).Perm (others.head?.getD []) ∧
      List.Forall₂ List.Perm batches.tail others.tail := by
  cases orders with
  | nil => exact ⟨.refl _, .nil⟩
  | cons order later => exact ⟨order, later⟩

/- Each batch that was handed out answers the request that it was handed out for. The runs here start
behind `before` other requests. -/
def AnswersAll (batches : List (List Reply)) (before : Nat) (run : RecoveryRun) : Prop :=
  ∀ k batch q, batches[k]? = some batch → (requested run.events)[k]? = some q →
    before + k < run.link.sent.length → Answers batch q.count.toNat

section

variable {session : Session} {size : UInt16} {s : RecoveryState} {link sent : RerequestLink}
  {batches others : List (List Reply)} {failAt : Option (Nat × SendFault)}

theorem answersFirst {run : RecoveryRun} (answers : AnswersAll batches link.sent.length run)
    {later : List FeedEvent} (events : run.events = s.roundEvents session size sent ++ later)
    (script : link.server = .script batches failAt) (empty : link.queue = [])
    (send : link.send (s.datagram session size) = .ok sent)
    (logs : (s.linkBehind size sent).sent <+: run.link.sent) :
    Answers sent.inbox (s.request size).count.toNat := by
  obtain ⟨_, inbox, _⟩ := RerequestLink.scriptSent script send
  rw [inbox, empty, List.nil_append]
  cases batches with
  | nil => exact ⟨fun reply member => by contradiction, Nat.zero_le _⟩
  | cons batch rest =>
    refine answers 0 batch (s.rerequest session size) rfl ?_ ?_
    · rw [events, s.roundRequests]
      rfl
    · have shorter := logs.length_le
      rw [RecoveryState.linkLogs send, List.length_append, List.length_singleton] at shorter
      omega

theorem answersLater {run : RecoveryRun} {later : List FeedEvent}
    (answers : AnswersAll batches link.sent.length
      { run with events := s.roundEvents session size sent ++ later })
    (send : link.send (s.datagram session size) = .ok sent) :
    AnswersAll batches.tail (s.linkBehind size sent).sent.length { run with events := later } := by
  intro k batch q found asked handed
  rw [RecoveryState.linkLogs send, List.length_append, List.length_singleton] at handed
  refine answers (k + 1) batch q ?_ ?_ (by dsimp only at handed ⊢; omega)
  · rwa [List.getElem?_tail] at found
  · dsimp only
    rwa [s.roundRequests, List.getElem?_cons_succ]

theorem roundFollows {run : RecoveryRun} (answers : AnswersAll batches link.sent.length run)
    {later : List FeedEvent} (events : run.events = s.roundEvents session size sent ++ later)
    (logs : (s.linkBehind size sent).sent <+: run.link.sent) (free : s.pipeline.cap = 0)
    (asks : 0 < (s.request size).count.toNat) (script : link.server = .script batches failAt)
    (empty : link.queue = []) (send : link.send (s.datagram session size) = .ok sent)
    (orders : List.Forall₂ List.Perm batches others) :
    RecoveryState.RoundReordered s session size sent (sent.handing others failAt) := by
  obtain ⟨_, inbox, _⟩ := RerequestLink.scriptSent script send
  have handed : sent.inbox.Perm (sent.handing others failAt).inbox := by
    rw [inbox, empty, List.nil_append]
    exact (permutedHead orders).1
  exact RecoveryState.roundReordered free asks
    (answersFirst answers events script empty send logs) handed session

theorem Reordered.behind {run other : RecoveryRun} {turned : RerequestLink}
    (round : RecoveryState.RoundReordered s session size sent turned)
    (later : Reordered run other) :
    Reordered { run with events := s.roundEvents session size sent ++ run.events }
      { other with events := s.roundEvents session size turned ++ other.events } where
  requests := later.requests
  told := by
    rw [List.filter_append, List.filter_append, round.told, later.told]
  result := later.result
  unread := later.unread
  messages := by
    rw [messagesRoundFirst, messagesRoundFirst]
    exact .cons round.messages later.messages

theorem behindReordered (script : link.server = .script batches failAt)
    (send : link.send (s.datagram session size) = .ok sent) (others : List (List Reply))
    (unread : (s.chunk size sent).unread = [] ∧
      (s.chunk size (sent.handing others failAt)).unread = []) :
    s.linkBehind size (sent.handing others failAt) =
        (s.linkBehind size sent).reordered others.tail failAt ∧
      (s.linkBehind size sent).server = .script batches.tail failAt ∧
      (s.linkBehind size sent).queue = [] := by
  obtain ⟨server, _, _⟩ := RerequestLink.scriptSent script send
  have handing : (sent.handing others failAt).server = .script others.tail failAt := rfl
  unfold RecoveryState.linkBehind
  rw [unread.1, unread.2, RerequestLink.scriptInbox server, RerequestLink.scriptInbox handing]
  exact ⟨rfl, server, rfl⟩

end

/- Behind each round both runs stand in the same state with nothing queued, so that the next round
asks for the same. -/
theorem recoversReordered {session size s link rounds run}
    (r : Recovers session size s link rounds run) (positive : size ≠ 0) {start : UInt64}
    {total : Nat} (t : Tracks start total 0 s) (u : Underway total s)
    {batches others : List (List Reply)} {failAt : Option (Nat × SendFault)}
    (script : link.server = .script batches failAt) (empty : link.queue = [])
    (orders : List.Forall₂ List.Perm batches others)
    (answers : AnswersAll batches link.sent.length run) :
    ∃ steps other, Recovers session size s (link.reordered others failAt) steps other ∧
      Reordered run other := by
  have asks := (RecoveryState.requestWanted t u positive).1
  induction r generalizing batches others with
  | @refused s link fault send =>
    exact ⟨_, _, .refused (RerequestLink.reorderedRefuses script send others),
      .same rfl ⟨empty, empty⟩⟩
  | @last s link sent outcome send ends =>
    have round := roundFollows answers rfl (List.prefix_refl _) t.limit asks script empty send orders
    obtain ⟨link', _, queue⟩ := behindReordered script send others round.unread
    have again := Recovers.last (RerequestLink.reorderedSends script empty send others)
      (round.outcome.trans ends)
    rw [round.next, link'] at again
    have closing : Reordered
        ⟨(s.next size sent).closing outcome, .finished ((s.next size sent).report session outcome),
          s.linkBehind size sent, none⟩
        ⟨(s.next size sent).closing outcome, .finished ((s.next size sent).report session outcome),
          (s.linkBehind size sent).reordered others.tail failAt, none⟩ := .same rfl ⟨queue, queue⟩
    exact ⟨_, _, again, closing.behind round⟩
  | @more s link sent rounds run send goes later ih =>
    have logs : (s.linkBehind size sent).sent <+: run.link.sent := recoversLogs later
    have round := roundFollows answers rfl logs t.limit asks script empty send orders
    obtain ⟨link', server, queue⟩ := behindReordered script send others round.unread
    have next := RecoveryState.nextTracks t size sent
    have onward := RecoveryState.nextUnderway t u positive goes
    obtain ⟨steps, other, turned, same⟩ := ih next onward server queue (permutedHead orders).2
      (answersLater answers send) (RecoveryState.requestWanted next onward positive).1
    rw [← link', ← round.next] at turned
    exact ⟨_, _, .more (RerequestLink.reorderedSends script empty send others)
      (round.outcome.trans goes) turned, same.behind round⟩

theorem batchOrderFree (plan : RecoveryPlan) (table : Table) (filter : Option TypeFilter)
    (live : List Reception) {batches others : List (List Reply)}
    (failAt : Option (Nat × SendFault)) (orders : List.Forall₂ List.Perm batches others) :
    let run := recover plan (.fresh table filter 0) live (.fresh (.script batches failAt))
    let other := recover plan (.fresh table filter 0) live (.fresh (.script others failAt))
    AnswersAll batches 0 run → Reordered run other := by
  dsimp only
  intro answers
  cases heard : firstHeader? live with
  | none =>
    cases limit : plan.sessionTimeout <;> simp only [recover, heard, limit] <;>
      exact .same rfl ⟨rfl, rfl⟩
  | some h =>
    obtain ⟨rounds, run, r, whole⟩ := recoverHeard heard plan (.fresh table filter 0)
      (.fresh (.script batches failAt))
    rw [whole] at answers ⊢
    have t := startTracks table filter 0 plan.start plan.total
    have u := startUnderway table filter 0 plan.start plan.total
    obtain ⟨steps, other, again, same⟩ := recoversReordered r (chunkPositive plan.chunkSize) t u rfl
      rfl orders answers
    have turned : recover plan (.fresh table filter 0) live (.fresh (.script others failAt)) =
        { other with events := .sessionAcquired h.session h.sequence :: other.events } :=
      recoverFollows heard again
    rw [turned]
    refine ⟨same.requests, ?_, same.result, same.unread, ?_⟩
    · exact congrArg (_ :: ·) same.told
    · rw [messagesBehind rfl rfl, messagesBehind rfl rfl]
      exact same.messages

/- Whichever datagram comes last answers the request in full; a frame is cut behind the message of
number 5, and the second request is refused. -/
theorem batchOrderFreeBeforeRefusal :
    let session : Session := ⟨List.replicate 10 0x41, rfl⟩
    let cut : Reply := .datagram (Header.write ⟨session, 5, 2⟩ ++ [0, 1, 0x41, 0])
    let two : Reply := .datagram (Header.write ⟨session, 6, 2⟩ ++ [0, 0, 0, 0])
    let live : List Reception := [.datagram (Header.write ⟨session, 90, 0⟩)]
    let run := recover ⟨5, 0, 3, none⟩ (.fresh .empty none 0) live
      (.fresh (.script [[cut, two]] (some (1, .refused))))
    let other := recover ⟨5, 0, 3, none⟩ (.fresh .empty none 0) live
      (.fresh (.script [[two, cut]] (some (1, .refused))))
    requested run.events = [⟨session, 5, 3⟩, ⟨session, 8, 3⟩] ∧ AnswersAll [[cut, two]] 0 run ∧
      Reordered run other := by
  intro session cut two live run other
  have orders : List.Forall₂ List.Perm [[cut, two]] [[two, cut]] := .cons (.swap _ _ _) .nil
  have requests : requested run.events = [⟨session, 5, 3⟩, ⟨session, 8, 3⟩] := by cbv
  have first : Answers [cut, two] 3 :=
    ⟨List.forall_mem_cons.mpr ⟨⟨_, rfl, by decide⟩, List.forall_mem_singleton.mpr ⟨_, rfl, by decide⟩⟩,
      by decide⟩
  have answers : AnswersAll [[cut, two]] 0 run := by
    intro k batch q found asked handed
    cases k with
    | zero =>
      rw [requests] at asked
      cases found
      cases asked
      exact first
    | succ k => contradiction
  exact ⟨requests, answers, batchOrderFree _ _ _ _ _ orders answers⟩

end MarketFeed
