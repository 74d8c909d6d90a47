import MarketFeed.Proofs.Recovery.Requests
import MarketFeed.Proofs.Recovery.Trace

/-! How long a recovery works. Each request but the last is paid for by a datagram that brought the
count further, and each series of timeouts by the datagram that broke it, so that a finite script of
replies bounds them all. -/
namespace MarketFeed

def FeedEvent.isTimeout : FeedEvent → Bool
  | .replyTimeout _ _ _ => true
  | _ => false

def Reply.isDatagram : Reply → Bool
  | .datagram _ => true
  | .timeout | .failure => false

theorem ofPacketTimeless {events : List FeedEvent} (told : ∀ e ∈ events, e.ofPacket = true) :
    events.countP FeedEvent.isTimeout = 0 := by
  rw [List.countP_eq_zero]
  intro e member timeout
  have packet := told e member
  cases e <;> contradiction

namespace Gathering

theorem datagramTimeless (g : Gathering) (request : ChunkRequest) (raw : Bytes) :
    (g.take request (.datagram raw)).events.countP FeedEvent.isTimeout = 0 := by
  cases found : Packet.read? raw with
  | none =>
    obtain ⟨e, failed⟩ := Packet.readNone found
    simp [take, failed]
  | some k =>
    have packet : Reply.packet? (.datagram raw) = some k := found
    rw [takePacket packet]
    exact ofPacketTimeless (g.pipeline.processOfPacket k)

/- The timeouts that are still allowed in a row are counted with those that were told. -/
theorem collectTimeouts {g : Gathering} (patient : g.timeouts < maxTimeouts) (request : ChunkRequest)
    (replies : List Reply) :
    (g.collect request replies).events.countP FeedEvent.isTimeout + g.timeouts ≤
      maxTimeouts + 2 * (g.reads request replies).countP Reply.isDatagram := by
  have few : maxTimeouts = 3 := rfl
  induction replies generalizing g with
  | nil =>
    have told := List.countP_le_length (p := FeedEvent.isTimeout) (l := (g.collect request []).events)
    have many : (g.collect request []).events.length = maxTimeouts - g.timeouts := by
      simp [collect, expire]
    omega
  | cons reply rest ih =>
    cases ended : (g.take request reply).ended with
    | true =>
      rw [collectEnded ended, readsEnded ended]
      cases reply with
      | timeout =>
        have alone : (g.take request .timeout).events.countP FeedEvent.isTimeout = 1 := rfl
        dsimp only
        omega
      | failure =>
        have silent : (g.take request .failure).events.countP FeedEvent.isTimeout = 0 := rfl
        dsimp only
        omega
      | datagram raw =>
        have silent := g.datagramTimeless request raw
        dsimp only
        omega
    | false =>
      rw [collectOn ended, readsOn ended, List.countP_append, List.countP_cons]
      cases reply with
      | timeout =>
        have alone : (g.take request .timeout).events.countP FeedEvent.isTimeout = 1 := rfl
        have further : (g.take request .timeout).state.timeouts = g.timeouts + 1 := rfl
        have going : g.timeouts + 1 < maxTimeouts := Nat.lt_of_not_le (of_decide_eq_false ended)
        have later := ih (g := (g.take request .timeout).state) going
        simp only [Reply.isDatagram, Bool.false_eq_true, if_false]
        omega
      | failure => contradiction
      | datagram raw =>
        have again := g.datagramBreaks request raw
        have silent := g.datagramTimeless request raw
        have later := ih (g := (g.take request (.datagram raw)).state) (by omega)
        simp only [Reply.isDatagram, if_true]
        omega

end Gathering

namespace Pipeline

def contributors (p : Pipeline) : List Packet → List Packet
  | [] => []
  | k :: rest =>
    if 0 < (p.process k.header k.raw).report.processed then
      k :: (p.process k.header k.raw).pipeline.contributors rest
    else (p.process k.header k.raw).pipeline.contributors rest

theorem contributorsAppend (p : Pipeline) (a b : List Packet) :
    p.contributors (a ++ b) = p.contributors a ++ (p.work a).contributors b := by
  induction a generalizing p with
  | nil => rfl
  | cons k rest ih =>
    rw [List.cons_append, contributors, contributors, ih]
    split <;> rfl

theorem contributorsAbsent {p : Pipeline} {packets : List Packet}
    (absent : p.contributors packets = []) : (p.work packets).processed = p.processed := by
  induction packets generalizing p with
  | nil => rfl
  | cons k rest ih =>
    unfold contributors at absent
    split at absent
    · contradiction
    · rename_i none
      obtain ⟨pipeline, processed, _⟩ := p.processedPacket k
      have later := ih absent
      rw [work, later, pipeline]
      simp only [counted]
      omega

end Pipeline

namespace RecoveryState

theorem roundTimeouts (s : RecoveryState) (session : Session) (size : UInt16) (sent : RerequestLink) :
    (s.roundEvents session size sent).countP FeedEvent.isTimeout ≤
      3 + 2 * (Round.replies size ⟨s, sent⟩).countP Reply.isDatagram := by
  have told := Gathering.collectTimeouts (g := ⟨s.pipeline, 0, 0⟩) (Nat.zero_lt_succ 2)
    (s.request size) sent.inbox
  have ends : (s.roundEvents session size sent).countP FeedEvent.isTimeout =
      (s.chunk size sent).events.countP FeedEvent.isTimeout := by
    simp [roundEvents, asked, FeedEvent.isTimeout]
  rw [ends]
  exact told

theorem closingTimeouts (s : RecoveryState) (outcome : RecoveryOutcome) :
    (s.closing outcome).countP FeedEvent.isTimeout = 0 := by
  cases outcome <;> rfl

theorem roundContributes {s : RecoveryState} {size : UInt16} {sent : RerequestLink}
    (progress : 0 < (s.chunk size sent).received) :
    0 < (s.pipeline.contributors (Round.packets size ⟨s, sent⟩)).length := by
  apply List.length_pos_iff.mpr
  intro absent
  have counted := s.nextCount size sent
  rw [(s.nextWorks size sent).1, Pipeline.contributorsAbsent absent] at counted
  omega

end RecoveryState

theorem recoversTimeouts {session size s link rounds run}
    (r : Recovers session size s link rounds run) :
    run.events.countP FeedEvent.isTimeout ≤
      3 * rounds.length + 2 * (rounds.flatMap (Round.replies size)).countP Reply.isDatagram := by
  induction r with
  | refused send => exact Nat.zero_le _
  | @last s link sent outcome send ends =>
    have told := s.roundTimeouts session size sent
    rw [List.countP_append, RecoveryState.closingTimeouts, List.flatMap_singleton]
    simpa using told
  | @more s link sent rounds run send goes later ih =>
    have told := s.roundTimeouts session size sent
    simp only [List.countP_append, List.flatMap_cons, List.length_cons]
    omega

theorem recoversReturns {session size s link rounds run}
    (r : Recovers session size s link rounds run) :
    (∃ report, run.result = .finished report) ∨ ∃ fault, run.result = .failed (.send fault) := by
  induction r with
  | refused send => exact .inr ⟨_, rfl⟩
  | last send ends => exact .inl ⟨_, rfl⟩
  | more send goes later ih => exact ih

theorem recoversSend {session size s link rounds run}
    (r : Recovers session size s link rounds run) :
    rounds.length ≤ (requested run.events).length ∧
      (requested run.events).length ≤
        (s.pipeline.contributors (rounds.flatMap (Round.packets size))).length + 1 := by
  induction r with
  | refused send => exact ⟨Nat.zero_le _, Nat.le_add_left _ _⟩
  | @last s link sent outcome send ends =>
    rw [s.roundRequests, RecoveryState.closingRequests]
    exact ⟨Nat.le_refl _, Nat.le_add_left _ _⟩
  | @more s link sent rounds run send goes later ih =>
    obtain ⟨sends, contributed⟩ := ih
    have paid := RecoveryState.roundContributes (RecoveryState.receivedMore goes)
    rw [s.roundRequests, List.flatMap_cons, Pipeline.contributorsAppend, List.length_append,
      ← (s.nextWorks size sent).1]
    simp only [List.length_cons]
    omega

theorem recoversWithin {session size s link rounds run}
    (r : Recovers session size s link rounds run) (positive : size ≠ 0) {start : UInt64}
    {total cap : Nat} (t : Tracks start total cap s) (u : Underway total s) (wanted : total ≠ 0) :
    (requested run.events).length + s.pipeline.processed ≤ total := by
  have wanting := u.wanting wanted
  induction r with
  | @refused s link fault send =>
    have alone : (requested [s.asked session size]).length = 1 := rfl
    dsimp only
    omega
  | @last s link sent outcome send ends =>
    rw [s.roundRequests, RecoveryState.closingRequests, List.length_singleton]
    omega
  | @more s link sent rounds run send goes later ih =>
    have progress := RecoveryState.receivedMore goes
    have counted := s.nextCount size sent
    have next := RecoveryState.nextUnderway t u positive goes
    have within := ih (RecoveryState.nextTracks t size sent) next (next.wanting wanted)
    rw [s.roundRequests, List.length_cons]
    omega

/- What a run over a script does at most; the requests told are those sent and one that was refused. -/
structure WorksWithin (plan : RecoveryPlan) (pipeline : Pipeline) (batches : List (List Reply))
    (failAt : Option (Nat × SendFault)) (run : RecoveryRun) : Prop where
  returns : (∃ report, run.result = .finished report) ∨
    ∃ fault, run.result = .failed (.send fault) ∧ failAt = some (run.link.sent.length, fault)
  sent : run.link.sent.length ≤ (requested run.events).length
  contributed : (requested run.events).length ≤
    (pipeline.contributors ((run.read batches).filterMap Reply.packet?)).length + 1
  total : plan.total ≠ 0 → (requested run.events).length ≤ plan.total
  timeouts : run.events.countP FeedEvent.isTimeout ≤
    3 * run.link.sent.length + 2 * (run.read batches).countP Reply.isDatagram

theorem recoveryWorksWithin (plan : RecoveryPlan) (table : Table) (filter : Option TypeFilter)
    (cap : Nat) {live : List Reception} (heard : ∃ r ∈ live, r.packet? ≠ none)
    (batches : List (List Reply)) (failAt : Option (Nat × SendFault)) :
    WorksWithin plan (.fresh table filter cap) batches failAt
      (recover plan (.fresh table filter cap) live (.fresh (.script batches failAt))) := by
  obtain ⟨h, first⟩ := heardFirst heard
  obtain ⟨rounds, run, r, whole⟩ := recoverHeard first plan (.fresh table filter cap)
    (.fresh (.script batches failAt))
  obtain ⟨sent, contributed⟩ := recoversSend r
  have told := recoversTimeouts r
  rw [← (recoversHanded r).1] at sent told
  rw [← recoversPackets r] at contributed
  rw [← recoversRead r] at told
  rw [whole]
  refine ⟨?_, sent, contributed, ?_, told⟩
  · rcases recoversReturns r with finished | ⟨fault, failed⟩
    · exact .inl finished
    · exact .inr ⟨fault, failed, recoversRefused r rfl failed⟩
  · intro wanted
    exact recoversWithin r (chunkPositive plan.chunkSize)
      (startTracks table filter cap plan.start plan.total)
      (startUnderway table filter cap plan.start plan.total) wanted

/- Both bounds are met: the only datagram that counts pays for the first request, and two timeouts
stand before each datagram, junk included. -/
theorem recoveryWorksWithinExactly :
    let session : Session := ⟨List.replicate 10 0x41, rfl⟩
    let batches : List (List Reply) :=
      [[.timeout, .timeout, .datagram [1, 2], .timeout, .timeout,
        .datagram (Header.write ⟨session, 5, 1⟩ ++ [0, 0])]]
    let run := recover ⟨5, 0, 2, none⟩ (.fresh .empty none 0)
      [.failure, .datagram (Header.write ⟨session, 90, 0⟩)] (.fresh (.script batches none))
    run.events.countP FeedEvent.isTimeout = 10 ∧
      WorksWithin ⟨5, 0, 2, none⟩ (.fresh .empty none 0) batches none run := by
  intro session batches run
  refine ⟨by cbv, recoveryWorksWithin _ _ _ _ ⟨_, List.mem_cons_of_mem _ List.mem_cons_self, ?_⟩ _ _⟩
  decide

end MarketFeed
