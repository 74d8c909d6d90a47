import MarketFeed.Proofs.Live.Steps
import MarketFeed.Proofs.Recovery.Accounting

/-! Replies are decoded as live datagrams are. The waits of a recovery cut its replies into chunks, drop
some and stop early; none of that shows in what is decoded of the replies that were read. -/
namespace MarketFeed

def Reply.reception? : Reply → Option Reception
  | .datagram raw => some (.datagram raw)
  | .timeout | .failure => none

theorem receptionPackets (replies : List Reply) :
    (replies.filterMap Reply.reception?).filterMap Reception.packet? =
      replies.filterMap Reply.packet? := by
  rw [List.filterMap_filterMap]
  congr 1
  funext reply
  cases reply <;> rfl

theorem recoversCounts {session size s link rounds run}
    (r : Recovers session size s link rounds run) :
    (s.pipeline.work (rounds.flatMap (Round.packets size))).processed =
      s.pipeline.processed + (receivedCounts run.events).sum := by
  induction r with
  | refused send => rfl
  | @last s link sent outcome send ends =>
    rw [s.roundCounts, RecoveryState.closingCounts, List.sum_singleton, List.flatMap_singleton,
      ← (s.nextWorks size sent).1, s.nextCount]
  | @more s link sent rounds run send goes later ih =>
    rw [s.roundCounts, List.sum_cons, List.flatMap_cons, Pipeline.workAppend,
      ← (s.nextWorks size sent).1, ih, s.nextCount, Nat.add_assoc]

structure DecodedAlike (batches : List (List Reply)) (run : RecoveryRun) (feed : LiveFeed)
    (received : List Reception) : Prop where
  read : run.read batches ++ run.link.queue = (batches.take run.link.sent.length).flatten
  events : (feed.events received).filter (fun e => !e.ofTracker) =
    run.events.filter FeedEvent.ofPacket
  counted : (feed.after received).summary.decoded = (receivedCounts run.events).sum
  decoded : ∀ report, run.result = .finished report →
    report.decoded = (feed.after received).summary.decoded

theorem decodedAsLive (plan : RecoveryPlan) (table : Table) (filter : Option TypeFilter) (cap : Nat)
    (live : List Reception) (batches : List (List Reply)) (failAt : Option (Nat × SendFault)) :
    let run := recover plan (.fresh table filter cap) live (.fresh (.script batches failAt))
    DecodedAlike batches run (.fresh (.fresh table filter cap))
      ((run.read batches).filterMap Reply.reception?) := by
  intro run
  let pipeline := Pipeline.fresh table filter cap
  cases heard : firstHeader? live with
  | none =>
    obtain ⟨result, silent, ended⟩ :=
      recoverUnheard heard plan pipeline (.fresh (.script batches failAt))
    have whole : run = ⟨[], result, .fresh (.script batches failAt), none⟩ := silent
    rw [whole]
    refine ⟨rfl, rfl, rfl, ?_⟩
    intro report finished
    rcases ended with ⟨_, rfl⟩ | ⟨limit, _, rfl⟩ <;> contradiction
  | some h =>
    obtain ⟨rounds, rest, r, told⟩ :=
      recoverHeard heard plan pipeline (.fresh (.script batches failAt))
    have whole : run =
        { rest with events := .sessionAcquired h.session h.sequence :: rest.events } := told
    have read : run.read batches = rest.read batches := congrArg (·.read batches) whole
    have packets : ((run.read batches).filterMap Reply.reception?).filterMap Reception.packet? =
        rounds.flatMap (Round.packets (chunkOrDefault plan.chunkSize)) := by
      rw [receptionPackets, read]
      exact recoversPackets r
    obtain ⟨decoded, shown⟩ := (LiveFeed.fresh pipeline).eventsWork
      ((run.read batches).filterMap Reply.reception?)
    rw [packets] at decoded shown
    obtain ⟨events, reported⟩ := recoversWork r
    refine ⟨?_, ?_, ?_, ?_⟩
    · rw [read, recoversRead r, whole]
      exact (recoversHanded r).2
    · rw [← List.filter_congr (LiveFeed.eventsTell _ _), shown, whole]
      exact events.symm
    · have sum := recoversCounts r
      rw [LiveFeed.summary, decoded, whole]
      exact sum.trans (Nat.zero_add _)
    · intro report finished
      rw [LiveFeed.summary, decoded]
      rw [whole] at finished
      exact reported report finished

/- Two chunks, a timeout, a junk datagram, and a cap in the middle of the last reply, which repeats a
number: the live feed finds a step back in it, the recovery does not. -/
theorem decodedAsLiveRepeated :
    let session : Session := ⟨List.replicate 10 0x41, rfl⟩
    let first := Header.write ⟨session, 5, 2⟩ ++ [0, 1, 0x41, 0]
    let again := Header.write ⟨session, 5, 3⟩ ++ [0, 0, 0, 1, 0x41, 0, 0]
    let batches : List (List Reply) :=
      [[.timeout, .datagram [1, 2], .datagram first], [.datagram again, .failure]]
    let run := recover ⟨5, 0, 1, none⟩ (.fresh .empty none 3)
      [.datagram (Header.write ⟨session, 90, 0⟩)] (.fresh (.script batches none))
    let feed := LiveFeed.fresh (.fresh .empty none 3)
    let received : List Reception := [.datagram [1, 2], .datagram first, .datagram again]
    let report : RecoveryReport := ⟨.capReached, session, ⟨8, 0, false⟩, 2, 3⟩
    (feed.events received)[2]? = some (.duplicate session 7 5) ∧
      (run.read batches).filterMap Reply.reception? = received ∧ run.result = .finished report ∧
      report.decoded = (feed.after received).summary.decoded := by
  intro session first again batches run feed received report
  have read : (run.read batches).filterMap Reply.reception? = received := by cbv
  have finished : run.result = .finished report := by cbv
  have alike := decodedAsLive ⟨5, 0, 1, none⟩ .empty none 3
    [.datagram (Header.write ⟨session, 90, 0⟩)] batches none
  refine ⟨by cbv, read, finished, ?_⟩
  rw [← read]
  exact alike.decoded report finished

end MarketFeed
