import MarketFeed.Proofs.Limit
import MarketFeed.Proofs.Recovery.Requests
import MarketFeed.Proofs.Recovery.Views

/-! A recovery with a cap beside the recovery without one. Both go the same way while the count
stays below the cap. The datagram that holds the frame at the cap is the last that the capped recovery
reads, its chunk the last that it asks for, whatever the link would have answered afterwards. -/
namespace MarketFeed

inductive FillsUp (wanted : Nat) (all : List Reply) : List Reply → Prop where
  | frame {heard last k place} (packet : last.packet? = some k) (positive : 0 < place)
      (within : place ≤ k.bodies.length) (counted : framesIn heard + place = wanted)
      (front : heard ++ [last] <+: all) : FillsUp wanted all (heard ++ [last])

inductive Stops (cap wanted : Nat) (whole : List FeedEvent) : List FeedEvent → Prop where
  | inside {front session start count inside}
      (filled : (upToMessage wanted whole).countP FeedEvent.isMessage = wanted)
      (cut : upToMessage wanted whole = front ++ .chunkRequested session start count :: inside)
      (waits : ∀ e ∈ inside, e.whileWaiting = true) :
      Stops cap wanted whole (upToMessage wanted whole ++
        [.chunkFinished start count (inside.countP FeedEvent.isMessage), .capReached cap])

theorem FillsUp.behind {wanted : Nat} {all read : List Reply} (before : List Reply)
    (fills : FillsUp wanted all read) :
    FillsUp (framesIn before + wanted) (before ++ all) (before ++ read) := by
  cases fills with
  | @frame heard last k place packet positive within counted front =>
    rw [← List.append_assoc]
    refine .frame packet positive within ?_ ?_
    · rw [framesAppend, Nat.add_assoc, counted]
    · rw [List.append_assoc]
      exact (List.prefix_append_right_inj before).mpr front

theorem Stops.behind {cap wanted : Nat} {whole told before : List FeedEvent}
    (short : before.countP FeedEvent.isMessage < wanted)
    (stops : Stops cap (wanted - before.countP FeedEvent.isMessage) whole told) :
    Stops cap wanted (before ++ whole) (before ++ told) := by
  cases stops with
  | @inside front session start count inside filled cut waits =>
    have past := upToPast short whole
    have again : (upToMessage wanted (before ++ whole)).countP FeedEvent.isMessage = wanted := by
      rw [past, List.countP_append, filled]
      omega
    have later : upToMessage wanted (before ++ whole) =
        (before ++ front) ++ .chunkRequested session start count :: inside := by
      rw [past, cut, List.append_assoc]
    rw [← List.append_assoc, ← past]
    exact .inside again later waits

namespace Gathering

def limited (g : Gathering) (cap : Nat) : Gathering := { g with pipeline := g.pipeline.limited cap }

variable {g : Gathering} {cap : Nat} {request : ChunkRequest}

theorem takeFrames (free : g.pipeline.cap = 0) (request : ChunkRequest) (reply : Reply) :
    (g.take request reply).state.pipeline = g.pipeline.counted (framesIn [reply]) ∧
      (g.take request reply).state.received = g.received + framesIn [reply] := by
  obtain ⟨pipeline, received⟩ := takeAllowed g request reply
  rw [Pipeline.allowanceUnlimited free] at pipeline received
  exact ⟨pipeline, received⟩

theorem takeFree (free : g.pipeline.cap = 0) (request : ChunkRequest) (reply : Reply) :
    (g.take request reply).state.pipeline.cap = 0 := by
  rw [(takeFrames free request reply).1]
  exact free

theorem collectFrames (free : g.pipeline.cap = 0) (request : ChunkRequest) (replies : List Reply) :
    (g.collect request replies).received = g.received + framesIn (g.reads request replies) := by
  rw [(collectAllowed g request replies).2, Pipeline.allowanceUnlimited free]

theorem takeUnder (free : g.pipeline.cap = 0) {reply : Reply}
    (below : ((g.take request reply).state.pipeline.limited cap).capReached = false) :
    (g.limited cap).take request reply =
      { g.take request reply with state := (g.take request reply).state.limited cap } := by
  cases found : reply.packet? with
  | none =>
    cases reply with
    | timeout => rfl
    | failure => rfl
    | datagram raw =>
      obtain ⟨e, failed⟩ := Packet.readNone found
      simp [take, failed, limited]
  | some k =>
    rw [takePacket found, Pipeline.takenUnlimited free] at below
    have all : (g.limited cap).pipeline.taken k = k.bodies.length := Pipeline.takenBelow below
    have uncapped : (g.pipeline.counted k.bodies.length).capReached = false :=
      (Pipeline.uncappedIff _).mpr (.inl free)
    have room : ((g.limited cap).pipeline.counted k.bodies.length).capReached = false := below
    have told := (Pipeline.processBelow free below).2.2
    rw [takePacket found, takePacket found, all, Pipeline.takenUnlimited free, uncapped, room]
    simp only [limited, told]
    rfl

theorem collectUnder (free : g.pipeline.cap = 0) {replies : List Reply}
    (below : ((g.collect request replies).pipeline.limited cap).capReached = false) :
    (g.limited cap).collect request replies =
      { g.collect request replies with
        pipeline := (g.collect request replies).pipeline.limited cap } := by
  induction replies generalizing g with
  | nil => rfl
  | cons reply rest ih =>
    cases ended : (g.take request reply).ended with
    | true =>
      rw [collectEnded ended] at below ⊢
      have same := takeUnder free below
      rw [collectEnded (by rw [same]; exact ended), same]
      rfl
    | false =>
      rw [collectOn ended] at below ⊢
      have later := (collectAllowed (g.take request reply).state request rest).1
      have room := below
      rw [later] at room
      have same := takeUnder free (Pipeline.limitedBefore room)
      have onward := ih (g := (g.take request reply).state)
        (takeFree free request reply) below
      rw [collectOn (by rw [same]; exact ended), same]
      dsimp only
      rw [onward]

structure Fills (g : Gathering) (cap : Nat) (request : ChunkRequest) (replies : List Reply) :
    Prop where
  read : FillsUp (cap - g.pipeline.processed) (g.reads request replies)
    ((g.limited cap).reads request replies)
  received : ((g.limited cap).collect request replies).received =
    g.received + (cap - g.pipeline.processed)
  capped : ((g.limited cap).collect request replies).capReached = true
  events : ((g.limited cap).collect request replies).events =
    upToMessage (cap - g.pipeline.processed) (g.collect request replies).events

theorem collectFront (g : Gathering) (request : ChunkRequest) (reply : Reply) (rest : List Reply) :
    (g.take request reply).events <+: (g.collect request (reply :: rest)).events ∧
      [reply] <+: g.reads request (reply :: rest) := by
  cases ended : (g.take request reply).ended with
  | true =>
    rw [collectEnded ended, readsEnded ended]
    exact ⟨List.prefix_refl _, List.prefix_refl _⟩
  | false =>
    rw [collectOn ended, readsOn ended]
    exact ⟨List.prefix_append _ _, ⟨_, rfl⟩⟩

theorem takeFills (free : g.pipeline.cap = 0) (unfiltered : g.pipeline.filter = none)
    {reply : Reply} {k : Packet} (found : reply.packet? = some k)
    (below : g.pipeline.processed < cap)
    (reached : cap ≤ g.pipeline.processed + k.bodies.length) (rest : List Reply) :
    Fills g cap request (reply :: rest) := by
  let place := cap - g.pipeline.processed
  have positive : 0 < place := Nat.sub_pos_of_lt below
  have within : place ≤ k.bodies.length := Nat.sub_le_iff_le_add'.mpr reached
  have fills : g.pipeline.processed + place = cap := Nat.add_sub_cancel' (Nat.le_of_lt below)
  have taken : (g.limited cap).pipeline.taken k = place :=
    Pipeline.takenReaches positive within fills
  have full : ((g.limited cap).pipeline.counted place).capReached = true :=
    Pipeline.filledReaches positive fills
  have ended : ((g.limited cap).take request reply).ended = true := by
    rw [takePacket found, taken, full, Bool.true_or]
  obtain ⟨⟨later, events⟩, front⟩ := collectFront g request reply rest
  refine ⟨?_, ?_, ?_, ?_⟩
  · rw [readsEnded ended]
    exact @FillsUp.frame _ _ [] _ _ _ found positive within (Nat.zero_add _) front
  · rw [collectEnded ended, takePacket found, taken]
    rfl
  · rw [collectEnded ended, takePacket found, taken]
    exact full
  · have many : place ≤ (g.take request reply).events.countP FeedEvent.isMessage := by
      rw [takePacket found, (g.pipeline.processHeard k).2 unfiltered, Pipeline.takenUnlimited free]
      exact within
    rw [collectEnded ended, ← events, upToWithin many, takePacket found, takePacket found]
    exact (Pipeline.processReaches positive within fills).2.2.trans
      (Pipeline.processUpTo free unfiltered positive within).symm

theorem collectFills (free : g.pipeline.cap = 0) (unfiltered : g.pipeline.filter = none)
    (below : g.pipeline.processed < cap) {replies : List Reply}
    (reached : cap ≤ (g.collect request replies).pipeline.processed) :
    Fills g cap request replies := by
  induction replies generalizing g with
  | nil => exact absurd reached (Nat.not_le_of_lt below)
  | cons reply rest ih =>
    obtain ⟨pipeline, received⟩ := takeFrames free request reply
    by_cases here : g.pipeline.processed + framesIn [reply] < cap
    · -- the frames of this reply leave room, so that both waits go on behind it
      have room : ((g.take request reply).state.pipeline.limited cap).capReached = false := by
        rw [pipeline]
        exact (Pipeline.uncappedIff _).mpr (.inr here)
      have same := takeUnder free room
      cases ended : (g.take request reply).ended with
      | true =>
        rw [collectEnded ended, pipeline] at reached
        exact absurd reached (Nat.not_le_of_lt here)
      | false =>
        rw [collectOn ended] at reached
        have processed : (g.take request reply).state.pipeline.processed =
            g.pipeline.processed + framesIn [reply] := by rw [pipeline]; rfl
        have all := (takeHeard g request reply).2 unfiltered
        have heard : (g.take request reply).events.countP FeedEvent.isMessage =
            framesIn [reply] := by omega
        obtain ⟨read, counted, capped, events⟩ := ih (takeFree free request reply)
          (by rw [pipeline]; exact unfiltered) (by rw [processed]; exact here) reached
        have wanted : framesIn [reply] + (cap - (g.take request reply).state.pipeline.processed) =
            cap - g.pipeline.processed := by omega
        have onward : ((g.limited cap).take request reply).ended = false := by
          rw [same]
          exact ended
        refine ⟨?_, ?_, ?_, ?_⟩
        · have whole := read.behind [reply]
          rw [wanted] at whole
          rw [readsOn onward, readsOn ended, same]
          exact whole
        · rw [collectOn onward, same]
          dsimp only
          omega
        · rw [collectOn onward, same]
          exact capped
        · rw [collectOn onward, collectOn ended, same]
          dsimp only
          rw [upToPast (by omega), events, heard, processed, Nat.sub_sub]
    · cases found : reply.packet? with
      | none =>
        have nothing := framesNone found
        omega
      | some k =>
        have frames := framesPacket found
        exact takeFills free unfiltered found below (by omega) rest

end Gathering

namespace RecoveryState

def limited (s : RecoveryState) (cap : Nat) : RecoveryState :=
  { s with pipeline := s.pipeline.limited cap }

variable {s : RecoveryState} {size : UInt16} {sent : RerequestLink} {cap : Nat}

theorem nextFree (free : s.pipeline.cap = 0) (size : UInt16) (sent : RerequestLink) :
    (s.next size sent).pipeline.cap = 0 := by
  rw [nextPipeline]
  exact free

theorem roundFrames (free : s.pipeline.cap = 0) (size : UInt16) (sent : RerequestLink) :
    framesIn (Round.replies size ⟨s, sent⟩) = (s.chunk size sent).received := by
  have counted := Gathering.collectFrames (g := ⟨s.pipeline, 0, 0⟩) free (s.request size) sent.inbox
  rw [Nat.zero_add] at counted
  exact counted.symm

theorem roundHeard (unfiltered : s.pipeline.filter = none) (session : Session) (size : UInt16)
    (sent : RerequestLink) :
    (s.roundEvents session size sent).countP FeedEvent.isMessage =
      (s.chunk size sent).received := by
  rw [roundEvents, List.countP_append, List.countP_cons]
  exact (s.chunkHeard size sent).2 unfiltered

theorem roundUpTo (s : RecoveryState) (session : Session) {size : UInt16} {sent : RerequestLink}
    {wanted : Nat} (positive : 0 < wanted)
    (many : wanted ≤ (s.chunk size sent).events.countP FeedEvent.isMessage)
    (later : List FeedEvent) :
    upToMessage wanted (s.roundEvents session size sent ++ later) =
      s.asked session size :: upToMessage wanted (s.chunk size sent).events := by
  have alone : [s.asked session size].countP FeedEvent.isMessage = 0 := rfl
  have spread : s.roundEvents session size sent ++ later =
      [s.asked session size] ++ ((s.chunk size sent).events ++
        (.chunkFinished (s.request size).start (s.request size).count
          (s.chunk size sent).received :: later)) := by simp [roundEvents]
  rw [spread, upToPast (by rw [alone]; exact positive), alone, Nat.sub_zero, upToWithin many]
  rfl

theorem chunkUnder (free : s.pipeline.cap = 0)
    (below : ((s.next size sent).pipeline.limited cap).capReached = false) :
    (s.limited cap).chunk size sent =
      { s.chunk size sent with pipeline := (s.chunk size sent).pipeline.limited cap } :=
  Gathering.collectUnder (g := ⟨s.pipeline, 0, 0⟩) free below

theorem nextUnder (free : s.pipeline.cap = 0)
    (below : ((s.next size sent).pipeline.limited cap).capReached = false) :
    (s.limited cap).next size sent = (s.next size sent).limited cap := by
  rw [next, answered, chunkUnder free below]
  rfl

theorem outcomeUnder (free : s.pipeline.cap = 0)
    (below : ((s.next size sent).pipeline.limited cap).capReached = false) :
    ((s.limited cap).next size sent).outcome? ((s.limited cap).chunk size sent) =
      (s.next size sent).outcome? (s.chunk size sent) := by
  rw [nextUnder free below, chunkUnder free below]
  rfl

theorem roundUnder (free : s.pipeline.cap = 0)
    (below : ((s.next size sent).pipeline.limited cap).capReached = false) (session : Session) :
    (s.limited cap).roundEvents session size sent = s.roundEvents session size sent ∧
      (s.limited cap).linkBehind size sent = s.linkBehind size sent := by
  rw [roundEvents, linkBehind, chunkUnder free below]
  exact ⟨rfl, rfl⟩

theorem repliesUnder (free : s.pipeline.cap = 0)
    (below : ((s.next size sent).pipeline.limited cap).capReached = false) :
    Round.replies size ⟨s.limited cap, sent⟩ = Round.replies size ⟨s, sent⟩ := by
  have capped := Round.repliesUnread size ⟨s.limited cap, sent⟩
  have whole := Round.repliesUnread size ⟨s, sent⟩
  rw [chunkUnder free below] at capped
  exact List.append_cancel_right (capped.trans whole.symm)

theorem closingLimited (s : RecoveryState) (cap : Nat) (outcome : RecoveryOutcome) :
    (s.limited cap).closing outcome = s.closing outcome := by
  cases outcome <;> rfl

end RecoveryState

theorem recoversUnder {session size s link rounds run}
    (r : Recovers session size s link rounds run) (free : s.pipeline.cap = 0) {cap : Nat}
    (below : s.pipeline.processed + (receivedCounts run.events).sum < cap) :
    ∃ others, Recovers session size (s.limited cap) link others run := by
  induction r with
  | refused send => exact ⟨_, .refused send⟩
  | @last s link sent outcome send ends =>
    rw [s.roundCounts, RecoveryState.closingCounts, List.sum_singleton, ← s.nextCount] at below
    have room : ((s.next size sent).pipeline.limited cap).capReached = false :=
      (Pipeline.uncappedIff _).mpr (.inr below)
    obtain ⟨round, behind⟩ := RecoveryState.roundUnder free room session
    rw [← RecoveryState.outcomeUnder free room] at ends
    have again := Recovers.last (s := s.limited cap) send ends
    rw [round, behind, RecoveryState.nextUnder free room, RecoveryState.closingLimited] at again
    exact ⟨_, again⟩
  | @more s link sent rounds run send goes later ih =>
    rw [s.roundCounts, List.sum_cons, ← Nat.add_assoc, ← s.nextCount] at below
    have room : ((s.next size sent).pipeline.limited cap).capReached = false :=
      (Pipeline.uncappedIff _).mpr (.inr (Nat.lt_of_le_of_lt (Nat.le_add_right _ _) below))
    obtain ⟨round, behind⟩ := RecoveryState.roundUnder free room session
    rw [← RecoveryState.outcomeUnder free room] at goes
    obtain ⟨others, rest⟩ := ih (RecoveryState.nextFree free size sent) below
    rw [← RecoveryState.nextUnder free room, ← behind] at rest
    have again := Recovers.more (s := s.limited cap) send goes rest
    rw [round] at again
    exact ⟨_, again⟩

theorem FillsUp.within {wanted : Nat} {all read more : List Reply} (fills : FillsUp wanted all read)
    (front : all <+: more) : FillsUp wanted more read := by
  cases fills with
  | frame packet positive within counted first =>
    exact .frame packet positive within counted (first.trans front)

theorem recoversLogs {session size s link rounds run}
    (r : Recovers session size s link rounds run) : link.sent <+: run.link.sent := by
  induction r with
  | refused send => exact List.prefix_refl _
  | @last s link sent outcome send ends =>
    rw [RecoveryState.linkLogs send]
    exact List.prefix_append _ _
  | @more s link sent rounds run send goes later ih =>
    rw [RecoveryState.linkLogs send] at ih
    exact (List.prefix_append _ _).trans ih

structure Capped (size : UInt16) (cap : Nat) (s : RecoveryState) (rounds others : List Round)
    (whole run : RecoveryRun) : Prop where
  finished : ∃ report, run.result = .finished report ∧ report.outcome = .capReached ∧
    report.decoded = cap
  told : Stops cap (cap - s.pipeline.processed) whole.events run.events
  read : FillsUp (cap - s.pipeline.processed) (rounds.flatMap (Round.replies size))
    (others.flatMap (Round.replies size))
  sent : run.link.sent <+: whole.link.sent

theorem roundCapped {session : Session} {size : UInt16} {s : RecoveryState}
    {link sent : RerequestLink} {cap : Nat}
    (send : link.send (s.datagram session size) = .ok sent) (free : s.pipeline.cap = 0)
    (unfiltered : s.pipeline.filter = none) (below : s.pipeline.processed < cap)
    (reached : cap ≤ (s.next size sent).pipeline.processed) {rounds : List Round}
    {whole : RecoveryRun} {later : List FeedEvent}
    (events : whole.events = s.roundEvents session size sent ++ later)
    (logs : (s.linkBehind size sent).sent <+: whole.link.sent) :
    ∃ run, Recovers session size (s.limited cap) link [⟨s.limited cap, sent⟩] run ∧
      Capped size cap s (⟨s, sent⟩ :: rounds) [⟨s.limited cap, sent⟩] whole run := by
  let wanted := cap - s.pipeline.processed
  obtain ⟨read, received, capped, told⟩ :=
    Gathering.collectFills (g := ⟨s.pipeline, 0, 0⟩) free unfiltered below reached
  rw [Nat.zero_add] at received
  have counted : ((s.limited cap).chunk size sent).received = wanted := received
  have inside : ((s.limited cap).chunk size sent).events =
      upToMessage wanted (s.chunk size sent).events := told
  have decoded : ((s.limited cap).next size sent).pipeline.processed = cap := by
    rw [RecoveryState.nextCount, counted]
    exact Nat.add_sub_cancel' (Nat.le_of_lt below)
  have heard : (s.chunk size sent).events.countP FeedEvent.isMessage =
      (s.chunk size sent).received := (s.chunkHeard size sent).2 unfiltered
  have many : wanted ≤ (s.chunk size sent).events.countP FeedEvent.isMessage := by
    rw [s.nextCount] at reached
    omega
  have filled := upToCount many
  have cut : upToMessage wanted whole.events =
      [] ++ s.asked session size :: ((s.limited cap).chunk size sent).events := by
    rw [events, s.roundUpTo session (Nat.sub_pos_of_lt below) many, ← inside]
    rfl
  have ends : ((s.limited cap).next size sent).outcome? ((s.limited cap).chunk size sent) =
      some .capReached := if_pos capped
  refine ⟨_, .last send ends, ⟨_, rfl, rfl, decoded⟩, ?_, ?_, ?_⟩
  · have all : (upToMessage wanted whole.events).countP FeedEvent.isMessage = wanted := by
      rw [cut, inside]
      exact filled
    have stops : Stops cap wanted whole.events _ :=
      .inside all cut ((s.limited cap).chunkWaits size sent)
    rw [inside, filled, cut] at stops
    rw [RecoveryState.roundEvents, counted, RecoveryState.closing, decoded, List.append_assoc]
    exact stops
  · rw [List.flatMap_singleton, List.flatMap_cons]
    exact FillsUp.within read (List.prefix_append _ _)
  · rw [RecoveryState.linkLogs send] at logs
    rw [RecoveryState.linkLogs (s := s.limited cap) send]
    exact logs

theorem recoversCapped {session size s link rounds whole}
    (r : Recovers session size s link rounds whole) (free : s.pipeline.cap = 0)
    (unfiltered : s.pipeline.filter = none) {cap : Nat} (below : s.pipeline.processed < cap)
    (reached : cap ≤ s.pipeline.processed + (receivedCounts whole.events).sum) :
    ∃ others run, Recovers session size (s.limited cap) link others run ∧
      Capped size cap s rounds others whole run := by
  -- the uncapped count stands below the cap at the start of each round that both work through
  induction r with
  | refused send => exact absurd reached (Nat.not_le_of_lt below)
  | @last s link sent outcome send ends =>
    rw [s.roundCounts, RecoveryState.closingCounts, List.sum_singleton, ← s.nextCount] at reached
    exact ⟨_, roundCapped send free unfiltered below reached rfl (List.prefix_refl _)⟩
  | @more s link sent rounds whole send goes later ih =>
    rw [s.roundCounts, List.sum_cons, ← Nat.add_assoc, ← s.nextCount] at reached
    by_cases here : (s.next size sent).pipeline.processed < cap
    · obtain ⟨others, run, again, ⟨finished, told, read, logs⟩⟩ :=
        ih (RecoveryState.nextFree free size sent) (by rw [s.nextPipeline]; exact unfiltered) here
          reached
      have room : ((s.next size sent).pipeline.limited cap).capReached = false :=
        (Pipeline.uncappedIff _).mpr (.inr here)
      obtain ⟨round, behind⟩ := RecoveryState.roundUnder free room session
      rw [← RecoveryState.outcomeUnder free room] at goes
      rw [← RecoveryState.nextUnder free room, ← behind] at again
      have onward := Recovers.more (s := s.limited cap) send goes again
      rw [round] at onward
      have heard := RecoveryState.roundHeard unfiltered session size sent
      have frames := RecoveryState.roundFrames free size sent
      have counted := s.nextCount size sent
      refine ⟨_, _, onward, finished, ?_, ?_, logs⟩
      · apply Stops.behind (by omega)
        rwa [heard, Nat.sub_sub, ← counted]
      · have wanted : framesIn (Round.replies size ⟨s, sent⟩) +
            (cap - (s.next size sent).pipeline.processed) = cap - s.pipeline.processed := by omega
        rw [List.flatMap_cons, List.flatMap_cons, RecoveryState.repliesUnder free room, ← wanted]
        exact read.behind _
    · have logs : (s.linkBehind size sent).sent <+: whole.link.sent := recoversLogs later
      exact ⟨_, roundCapped send free unfiltered below (Nat.le_of_not_lt here) rfl logs⟩

variable {plan : RecoveryPlan} {table : Table} {live : List Reception} {batches : List (List Reply)}
  {failAt : Option (Nat × SendFault)} {cap : Nat}

theorem heardCounts {link : RerequestLink} {h : Header} {pipeline : Pipeline} {rest : RecoveryRun}
    (told : recover plan pipeline live link =
      { rest with events := .sessionAcquired h.session h.sequence :: rest.events }) :
    receivedCounts (recover plan pipeline live link).events = receivedCounts rest.events := by
  rw [told]
  rfl

theorem recoverUnder {link : RerequestLink}
    (below : (receivedCounts (recover plan (.fresh table none 0) live link).events).sum < cap) :
    recover plan (.fresh table none cap) live link =
      recover plan (.fresh table none 0) live link := by
  cases heard : firstHeader? live with
  | none => simp [recover, heard]
  | some h =>
    obtain ⟨rounds, rest, r, told⟩ := recoverHeard heard plan (.fresh table none 0) link
    have start : (Pipeline.fresh table none 0).processed = 0 := rfl
    rw [heardCounts told] at below
    obtain ⟨others, again⟩ := recoversUnder r rfl (by rw [start, Nat.zero_add]; exact below)
    exact (recoverFollows heard again).trans told.symm

theorem recoverCapped (limited : cap ≠ 0) {whole stopped : RecoveryRun}
    (uncapped : whole = recover plan (.fresh table none 0) live (.fresh (.script batches failAt)))
    (capped : stopped =
      recover plan (.fresh table none cap) live (.fresh (.script batches failAt)))
    (reached : cap ≤ (receivedCounts whole.events).sum) :
    (∃ report, stopped.result = .finished report ∧ report.outcome = .capReached ∧
        report.decoded = cap) ∧
      Stops cap cap whole.events stopped.events ∧
      FillsUp cap (whole.read batches) (stopped.read batches) ∧
      stopped.link.sent <+: whole.link.sent := by
  cases heard : firstHeader? live with
  | none =>
    obtain ⟨result, silent, _⟩ := recoverUnheard heard plan (.fresh table none 0)
      (.fresh (.script batches failAt))
    rw [uncapped, silent] at reached
    exact absurd (Nat.le_zero.mp reached) limited
  | some h =>
    obtain ⟨rounds, rest, r, told⟩ := recoverHeard heard plan (.fresh table none 0)
      (.fresh (.script batches failAt))
    have start : (Pipeline.fresh table none 0).processed = 0 := rfl
    have positive : 0 < cap := Nat.pos_of_ne_zero limited
    rw [uncapped, heardCounts told] at reached
    obtain ⟨others, run, again, ⟨finished, stops, read, sent⟩⟩ :=
      recoversCapped r rfl rfl positive (by rw [start, Nat.zero_add]; exact reached)
    rw [start, Nat.sub_zero] at stops read
    rw [← recoversRead r, ← recoversRead again] at read
    have followed : stopped =
        { run with events := .sessionAcquired h.session h.sequence :: run.events } :=
      capped.trans (recoverFollows heard again)
    rw [uncapped, told, followed]
    let acquired := FeedEvent.sessionAcquired h.session h.sequence
    have silent : [acquired].countP FeedEvent.isMessage = 0 := rfl
    refine ⟨finished, ?_, read, sent⟩
    exact Stops.behind (by rw [silent]; exact positive) (by rw [silent]; exact stops)

/- How a recovery ends at the frame that fills the cap, beside the one without a cap. The recovery
`whole` has no filter either: there each counted frame has its message, so that the message at the
cap shows the place of the cut. -/
structure CutByCap (filter : Option TypeFilter) (cap : Nat) (batches : List (List Reply))
    (whole free run : RecoveryRun) (datagrams : List Bytes) : Prop where
  finished : ∃ report, run.result = .finished report ∧ report.outcome = .capReached ∧
    report.decoded = cap
  shown : free.events = whole.events.filter (FeedEvent.admitted filter)
  told : ∃ told, Stops cap cap whole.events told ∧
    run.events = told.filter (FeedEvent.admitted filter)
  read : FillsUp cap (free.read batches) (run.read batches)
  requests : run.link.sent = (requested run.events).map Rerequest.write
  sent : run.link.sent <+: free.link.sent
  unattempted : datagrams = run.link.sent

theorem countsAdmitted (filter : Option TypeFilter) (events : List FeedEvent) :
    receivedCounts (events.filter (FeedEvent.admitted filter)) = receivedCounts events := by
  rw [receivedCounts, List.filterMap_filter]
  congr 1
  funext e
  cases e with
  | message session sequence m => exact ite_self none
  | _ => rfl

theorem Offered.whole {result : RecoveryResult} {link : RerequestLink} {datagrams : List Bytes}
    (offered : Offered result link datagrams) {report : RecoveryReport}
    (finished : result = .finished report) : datagrams = link.sent := by
  cases offered with
  | sent _ => rfl
  | refused _ => contradiction

theorem capCutsRecovery (plan : RecoveryPlan) (table : Table) (filter : Option TypeFilter)
    (cap : Nat) (live : List Reception) (batches : List (List Reply))
    (failAt : Option (Nat × SendFault)) :
    let link := RerequestLink.fresh (.script batches failAt)
    let whole := recover plan (.fresh table none 0) live link
    let free := recover plan (.fresh table filter 0) live link
    let run := recover plan (.fresh table filter cap) live link
    (cap ≠ 0 → cap ≤ (receivedCounts free.events).sum →
      CutByCap filter cap batches whole free run run.handed) ∧
    ((receivedCounts free.events).sum < cap → run = free) := by
  intro link whole free run
  let stopped := recover plan (.fresh table none cap) live link
  have shown : free = { whole with events := whole.events.filter (FeedEvent.admitted filter) } :=
    recoverFiltered plan table filter 0 live link
  have left : run = { stopped with events := stopped.events.filter (FeedEvent.admitted filter) } :=
    recoverFiltered plan table filter cap live link
  have counts : receivedCounts free.events = receivedCounts whole.events := by
    rw [shown]
    exact countsAdmitted filter whole.events
  rw [counts]
  constructor
  · intro limited reached
    obtain ⟨⟨report, finished, outcome, decoded⟩, stops, read, sent⟩ :=
      recoverCapped limited (rfl : whole = _) (rfl : stopped = _) reached
    obtain ⟨asked, offered⟩ :=
      recoverHands plan (.fresh table filter cap) live (.script batches failAt)
    have ended : run.result = .finished report := by rw [left, finished]
    have hands := Offered.whole offered ended
    exact {
      finished := ⟨report, ended, outcome, decoded⟩
      shown := by rw [shown]
      told := ⟨_, stops, by rw [left]⟩
      read := by rw [shown, left]; exact read
      requests := hands.symm.trans asked
      sent := by rw [shown, left]; exact sent
      unattempted := hands }
  · intro below
    have same : stopped = whole := recoverUnder below
    rw [left, shown, same]

/- The second datagram is cut behind its two frames, and the second of them, which the filter drops,
fills a cap of three. Without a cap the third request is refused; a cap of four changes nothing. -/
theorem capCutsRecoveryBeforeRefusal :
    let session : Session := ⟨List.replicate 10 0x41, rfl⟩
    let plan : RecoveryPlan := ⟨5, 0, 2, none⟩
    let live : List Reception := [.failure, .datagram (Header.write ⟨session, 90, 0⟩)]
    let batches : List (List Reply) :=
      [[.datagram (Header.write ⟨session, 5, 1⟩ ++ [0, 1, 0x42])],
        [.timeout, .datagram (Header.write ⟨session, 6, 3⟩ ++ [0, 1, 0x41, 0, 0, 0, 9])],
        [.datagram (Header.write ⟨session, 8, 1⟩ ++ [0, 0])]]
    let link := RerequestLink.fresh (.script batches (some (2, .refused)))
    let filter : Option TypeFilter := some ⟨[0x42]⟩
    let whole := recover plan (.fresh .empty none 0) live link
    let free := recover plan (.fresh .empty filter 0) live link
    let run := recover plan (.fresh .empty filter 3) live link
    free.result = .failed (.send .refused) ∧
      CutByCap filter 3 batches whole free run run.handed ∧
      recover plan (.fresh .empty filter 4) live link = free := by
  refine ⟨?_, ?_, ?_⟩
  · cbv
  · exact (capCutsRecovery _ _ _ 3 _ _ _).1 (by decide) (by cbv)
  · exact (capCutsRecovery _ _ _ 4 _ _ _).2 (by cbv)

end MarketFeed
