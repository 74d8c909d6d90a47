import Mathlib
import MarketFeed.Proofs.Recovery.Cursor
import MarketFeed.Proofs.Recovery.Rounds

/-! The books of a recovery against any server. Pipeline, chunks and cursor count the same messages,
and the outcome follows from how many they are. The server is a script of arbitrary replies, so
nothing is assumed of what it answers. -/
namespace MarketFeed

def receivedCount? : FeedEvent → Option Nat
  | .chunkFinished _ _ received => some received
  | _ => none

def receivedCounts (events : List FeedEvent) : List Nat := events.filterMap receivedCount?

def verdict (total cap decoded : Nat) : RecoveryOutcome :=
  if cap ≠ 0 ∧ decoded = cap then .capReached
  else if total ≠ 0 ∧ total ≤ decoded then .completed
  else if total ≠ 0 then .stalled
  else .endOfData

structure Tracks (start : UInt64) (total cap : Nat) (s : RecoveryState) : Prop where
  sequence : s.cursor.sequence.toNat =
    min 0xFFFFFFFFFFFFFFFF (start.toNat + s.pipeline.processed)
  bounded : s.cursor.bounded = (total != 0)
  remaining : total ≠ 0 → s.cursor.remaining = total - s.pipeline.processed
  limit : s.pipeline.cap = cap
  below : cap ≠ 0 → s.pipeline.processed ≤ cap

structure Underway (total : Nat) (s : RecoveryState) : Prop where
  uncapped : s.pipeline.capReached = false
  wanting : total ≠ 0 → s.pipeline.processed < total

namespace RecoveryState

variable {start : UInt64} {total cap : Nat} {s : RecoveryState} {size : UInt16}

theorem requestCount (t : Tracks start total cap s) (size : UInt16) :
    (s.request size).count.toNat =
      if total = 0 then size.toNat else min size.toNat (total - s.pipeline.processed) := by
  have count := s.cursor.requestCountToNat size
  rw [t.bounded] at count
  by_cases whole : total = 0
  · simpa [request, whole] using count
  · rw [if_pos (bne_iff_ne.mpr whole), t.remaining whole] at count
    rwa [if_neg whole]

theorem requestWanted (t : Tracks start total cap s) (u : Underway total s) (positive : size ≠ 0) :
    0 < (s.request size).count.toNat ∧
      (total ≠ 0 → (s.request size).count.toNat ≤ total - s.pipeline.processed) := by
  have asks : 0 < size.toNat := Nat.pos_of_ne_zero fun zero => positive (UInt16.toNat_inj.mp zero)
  have wanting := u.wanting
  rw [requestCount t size]
  split <;> omega

theorem nextCount (s : RecoveryState) (size : UInt16) (sent : RerequestLink) :
    (s.next size sent).pipeline.processed =
      s.pipeline.processed + (s.chunk size sent).received := by
  rw [nextPipeline]
  rfl

theorem nextTracks (t : Tracks start total cap s) (size : UInt16) (sent : RerequestLink) :
    Tracks start total cap (s.next size sent) where
  sequence := by
    have moved := addSatToNat s.cursor.sequence (s.chunk size sent).received
    have here := t.sequence
    rw [nextCount]
    change (addSat s.cursor.sequence (s.chunk size sent).received).toNat = _
    omega
  bounded := t.bounded
  remaining := by
    intro wanted
    have left := t.remaining wanted
    have spent : (s.next size sent).cursor.remaining =
        s.cursor.remaining - (s.chunk size sent).received := by
      simp [next, answered, RecoveryCursor.advance, t.bounded, wanted]
    rw [spent, nextCount]
    omega
  limit := by
    rw [nextPipeline]
    exact t.limit
  below := by
    intro limited
    have held := Gathering.collectBelow (g := ⟨s.pipeline, 0, 0⟩) (by rw [t.limit]; exact limited)
      (by rw [t.limit]; exact t.below limited) (s.request size) sent.inbox
    rw [t.limit] at held
    exact held

theorem chunkCap (t : Tracks start total cap s) (u : Underway total s) (positive : size ≠ 0)
    (sent : RerequestLink) :
    (s.chunk size sent).capReached = (s.next size sent).pipeline.capReached :=
  Gathering.collectCap u.uncapped (requestWanted t u positive).1 sent.inbox

theorem isDoneIff (t : Tracks start total cap s) :
    s.cursor.isDone = true ↔ total ≠ 0 ∧ total ≤ s.pipeline.processed := by
  rw [RecoveryCursor.isDoneIff, t.bounded, bne_iff_ne]
  constructor
  · intro ⟨wanted, nothing⟩
    have left := t.remaining wanted
    exact ⟨wanted, by omega⟩
  · intro ⟨wanted, enough⟩
    have left := t.remaining wanted
    exact ⟨wanted, by omega⟩

theorem cappedIff (t : Tracks start total cap s) :
    s.pipeline.capReached = true ↔ cap ≠ 0 ∧ s.pipeline.processed = cap := by
  rw [Pipeline.cappedIff, t.limit]
  constructor
  · intro ⟨limited, reached⟩
    have held := t.below limited
    exact ⟨limited, by omega⟩
  · intro ⟨limited, reached⟩
    exact ⟨limited, by omega⟩

theorem nextUnderway (t : Tracks start total cap s) (u : Underway total s) (positive : size ≠ 0)
    {sent : RerequestLink} (goes : (s.next size sent).outcome? (s.chunk size sent) = none) :
    Underway total (s.next size sent) := by
  unfold outcome? at goes
  split at goes <;> try contradiction
  rename_i uncapped
  split at goes <;> try contradiction
  split at goes <;> try contradiction
  rename_i unfinished
  refine ⟨?_, ?_⟩
  · rw [← chunkCap t u positive]
    simpa using uncapped
  · intro wanted
    have short := mt (isDoneIff (nextTracks t size sent)).mpr unfinished
    omega

theorem lastVerdict (t : Tracks start total cap s) (u : Underway total s) (positive : size ≠ 0)
    {sent : RerequestLink} {outcome : RecoveryOutcome}
    (ends : (s.next size sent).outcome? (s.chunk size sent) = some outcome) :
    outcome = verdict total cap (s.next size sent).pipeline.processed ∧
      (outcome = .stalled ∨ outcome = .endOfData → (s.chunk size sent).received = 0) := by
  have capped := cappedIff (nextTracks t size sent)
  rw [← chunkCap t u positive] at capped
  have finished := isDoneIff (nextTracks t size sent)
  have counted := s.nextCount size sent
  unfold outcome? at ends
  unfold verdict
  split at ends
  · rename_i reached
    cases ends
    exact ⟨by rw [if_pos (capped.mp reached)], by simp⟩
  · rename_i unreached
    rw [if_neg (mt capped.mpr unreached)]
    split at ends
    · rename_i nothing
      have short : ¬ (total ≠ 0 ∧ total ≤ (s.next size sent).pipeline.processed) := by
        intro ⟨wanted, enough⟩
        have wanting := u.wanting wanted
        omega
      cases ends
      refine ⟨?_, fun _ => nothing⟩
      rw [if_neg short, (nextTracks t size sent).bounded]
      by_cases whole : total = 0 <;> simp [whole]
    · split at ends <;> try contradiction
      rename_i enough
      cases ends
      exact ⟨by rw [if_pos (finished.mp enough)], by simp⟩

theorem lastDatagram (t : Tracks start total cap s) (u : Underway total s) (positive : size ≠ 0)
    {sent : RerequestLink}
    (enough : total ≠ 0 ∧ total ≤ (s.next size sent).pipeline.processed) :
    ∃ reply k, (Round.replies size ⟨s, sent⟩).getLast? = some reply ∧ reply.packet? = some k ∧
      (s.next size sent).pipeline.processed < total + k.bodies.length := by
  obtain ⟨asks, within⟩ := requestWanted t u positive
  have request := within enough.1
  have counted := s.nextCount size sent
  have wanting := u.wanting enough.1
  have answered : (s.request size).count.toNat ≤ (s.chunk size sent).received := by omega
  obtain ⟨reply, k, final, found, few⟩ :=
    Gathering.collectAnswered (g := ⟨s.pipeline, 0, 0⟩) asks answered
  have less : (s.chunk size sent).received < (s.request size).count.toNat + k.bodies.length := few
  exact ⟨reply, k, final, found, by omega⟩

theorem roundCounts (s : RecoveryState) (session : Session) (size : UInt16) (sent : RerequestLink)
    (later : List FeedEvent) :
    receivedCounts (s.roundEvents session size sent ++ later) =
      (s.chunk size sent).received :: receivedCounts later := by
  rw [receivedCounts, List.filterMap_append, roundPicks (fun e told => ?_) s session size sent]
  · rfl
  · cases e with
    | chunkFinished => contradiction
    | _ => rfl

theorem closingCounts (s : RecoveryState) (outcome : RecoveryOutcome) :
    receivedCounts (s.closing outcome) = [] := by
  cases outcome <;> rfl

end RecoveryState

theorem recoversAccounts {session size s link rounds run}
    (r : Recovers session size s link rounds run) (positive : size ≠ 0) {start : UInt64}
    {total cap : Nat} (t : Tracks start total cap s) (u : Underway total s) {report : RecoveryReport}
    (finished : run.result = .finished report) :
    ∃ final, Tracks start total cap final ∧
      report = final.report session (verdict total cap final.pipeline.processed) ∧
      final.pipeline.processed = s.pipeline.processed + (receivedCounts run.events).sum ∧
      (report.outcome = .stalled ∨ report.outcome = .endOfData →
        (receivedCounts run.events).getLast? = some 0) ∧
      (total ≠ 0 ∧ total ≤ final.pipeline.processed →
        ∃ reply k, (rounds.flatMap (Round.replies size)).getLast? = some reply ∧
          reply.packet? = some k ∧ final.pipeline.processed < total + k.bodies.length) := by
  induction r with
  | refused send => contradiction
  | @last s link sent outcome send ends =>
    obtain ⟨called, nothing⟩ := RecoveryState.lastVerdict t u positive ends
    have counts : receivedCounts (s.roundEvents session size sent ++
        (s.next size sent).closing outcome) = [(s.chunk size sent).received] := by
      rw [s.roundCounts, RecoveryState.closingCounts]
    cases finished
    refine ⟨s.next size sent, RecoveryState.nextTracks t size sent, by rw [← called], ?_, ?_, ?_⟩
    · simp [counts, s.nextCount]
    · intro dry
      simp [counts, nothing dry]
    · intro enough
      simpa using RecoveryState.lastDatagram t u positive enough
  | @more s link sent rounds run send goes later ih =>
    obtain ⟨final, tracks, same, sum, dry, surplus⟩ := ih (RecoveryState.nextTracks t size sent)
      (RecoveryState.nextUnderway t u positive goes) finished
    have counts := s.roundCounts session size sent run.events
    refine ⟨final, tracks, same, ?_, ?_, ?_⟩
    · rw [sum, s.nextCount]
      simp [counts, Nat.add_assoc]
    · intro ended
      simp [counts, List.getLast?_cons, dry ended]
    · intro enough
      obtain ⟨reply, k, final, found, few⟩ := surplus enough
      exact ⟨reply, k, by simp [final], found, few⟩

theorem startTracks (table : Table) (filter : Option TypeFilter) (cap : Nat) (start : UInt64)
    (total : Nat) :
    Tracks start total cap ⟨.fresh table filter cap, .start start total, 0⟩ where
  sequence := by
    have small := start.toNat_lt
    simp only [RecoveryCursor.start, Pipeline.fresh]
    omega
  bounded := rfl
  remaining := fun _ => rfl
  limit := rfl
  below := fun _ => Nat.zero_le cap

theorem startUnderway (table : Table) (filter : Option TypeFilter) (cap : Nat) (start : UInt64)
    (total : Nat) :
    Underway total ⟨.fresh table filter cap, .start start total, 0⟩ where
  uncapped := by
    rw [Pipeline.uncappedIff]
    simp only [Pipeline.fresh]
    omega
  wanting := Nat.pos_of_ne_zero

theorem finishedVerdict {plan : RecoveryPlan} {table : Table} {filter : Option TypeFilter}
    {cap : Nat} {live : List Reception} {link : RerequestLink} {report : RecoveryReport}
    (finished : (recover plan (.fresh table filter cap) live link).result = .finished report) :
    report.outcome = verdict plan.total cap report.decoded := by
  obtain ⟨h, heard⟩ := finishedHeard finished
  obtain ⟨rounds, run, r, whole⟩ := recoverHeard heard plan (.fresh table filter cap) link
  rw [whole] at finished
  obtain ⟨final, _, rfl, _⟩ := recoversAccounts r (chunkPositive plan.chunkSize)
    (startTracks table filter cap plan.start plan.total)
    (startUnderway table filter cap plan.start plan.total) finished
  rfl

structure Balanced (plan : RecoveryPlan) (cap : Nat) (events : List FeedEvent) (read : List Reply)
    (report : RecoveryReport) : Prop where
  decoded : report.decoded = (receivedCounts events).sum
  sequence : report.cursor.sequence.toNat =
    min 0xFFFFFFFFFFFFFFFF (plan.start.toNat + report.decoded)
  bounded : report.cursor.bounded = true ↔ plan.total ≠ 0
  remaining : report.cursor.bounded = true → report.cursor.remaining = plan.total - report.decoded
  below : cap ≠ 0 → report.decoded ≤ cap
  outcome : report.outcome = verdict plan.total cap report.decoded
  stalled : report.outcome = .stalled →
    report.decoded < plan.total ∧ (receivedCounts events).getLast? = some 0
  endOfData : report.outcome = .endOfData → (receivedCounts events).getLast? = some 0
  surplus : report.outcome = .completed →
    ∃ reply k, read.getLast? = some reply ∧ reply.packet? = some k ∧
      report.decoded - (plan.total - 1) ≤ k.bodies.length
  capOnly : plan.total = cap → cap ≠ 0 →
    report.outcome = .capReached ∧ report.decoded = cap ∨
      report.outcome = .stalled ∧ report.decoded < cap

theorem verdictStalled {total cap decoded : Nat} (stalled : verdict total cap decoded = .stalled) :
    decoded < total := by
  unfold verdict at stalled
  split at stalled <;> try contradiction
  split at stalled <;> try contradiction
  split at stalled <;> try contradiction
  omega

theorem verdictCompleted {total cap decoded : Nat}
    (completed : verdict total cap decoded = .completed) : total ≠ 0 ∧ total ≤ decoded := by
  unfold verdict at completed
  split at completed <;> try contradiction
  split at completed
  · assumption
  · split at completed <;> contradiction

theorem verdictCapOnly {cap decoded : Nat} (limited : cap ≠ 0) (below : decoded ≤ cap) :
    verdict cap cap decoded = .capReached ∧ decoded = cap ∨
      verdict cap cap decoded = .stalled ∧ decoded < cap := by
  unfold verdict
  by_cases reached : decoded = cap
  · exact .inl ⟨by simp [limited, reached], reached⟩
  · have short : ¬ cap ≤ decoded := by omega
    exact .inr ⟨by simp [limited, reached, short], by omega⟩

theorem recoveryBalanced (plan : RecoveryPlan) (table : Table) (filter : Option TypeFilter)
    (cap : Nat) (live : List Reception) (batches : List (List Reply))
    (failAt : Option (Nat × SendFault)) {run : RecoveryRun} {report : RecoveryReport}
    (runs : recover plan (.fresh table filter cap) live (.fresh (.script batches failAt)) = run)
    (finished : run.result = .finished report) :
    Balanced plan cap run.events (run.read batches) report := by
  subst runs
  obtain ⟨h, heard⟩ := finishedHeard finished
  obtain ⟨rounds, run, r, whole⟩ := recoverHeard heard plan (.fresh table filter cap)
    (.fresh (.script batches failAt))
  rw [whole] at finished ⊢
  have read := recoversRead r
  obtain ⟨final, t, rfl, sum, dry, surplus⟩ := recoversAccounts r (chunkPositive plan.chunkSize)
    (startTracks table filter cap plan.start plan.total)
    (startUnderway table filter cap plan.start plan.total) finished
  have counts : receivedCounts (.sessionAcquired h.session h.sequence :: run.events) =
      receivedCounts run.events := rfl
  have same : RecoveryRun.read { run with events := .sessionAcquired h.session h.sequence ::
      run.events } batches = rounds.flatMap (Round.replies (chunkOrDefault plan.chunkSize)) := read
  have bounded : final.cursor.bounded = true ↔ plan.total ≠ 0 := by simp [t.bounded]
  refine ⟨?_, t.sequence, bounded, fun wanted => t.remaining (bounded.mp wanted), t.below, rfl, ?_,
    fun ended => ?_, ?_, ?_⟩
  · rw [counts]
    simpa [Pipeline.fresh, RecoveryState.report] using sum
  · intro stalled
    rw [counts]
    exact ⟨verdictStalled stalled, dry (.inl stalled)⟩
  · rw [counts]
    exact dry (.inr ended)
  · intro completed
    obtain ⟨reply, k, last, found, few⟩ := surplus (verdictCompleted completed)
    refine ⟨reply, k, by rw [same, last], found, ?_⟩
    simp only [RecoveryState.report]
    omega
  · intro only limited
    simp only [RecoveryState.report, only]
    exact verdictCapOnly limited (t.below limited)

/- Three messages are wanted in chunks of two; the second datagram brings one more than asked. -/
theorem recoveryBalancedSurplus :
    let session : Session := ⟨List.replicate 10 0x41, rfl⟩
    let batches : List (List Reply) :=
      [[.timeout, .datagram (Header.write ⟨session, 5, 1⟩ ++ [0, 1, 0x41]),
        .datagram (Header.write ⟨session, 6, 3⟩ ++ [0, 1, 0x41, 0, 0, 0, 0]), .failure]]
    let run := recover ⟨5, 3, 2, none⟩ (.fresh .empty none 0)
      [.failure, .datagram (Header.write ⟨session, 90, 0⟩)] (.fresh (.script batches none))
    Balanced ⟨5, 3, 2, none⟩ 0 run.events (run.read batches)
      ⟨.completed, session, ⟨9, 0, true⟩, 1, 4⟩ :=
  recoveryBalanced _ _ _ _ _ _ _ rfl (by cbv)

end MarketFeed
