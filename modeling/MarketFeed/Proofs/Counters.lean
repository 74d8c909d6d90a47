import Mathlib
import MarketFeed.Proofs.Live.Steps
import MarketFeed.Proofs.Recovery.Bounds

/-! The counters in memory over whole runs: words of 64 bits for messages and packets, of 32 bits for
chunks. They hold the counts as long as no more frames and datagrams arrive than the words have numbers
for; the messages under a cap they always hold. -/
namespace MarketFeed

def framesOf (packets : List Packet) : Nat := (packets.map fun k => k.bodies.length).sum

namespace Pipeline

theorem roomBehind {p : Pipeline} {a b : Nat} (room : p.Room (a + b)) :
    p.Room a ∧ (p.counted (p.allowance a)).Room b := by
  constructor
  · intro unlimited
    have whole := room unlimited
    omega
  · intro unlimited
    have whole := room unlimited
    have all : p.allowance a = a := allowanceUnlimited (p := p) unlimited a
    rw [all]
    simp only [counted]
    omega

theorem workCounted (p : Pipeline) (packets : List Packet) :
    p.work packets = p.counted (p.allowance (framesOf packets)) := by
  induction packets generalizing p with
  | nil => exact (congrArg p.counted p.allowanceZero).symm
  | cons k rest ih =>
    have split : framesOf (k :: rest) = k.bodies.length + framesOf rest := rfl
    rw [work, ih, (p.processedPacket k).1, countedAgain, split, allowanceAdd]
    rfl

theorem workHeld {p : Pipeline} (held : p.Held) {packets : List Packet}
    (room : p.Room (framesOf packets)) : (p.work packets).Held := by
  rw [workCounted]
  exact countedHeld held room

end Pipeline

namespace LiveFeed

structure Held (f : LiveFeed) : Prop where
  pipeline : f.pipeline.Held
  packets : f.packets ≤ 0xFFFFFFFFFFFFFFFF

theorem stepHeld {f : LiveFeed} (held : f.Held) {r : Reception}
    (room : f.pipeline.Room (framesOf r.packet?.toList)) (few : f.packets < 0xFFFFFFFFFFFFFFFF) :
    (f.step r).feed.Held := by
  refine ⟨?_, ?_⟩
  · rw [(f.stepWorks r).1]
    exact Pipeline.workHeld held.pipeline room
  · cases found : r.packet? with
    | none =>
      rw [(stepSilent found).1]
      exact held.packets
    | some k =>
      rw [(stepPacket found).1]
      exact few

theorem stepPackets (f : LiveFeed) (r : Reception) :
    (f.step r).feed.packets ≤ f.packets + 1 := by
  cases found : r.packet? with
  | none =>
    rw [(stepSilent found).1]
    exact Nat.le_succ _
  | some k =>
    rw [(stepPacket found).1]

theorem listenHeld {f : LiveFeed} (held : f.Held) {script : List Reception}
    (room : f.pipeline.Room (framesOf (script.filterMap Reception.packet?)))
    (few : f.packets + script.length ≤ 0xFFFFFFFFFFFFFFFF) : (f.listen script).feed.Held := by
  induction script generalizing f with
  | nil => exact held
  | cons r rest ih =>
    have split : framesOf ((r :: rest).filterMap Reception.packet?) =
        framesOf r.packet?.toList + framesOf (rest.filterMap Reception.packet?) := by
      cases found : r.packet? <;> simp [framesOf, found]
    rw [split] at room
    rw [List.length_cons] at few
    obtain ⟨now, later⟩ := Pipeline.roomBehind room
    have behind : (f.step r).feed.Held := stepHeld held now (by omega)
    have more := f.stepPackets r
    rw [← Pipeline.workCounted, ← (f.stepWorks r).1] at later
    cases stops : (f.step r).stops with
    | true =>
      simp only [listen, stops, if_true]
      exact behind
    | false =>
      simp only [listen, stops, Bool.false_eq_true, if_false]
      exact ih behind later (by omega)

theorem runHeld {f : LiveFeed} (held : f.Held) {script : List Reception}
    (room : f.pipeline.Room (framesOf (script.filterMap Reception.packet?)))
    (few : f.packets + script.length ≤ 0xFFFFFFFFFFFFFFFF) : (f.run script).feed.Held := by
  unfold run
  split
  · exact held
  · exact listenHeld held room few

end LiveFeed

namespace RecoveryState

structure Held (s : RecoveryState) : Prop where
  pipeline : s.pipeline.Held
  chunks : s.chunks ≤ 0xFFFFFFFF

theorem nextAllowed (s : RecoveryState) (size : UInt16) (sent : RerequestLink) :
    (s.next size sent).pipeline =
      s.pipeline.counted (s.pipeline.allowance (framesIn (Round.replies size ⟨s, sent⟩))) :=
  (Gathering.collectAllowed ⟨s.pipeline, 0, 0⟩ (s.request size) sent.inbox).1

theorem nextHeld {s : RecoveryState} (held : s.Held) {size : UInt16} {sent : RerequestLink}
    (room : s.pipeline.Room (framesIn (Round.replies size ⟨s, sent⟩)))
    (few : s.chunks < 0xFFFFFFFF) : (s.next size sent).Held where
  pipeline := by
    rw [nextAllowed]
    exact Pipeline.countedHeld held.pipeline room
  chunks := few

end RecoveryState

theorem recoversHeld {session size s link rounds run}
    (r : Recovers session size s link rounds run) (held : s.Held)
    (room : s.pipeline.Room (framesIn (rounds.flatMap (Round.replies size))))
    (few : s.chunks + rounds.length ≤ 0xFFFFFFFF) :
    (∀ round ∈ rounds, round.state.Held) ∧
      ∀ report, run.result = .finished report →
        report.decoded ≤ 0xFFFFFFFFFFFFFFFF ∧ report.chunks ≤ 0xFFFFFFFF := by
  induction r with
  | refused send => exact ⟨fun round member => by contradiction, fun report finished => by contradiction⟩
  | @last s link sent outcome send ends =>
    rw [List.flatMap_singleton] at room
    have next := RecoveryState.nextHeld held room few
    refine ⟨List.forall_mem_singleton.mpr held, ?_⟩
    intro report finished
    cases finished
    exact ⟨next.pipeline.processed, next.chunks⟩
  | @more s link sent rounds run send goes later ih =>
    rw [List.flatMap_cons, framesAppend] at room
    rw [List.length_cons] at few
    obtain ⟨now, rest⟩ := Pipeline.roomBehind room
    rw [← RecoveryState.nextAllowed] at rest
    have next := RecoveryState.nextHeld held now (by omega)
    have shorter : (s.next size sent).chunks + rounds.length ≤ 0xFFFFFFFF := by
      change s.chunks + 1 + rounds.length ≤ _
      omega
    obtain ⟨states, finish⟩ := ih next rest shorter
    exact ⟨List.forall_mem_cons.mpr ⟨held, states⟩, finish⟩

theorem Pipeline.contributorsFew (p : Pipeline) (packets : List Packet) :
    (p.contributors packets).length ≤ packets.length := by
  induction packets generalizing p with
  | nil => exact Nat.le_refl _
  | cons k rest ih =>
    have later := ih (p.process k.header k.raw).pipeline
    unfold contributors
    split <;> simp only [List.length_cons] <;> omega

theorem packetsFew (replies : List Reply) :
    (replies.filterMap Reply.packet?).length ≤ replies.countP Reply.isDatagram := by
  induction replies with
  | nil => exact Nat.le_refl _
  | cons reply rest ih =>
    cases reply with
    | timeout => exact ih
    | failure => exact ih
    | datagram raw =>
      have one : (Reply.datagram raw).isDatagram = true := rfl
      rw [List.countP_cons_of_pos one]
      cases found : (Reply.datagram raw).packet? with
      | none =>
        rw [List.filterMap_cons_none found]
        exact Nat.le_succ_of_le ih
      | some k =>
        rw [List.filterMap_cons_some found]
        exact Nat.succ_le_succ ih

/- The replies that a run reads bound what it counts: each chunk but the last has a datagram of its own. -/
theorem recoveryHeld (plan : RecoveryPlan) (table : Table) (filter : Option TypeFilter)
    (cap : UInt64) (live : List Reception) (batches : List (List Reply))
    (failAt : Option (Nat × SendFault)) {run : RecoveryRun} {report : RecoveryReport}
    (runs : recover plan (.fresh table filter cap.toNat) live (.fresh (.script batches failAt)) = run)
    (finished : run.result = .finished report)
    (frames : cap = 0 → framesIn (run.read batches) ≤ 0xFFFFFFFFFFFFFFFF)
    (datagrams : (run.read batches).countP Reply.isDatagram < 0xFFFFFFFF) :
    report.decoded ≤ 0xFFFFFFFFFFFFFFFF ∧ report.chunks ≤ 0xFFFFFFFF := by
  subst runs
  obtain ⟨h, heard⟩ := finishedHeard finished
  obtain ⟨rounds, run, r, whole⟩ := recoverHeard heard plan (.fresh table filter cap.toNat)
    (.fresh (.script batches failAt))
  rw [whole] at finished frames datagrams
  have read := recoversRead r
  have same : RecoveryRun.read { run with events := .sessionAcquired h.session h.sequence ::
      run.events } batches = rounds.flatMap (Round.replies (chunkOrDefault plan.chunkSize)) := read
  rw [same] at frames datagrams
  obtain ⟨sent, paid⟩ := recoversSend r
  have packets := Pipeline.contributorsFew (.fresh table filter cap.toNat)
    (rounds.flatMap (Round.packets (chunkOrDefault plan.chunkSize)))
  have replies := packetsFew (rounds.flatMap (Round.replies (chunkOrDefault plan.chunkSize)))
  rw [List.filterMap_flatMap] at replies
  have few : rounds.length ≤ 0xFFFFFFFF := by
    change (rounds.flatMap (Round.packets _)).length ≤ _ at replies
    dsimp only at paid
    omega
  have held : RecoveryState.Held
      ⟨.fresh table filter cap.toNat, .start plan.start plan.total, 0⟩ :=
    ⟨Pipeline.freshHeld table filter cap, Nat.zero_le _⟩
  have room : (Pipeline.fresh table filter cap.toNat).Room
      (framesIn (rounds.flatMap (Round.replies (chunkOrDefault plan.chunkSize)))) := by
    intro unlimited
    rw [Pipeline.fresh, Nat.zero_add]
    exact frames (UInt64.toNat_inj.mp unlimited)
  exact (recoversHeld r held room (by simpa using few)).2 report finished

end MarketFeed
