import Mathlib
import MarketFeed.Recovery.Chunk
import MarketFeed.Proofs.Stream

/-! The wait for the replies to one rerequest. What it reads is a front part of the replies it
finds; pipeline and events behind it are those of working through the packets read, in their order,
with nothing but timeouts told besides. -/
namespace MarketFeed

def Reply.packet? : Reply → Option Packet
  | .datagram raw => Packet.read? raw
  | .timeout | .failure => none

def framesIn (replies : List Reply) : Nat :=
  ((replies.filterMap Reply.packet?).map fun k => k.bodies.length).sum

theorem framesAppend (a b : List Reply) : framesIn (a ++ b) = framesIn a + framesIn b := by
  simp [framesIn]

theorem framesNone {reply : Reply} (absent : reply.packet? = none) : framesIn [reply] = 0 := by
  simp [framesIn, absent]

theorem framesPacket {reply : Reply} {k : Packet} (found : reply.packet? = some k) :
    framesIn [reply] = k.bodies.length := by
  simp [framesIn, found]

def FeedEvent.whileWaiting : FeedEvent → Bool
  | .message _ _ _ | .endOfSession _ _ | .frameOverrun _ _ _ | .replyTimeout _ _ _ => true
  | _ => false

theorem ofPacketWaits {e : FeedEvent} (told : e.ofPacket = true) : e.whileWaiting = true := by
  cases e <;> simp [FeedEvent.ofPacket, FeedEvent.whileWaiting] at told ⊢

namespace Gathering

theorem takePacket {reply : Reply} {k : Packet} (found : reply.packet? = some k) (g : Gathering)
    (request : ChunkRequest) :
    g.take request reply =
      ⟨⟨g.pipeline.counted (g.pipeline.taken k), g.received + g.pipeline.taken k, 0⟩,
        (g.pipeline.counted (g.pipeline.taken k)).capReached ||
          decide (request.count.toNat ≤ g.received + g.pipeline.taken k),
        (g.pipeline.counted (g.pipeline.taken k)).capReached,
        (g.pipeline.process k.header k.raw).events⟩ := by
  cases reply with
  | timeout => contradiction
  | failure => contradiction
  | datagram raw =>
    obtain ⟨ok, cut⟩ := Packet.readSome found
    obtain ⟨pipeline, processed, capped⟩ := g.pipeline.processedPacket k
    rw [← cut] at ok
    simp [take, ok, ← cut, pipeline, processed, capped]

theorem takeOther {reply : Reply} (absent : reply.packet? = none) (g : Gathering)
    (request : ChunkRequest) :
    (g.take request reply).state.pipeline = g.pipeline ∧
      (g.take request reply).state.received = g.received ∧
      (g.take request reply).capReached = false ∧
      ∀ e ∈ (g.take request reply).events,
        ∃ attempt, e = .replyTimeout request.start request.count attempt := by
  cases reply with
  | timeout => simp [take]
  | failure => simp [take]
  | datagram raw =>
    obtain ⟨e, failed⟩ := Packet.readNone absent
    simp [take, failed]

theorem datagramBreaks (g : Gathering) (request : ChunkRequest) (raw : Bytes) :
    (g.take request (.datagram raw)).state.timeouts = 0 := by
  cases found : Packet.read? raw with
  | none =>
    obtain ⟨e, failed⟩ := Packet.readNone found
    simp [take, failed]
  | some k =>
    have packet : Reply.packet? (.datagram raw) = some k := found
    rw [takePacket packet]

theorem collectEnded {g : Gathering} {request : ChunkRequest} {reply : Reply}
    (ended : (g.take request reply).ended = true) (rest : List Reply) :
    g.collect request (reply :: rest) =
      ⟨(g.take request reply).state.pipeline, (g.take request reply).state.received,
        (g.take request reply).capReached, (g.take request reply).events, rest⟩ := by
  simp [collect, ended]

theorem collectOn {g : Gathering} {request : ChunkRequest} {reply : Reply}
    (goes : (g.take request reply).ended = false) (rest : List Reply) :
    g.collect request (reply :: rest) =
      { (g.take request reply).state.collect request rest with
        events := (g.take request reply).events ++
          ((g.take request reply).state.collect request rest).events } := by
  simp [collect, goes]

def reads (g : Gathering) (request : ChunkRequest) : List Reply → List Reply
  | [] => []
  | reply :: rest =>
    if (g.take request reply).ended then [reply]
    else reply :: (g.take request reply).state.reads request rest

theorem readsEnded {g : Gathering} {request : ChunkRequest} {reply : Reply}
    (ended : (g.take request reply).ended = true) (rest : List Reply) :
    g.reads request (reply :: rest) = [reply] := by
  simp [reads, ended]

theorem readsOn {g : Gathering} {request : ChunkRequest} {reply : Reply}
    (goes : (g.take request reply).ended = false) (rest : List Reply) :
    g.reads request (reply :: rest) = reply :: (g.take request reply).state.reads request rest := by
  simp [reads, goes]

theorem readsUnread (g : Gathering) (request : ChunkRequest) (replies : List Reply) :
    g.reads request replies ++ (g.collect request replies).unread = replies := by
  induction replies generalizing g with
  | nil => rfl
  | cons reply rest ih =>
    cases ended : (g.take request reply).ended with
    | true => simp [reads, collectEnded ended, ended]
    | false => simp [reads, collectOn ended, ended, ih]

def packets (g : Gathering) (request : ChunkRequest) (replies : List Reply) : List Packet :=
  (g.reads request replies).filterMap Reply.packet?

theorem takeWorks (g : Gathering) (request : ChunkRequest) (reply : Reply) :
    (g.take request reply).state.pipeline = g.pipeline.work reply.packet?.toList ∧
      (g.take request reply).events.filter FeedEvent.ofPacket =
        g.pipeline.workEvents reply.packet?.toList := by
  cases found : reply.packet? with
  | none =>
    obtain ⟨stays, _, _, timeouts⟩ := takeOther found g request
    refine ⟨stays, List.filter_eq_nil_iff.mpr ?_⟩
    intro e member told
    obtain ⟨attempt, rfl⟩ := timeouts e member
    contradiction
  | some k =>
    rw [takePacket found]
    refine ⟨(g.pipeline.processedPacket k).1.symm, ?_⟩
    rw [List.filter_eq_self.mpr (g.pipeline.processOfPacket k)]
    exact (List.append_nil _).symm

theorem collectWorks (g : Gathering) (request : ChunkRequest) (replies : List Reply) :
    (g.collect request replies).pipeline = g.pipeline.work (g.packets request replies) ∧
      (g.collect request replies).events.filter FeedEvent.ofPacket =
        g.pipeline.workEvents (g.packets request replies) := by
  induction replies generalizing g with
  | nil =>
    refine ⟨rfl, List.filter_eq_nil_iff.mpr ?_⟩
    intro e member
    obtain ⟨attempt, _, rfl⟩ := List.mem_map.mp member
    exact Bool.false_ne_true
  | cons reply rest ih =>
    obtain ⟨pipeline, events⟩ := takeWorks g request reply
    have split : g.packets request (reply :: rest) = reply.packet?.toList ++
        if (g.take request reply).ended then []
        else (g.take request reply).state.packets request rest := by
      cases ended : (g.take request reply).ended <;> cases found : reply.packet? <;>
        simp [packets, reads, ended, found]
    rw [split, Pipeline.workAppend, Pipeline.workEventsAppend, ← pipeline, ← events]
    cases ended : (g.take request reply).ended with
    | true => simp [collectEnded ended, Pipeline.work, Pipeline.workEvents]
    | false =>
      obtain ⟨later, told⟩ := ih (g.take request reply).state
      simp [collectOn ended, later, told]

theorem collectTells (g : Gathering) (request : ChunkRequest) (replies : List Reply) :
    ∀ e ∈ (g.collect request replies).events, e.ofPacket = true ∨
      ∃ attempt, e = .replyTimeout request.start request.count attempt := by
  induction replies generalizing g with
  | nil =>
    intro e member
    obtain ⟨attempt, _, rfl⟩ := List.mem_map.mp member
    exact .inr ⟨attempt, rfl⟩
  | cons reply rest ih =>
    have here : ∀ e ∈ (g.take request reply).events, e.ofPacket = true ∨
        ∃ attempt, e = .replyTimeout request.start request.count attempt := by
      intro e member
      cases found : reply.packet? with
      | none => exact .inr ((takeOther found g request).2.2.2 e member)
      | some k =>
        rw [takePacket found] at member
        exact .inl (g.pipeline.processOfPacket k e member)
    intro e member
    cases ended : (g.take request reply).ended with
    | true => exact here e (by rwa [collectEnded ended] at member)
    | false =>
      rw [collectOn ended] at member
      rcases List.mem_append.mp member with now | later
      · exact here e now
      · exact ih _ e later

theorem takeAllowed (g : Gathering) (request : ChunkRequest) (reply : Reply) :
    (g.take request reply).state.pipeline =
        g.pipeline.counted (g.pipeline.allowance (framesIn [reply])) ∧
      (g.take request reply).state.received =
        g.received + g.pipeline.allowance (framesIn [reply]) := by
  cases found : reply.packet? with
  | none =>
    obtain ⟨pipeline, received, _, _⟩ := takeOther found g request
    rw [framesNone found, Pipeline.allowanceZero, pipeline, received]
    exact ⟨rfl, rfl⟩
  | some k =>
    rw [framesPacket found, takePacket found]
    exact ⟨rfl, rfl⟩

theorem collectAllowed (g : Gathering) (request : ChunkRequest) (replies : List Reply) :
    (g.collect request replies).pipeline =
        g.pipeline.counted (g.pipeline.allowance (framesIn (g.reads request replies))) ∧
      (g.collect request replies).received =
        g.received + g.pipeline.allowance (framesIn (g.reads request replies)) := by
  induction replies generalizing g with
  | nil =>
    have nothing : framesIn (g.reads request []) = 0 := rfl
    rw [nothing, Pipeline.allowanceZero]
    exact ⟨rfl, rfl⟩
  | cons reply rest ih =>
    obtain ⟨pipeline, received⟩ := takeAllowed g request reply
    cases ended : (g.take request reply).ended with
    | true =>
      rw [collectEnded ended, readsEnded ended]
      exact ⟨pipeline, received⟩
    | false =>
      obtain ⟨later, more⟩ := ih (g.take request reply).state
      rw [pipeline, Pipeline.countedAgain] at later
      rw [pipeline, received, Nat.add_assoc] at more
      rw [collectOn ended, readsOn ended, ← List.singleton_append, framesAppend,
        Pipeline.allowanceAdd]
      exact ⟨later, more⟩

theorem takeHeard (g : Gathering) (request : ChunkRequest) (reply : Reply) :
    g.received + (g.take request reply).events.countP FeedEvent.isMessage ≤
        (g.take request reply).state.received ∧
      (g.pipeline.filter = none →
        g.received + (g.take request reply).events.countP FeedEvent.isMessage =
          (g.take request reply).state.received) := by
  cases found : reply.packet? with
  | none =>
    obtain ⟨_, received, _, timeouts⟩ := takeOther found g request
    have silent : (g.take request reply).events.countP FeedEvent.isMessage = 0 := by
      rw [List.countP_eq_zero]
      intro e member
      obtain ⟨attempt, rfl⟩ := timeouts e member
      exact Bool.false_ne_true
    rw [silent, received]
    exact ⟨Nat.le_refl _, fun _ => rfl⟩
  | some k =>
    obtain ⟨few, all⟩ := g.pipeline.processHeard k
    rw [takePacket found]
    exact ⟨Nat.add_le_add_left few _, fun unfiltered => by simp only [all unfiltered]⟩

theorem collectHeard (g : Gathering) (request : ChunkRequest) (replies : List Reply) :
    g.received + (g.collect request replies).events.countP FeedEvent.isMessage ≤
        (g.collect request replies).received ∧
      (g.pipeline.filter = none →
        g.received + (g.collect request replies).events.countP FeedEvent.isMessage =
          (g.collect request replies).received) := by
  induction replies generalizing g with
  | nil =>
    have silent : (g.collect request []).events.countP FeedEvent.isMessage = 0 := by
      rw [List.countP_eq_zero]
      intro e member
      obtain ⟨attempt, _, rfl⟩ := List.mem_map.mp member
      exact Bool.false_ne_true
    rw [silent]
    exact ⟨Nat.le_refl _, fun _ => rfl⟩
  | cons reply rest ih =>
    obtain ⟨few, all⟩ := takeHeard g request reply
    cases ended : (g.take request reply).ended with
    | true =>
      rw [collectEnded ended]
      exact ⟨few, all⟩
    | false =>
      obtain ⟨fewer, every⟩ := ih (g.take request reply).state
      obtain ⟨pipeline, _⟩ := takeAllowed g request reply
      rw [pipeline] at every
      rw [collectOn ended, List.countP_append]
      refine ⟨by simp only; omega, fun unfiltered => ?_⟩
      have here := all unfiltered
      have later := every unfiltered
      simp only
      omega

theorem takeCap {g : Gathering} (uncapped : g.pipeline.capReached = false) (request : ChunkRequest)
    (reply : Reply) :
    (g.take request reply).capReached = (g.take request reply).state.pipeline.capReached := by
  cases found : reply.packet? with
  | none =>
    obtain ⟨pipeline, _, capped, _⟩ := takeOther found g request
    rw [capped, pipeline, uncapped]
  | some k => rw [takePacket found]

theorem takeGoes {g : Gathering} {request : ChunkRequest} (short : g.received < request.count.toNat)
    {reply : Reply} (goes : (g.take request reply).ended = false) :
    (g.take request reply).capReached = false ∧
      (g.take request reply).state.received < request.count.toNat := by
  cases found : reply.packet? with
  | none =>
    obtain ⟨_, received, capped, _⟩ := takeOther found g request
    exact ⟨capped, by rwa [received]⟩
  | some k =>
    rw [takePacket found] at goes ⊢
    obtain ⟨capped, missing⟩ := Bool.or_eq_false_iff.mp goes
    exact ⟨capped, Nat.lt_of_not_le (of_decide_eq_false missing)⟩

theorem collectCap {g : Gathering} (uncapped : g.pipeline.capReached = false)
    {request : ChunkRequest} (short : g.received < request.count.toNat) (replies : List Reply) :
    (g.collect request replies).capReached = (g.collect request replies).pipeline.capReached := by
  induction replies generalizing g with
  | nil => exact uncapped.symm
  | cons reply rest ih =>
    cases ended : (g.take request reply).ended with
    | true => rw [collectEnded ended]; exact takeCap uncapped request reply
    | false =>
      obtain ⟨capped, missing⟩ := takeGoes short ended
      rw [takeCap uncapped] at capped
      rw [collectOn ended]
      exact ih capped missing

theorem collectBelow {g : Gathering} (limited : g.pipeline.cap ≠ 0)
    (below : g.pipeline.processed ≤ g.pipeline.cap) (request : ChunkRequest) (replies : List Reply) :
    (g.collect request replies).pipeline.processed ≤ g.pipeline.cap := by
  rw [(collectAllowed g request replies).1]
  exact Pipeline.allowanceBelow limited below _

theorem collectAnswered {g : Gathering} {request : ChunkRequest}
    (short : g.received < request.count.toNat) {replies : List Reply}
    (answered : request.count.toNat ≤ (g.collect request replies).received) :
    ∃ reply k, (g.reads request replies).getLast? = some reply ∧ reply.packet? = some k ∧
      (g.collect request replies).received < request.count.toNat + k.bodies.length := by
  induction replies generalizing g with
  | nil =>
    have stays : (g.collect request []).received = g.received := rfl
    omega
  | cons reply rest ih =>
    cases ended : (g.take request reply).ended with
    | true =>
      rw [collectEnded ended] at answered ⊢
      simp only at answered ⊢
      cases found : reply.packet? with
      | none => rw [(takeOther found g request).2.1] at answered; omega
      | some k =>
        have few : g.pipeline.taken k ≤ k.bodies.length := Pipeline.allowanceLe _ _
        refine ⟨reply, k, by simp [reads, ended], found, ?_⟩
        rw [takePacket found]
        simp only
        omega
    | false =>
      rw [collectOn ended] at answered ⊢
      obtain ⟨last, k, final, found, few⟩ := ih (takeGoes short ended).2 answered
      refine ⟨last, k, ?_, found, few⟩
      simp [reads, ended, List.getLast?_cons, final]

end Gathering
end MarketFeed
