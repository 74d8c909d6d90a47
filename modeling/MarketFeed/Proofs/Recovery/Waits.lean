import Mathlib.Data.Nat.Find
import MarketFeed.Proofs.Recovery.Replies

/-! Where a wait for replies ends. How much it has counted, how long the replies have been silent and
whether it is over can all be read off the replies heard so far, without the wait; the wait ends at
the first reply behind which it is over. -/
namespace MarketFeed

def Reply.isTimeout : Reply → Bool
  | .timeout => true
  | .datagram _ | .failure => false

/- Behind the replies at hand every receive times out. -/
def replyAt (replies : List Reply) (i : Nat) : Reply := replies[i]?.getD .timeout

def firstReplies (replies : List Reply) (n : Nat) : List Reply :=
  (List.range n).map (replyAt replies)

def silence (heard : List Reply) : Nat := (heard.reverse.takeWhile Reply.isTimeout).length

namespace Pipeline

def behind (p : Pipeline) (heard : List Reply) : Pipeline := p.counted (p.allowance (framesIn heard))

end Pipeline

inductive WaitOver (p : Pipeline) (request : ChunkRequest) (heard : List Reply) : Prop where
  | answered (enough : request.count.toNat ≤ p.allowance (framesIn heard))
  | capped (full : (p.behind heard).capReached = true)
  | failed (last : heard.getLast? = some .failure)
  | silent (long : 3 ≤ silence heard)

def toldAt (p : Pipeline) (request : ChunkRequest) (heard : List Reply) : Reply → List FeedEvent
  | .timeout => [.replyTimeout request.start request.count (silence (heard ++ [.timeout]))]
  | .failure => []
  | .datagram raw =>
    match Packet.read? raw with
    | none => []
    | some k => ((p.behind heard).process k.header k.raw).events

theorem silenceTimeout (heard : List Reply) : silence (heard ++ [.timeout]) = silence heard + 1 := by
  simp [silence, List.takeWhile_cons, Reply.isTimeout]

theorem silenceBroken (heard : List Reply) {reply : Reply} (sound : reply.isTimeout = false) :
    silence (heard ++ [reply]) = 0 := by
  simp [silence, sound]

theorem firstNext (replies : List Reply) (n : Nat) :
    firstReplies replies (n + 1) = firstReplies replies n ++ [replyAt replies n] := by
  simp [firstReplies, List.range_succ]

theorem silenceDry (replies : List Reply) (n : Nat) :
    n ≤ silence (firstReplies replies (replies.length + n)) := by
  induction n with
  | zero => exact Nat.zero_le _
  | succ n ih =>
    have dry : replyAt replies (replies.length + n) = .timeout := by simp [replyAt]
    rw [← Nat.add_assoc, firstNext, dry, silenceTimeout]
    omega

theorem framesUnframed (heard : List Reply) {reply : Reply}
    (unframed : ∀ k, reply.packet? = some k → k.bodies = []) :
    framesIn (heard ++ [reply]) = framesIn heard := by
  cases found : reply.packet? with
  | none => rw [framesAppend, framesNone found, Nat.add_zero]
  | some k =>
    rw [framesAppend, framesPacket found, unframed k found, List.length_nil, Nat.add_zero]

namespace Pipeline

theorem behindNone (p : Pipeline) : p.behind [] = p := by
  simp [behind, framesIn, allowanceZero, countedZero]

theorem behindAppend (p : Pipeline) (heard : List Reply) (reply : Reply) :
    p.behind (heard ++ [reply]) =
      (p.behind heard).counted ((p.behind heard).allowance (framesIn [reply])) := by
  simp [behind, framesAppend, allowanceAdd, countedAgain]

theorem allowanceAppend (p : Pipeline) (heard : List Reply) (reply : Reply) :
    p.allowance (framesIn (heard ++ [reply])) =
      p.allowance (framesIn heard) + (p.behind heard).allowance (framesIn [reply]) := by
  rw [framesAppend, allowanceAdd]
  rfl

end Pipeline

namespace Gathering

def behind (p : Pipeline) (heard : List Reply) : Gathering :=
  ⟨p.behind heard, p.allowance (framesIn heard), silence heard⟩

theorem takeBehind (p : Pipeline) (request : ChunkRequest) (heard : List Reply) (reply : Reply) :
    ((behind p heard).take request reply).state.pipeline = p.behind (heard ++ [reply]) ∧
      ((behind p heard).take request reply).state.received =
        p.allowance (framesIn (heard ++ [reply])) := by
  rw [Pipeline.behindAppend, Pipeline.allowanceAppend]
  exact takeAllowed (behind p heard) request reply

theorem takeTells (p : Pipeline) (request : ChunkRequest) (heard : List Reply) (reply : Reply) :
    ((behind p heard).take request reply).events = toldAt p request heard reply := by
  cases reply with
  | timeout => simp [take, behind, toldAt, silenceTimeout]
  | failure => rfl
  | datagram raw =>
    cases read : Packet.read? raw with
    | none =>
      obtain ⟨e, failed⟩ := Packet.readNone read
      simp [take, toldAt, failed, read]
    | some k =>
      have packet : Reply.packet? (.datagram raw) = some k := read
      rw [takePacket packet]
      simp [toldAt, read, behind]

end Gathering

namespace WaitOver

variable {p : Pipeline} {request : ChunkRequest} {heard : List Reply}

theorem unanswered (going : ¬ WaitOver p request heard) :
    ¬ request.count.toNat ≤ p.allowance (framesIn heard) :=
  fun enough => going (.answered enough)

theorem notFull (going : ¬ WaitOver p request heard) : (p.behind heard).capReached = false := by
  cases full : (p.behind heard).capReached with
  | false => rfl
  | true => exact absurd (.capped full) going

theorem patient (going : ¬ WaitOver p request heard) : silence heard < maxTimeouts :=
  Nat.lt_of_not_le fun long => going (.silent long)

theorem notYet (wants : 1 ≤ request.count.toNat) (uncapped : p.capReached = false) :
    ¬ WaitOver p request [] := by
  rintro (enough | full | last | long)
  · simp [framesIn, Pipeline.allowanceZero] at enough; omega
  · rw [Pipeline.behindNone, uncapped] at full; contradiction
  · contradiction
  · contradiction

theorem append (reply : Reply) : WaitOver p request (heard ++ [reply]) ↔
    request.count.toNat ≤ p.allowance (framesIn (heard ++ [reply])) ∨
      (p.behind (heard ++ [reply])).capReached = true ∨ reply = .failure ∨
      3 ≤ silence (heard ++ [reply]) := by
  constructor
  · rintro (enough | full | last | long)
    · exact .inl enough
    · exact .inr (.inl full)
    · exact .inr (.inr (.inl (by simpa using last)))
    · exact .inr (.inr (.inr long))
  · rintro (enough | full | rfl | long)
    · exact .answered enough
    · exact .capped full
    · exact .failed (by simp)
    · exact .silent long

theorem attempts {replies : List Reply} {n i : Nat}
    (first : ∀ m < n, ¬ WaitOver p request (firstReplies replies m)) (inside : i < n)
    (timeout : replyAt replies i = .timeout) :
    silence (firstReplies replies (i + 1)) ∈ [1, 2, 3] ∧
      (silence (firstReplies replies (i + 1)) = 3 → i + 1 = n) := by
  have before : silence (firstReplies replies i) < 3 := patient (first i inside)
  have longer : silence (firstReplies replies (i + 1)) = silence (firstReplies replies i) + 1 := by
    rw [firstNext, timeout, silenceTimeout]
  refine ⟨by simp; omega, fun third => ?_⟩
  have done : WaitOver p request (firstReplies replies (i + 1)) := .silent (Nat.le_of_eq third.symm)
  exact Nat.le_antisymm inside (Nat.le_of_not_lt fun early => first (i + 1) early done)

end WaitOver

namespace Gathering

variable {p : Pipeline} {request : ChunkRequest} {heard : List Reply}

theorem takeEnds (going : ¬ WaitOver p request heard) (reply : Reply) :
    ((behind p heard).take request reply).ended = true ↔ WaitOver p request (heard ++ [reply]) := by
  have unanswered := WaitOver.unanswered going
  have notFull := WaitOver.notFull going
  rw [WaitOver.append, Pipeline.behindAppend, Pipeline.allowanceAppend]
  cases found : reply.packet? with
  | none =>
    rw [framesNone found, Pipeline.allowanceZero, Pipeline.countedZero, Nat.add_zero]
    cases reply with
    | timeout => simp [take, behind, silenceTimeout, maxTimeouts, unanswered, notFull]
    | failure => simp [take]
    | datagram raw =>
      obtain ⟨e, failed⟩ := Packet.readNone found
      have broken : silence (heard ++ [.datagram raw]) = 0 := silenceBroken heard rfl
      simp [take, failed, broken, unanswered, notFull]
  | some k =>
    have datagram : reply ≠ .failure ∧ reply.isTimeout = false := by
      cases reply <;> simp [Reply.packet?, Reply.isTimeout] at found ⊢
    rw [takePacket found, framesPacket found, silenceBroken heard datagram.2, Bool.or_eq_true, decide_eq_true_eq,
      or_comm]
    simp [behind, datagram.1, Pipeline.taken]

theorem takeOn {reply : Reply} (goes : ¬ ((behind p heard).take request reply).ended = true) :
    ((behind p heard).take request reply).state = behind p (heard ++ [reply]) := by
  obtain ⟨pipeline, received⟩ := takeBehind p request heard reply
  have timeouts : ((behind p heard).take request reply).state.timeouts =
      silence (heard ++ [reply]) := by
    cases reply with
    | timeout => simp [take, behind, silenceTimeout]
    | failure => exact absurd rfl goes
    | datagram raw => rw [datagramBreaks, silenceBroken heard rfl]
  exact (Gathering.mk.injEq ..).mpr ⟨pipeline, received, timeouts⟩

/- A dry wait goes on as if the timeouts that it tells stood in its replies. -/
theorem expireNext {g : Gathering} (patient : g.timeouts < maxTimeouts) (request : ChunkRequest) :
    g.expire request =
      if (g.take request .timeout).ended then
        ⟨g.pipeline, g.received, false, (g.take request .timeout).events, []⟩
      else
        { (g.take request .timeout).state.expire request with
          events := (g.take request .timeout).events ++
            ((g.take request .timeout).state.expire request).events } := by
  have left : maxTimeouts - g.timeouts = maxTimeouts - (g.timeouts + 1) + 1 := by omega
  by_cases last : maxTimeouts ≤ g.timeouts + 1
  · have none : maxTimeouts - (g.timeouts + 1) = 0 := by omega
    simp [expire, take, left, none, last]
  · simp [expire, take, left, List.range'_succ, last]

theorem collectNext {g : Gathering} (patient : g.timeouts < maxTimeouts) (request : ChunkRequest)
    (replies : List Reply) (i : Nat) :
    g.collect request (replies.drop i) =
      if (g.take request (replyAt replies i)).ended then
        ⟨(g.take request (replyAt replies i)).state.pipeline,
          (g.take request (replyAt replies i)).state.received,
          (g.take request (replyAt replies i)).capReached,
          (g.take request (replyAt replies i)).events, replies.drop (i + 1)⟩
      else
        { (g.take request (replyAt replies i)).state.collect request (replies.drop (i + 1)) with
          events := (g.take request (replyAt replies i)).events ++
            ((g.take request (replyAt replies i)).state.collect request
              (replies.drop (i + 1))).events } := by
  by_cases inside : i < replies.length
  · have reply : replyAt replies i = replies[i] := by simp [replyAt, inside]
    rw [List.drop_eq_getElem_cons inside, reply]
    rfl
  · have reply : replyAt replies i = .timeout := by simp [replyAt, Nat.le_of_not_lt inside]
    have dry : replies.drop i = [] := List.drop_eq_nil_of_le (Nat.le_of_not_lt inside)
    have drier : replies.drop (i + 1) = [] := List.drop_eq_nil_of_le (by omega)
    rw [dry, drier, reply]
    exact expireNext patient request

theorem collectBehind {replies : List Reply} {i n : Nat}
    (going : ∀ m ≤ n, ¬ WaitOver p request (firstReplies replies (i + m)))
    (done : WaitOver p request (firstReplies replies (i + n + 1))) :
    (behind p (firstReplies replies i)).collect request (replies.drop i) =
      ⟨p.behind (firstReplies replies (i + n + 1)),
        p.allowance (framesIn (firstReplies replies (i + n + 1))),
        (p.behind (firstReplies replies (i + n + 1))).capReached,
        (List.range' i (n + 1)).flatMap fun j =>
          toldAt p request (firstReplies replies j) (replyAt replies j),
        replies.drop (i + n + 1)⟩ := by
  induction n generalizing i with
  | zero =>
    have before : ¬ WaitOver p request (firstReplies replies i) := going 0 (Nat.le_refl 0)
    obtain ⟨pipeline, received⟩ :=
      takeBehind p request (firstReplies replies i) (replyAt replies i)
    have capped := takeCap (g := behind p (firstReplies replies i)) (WaitOver.notFull before) request
      (replyAt replies i)
    have ended := (takeEnds before (replyAt replies i)).mpr (by rwa [← firstNext])
    rw [← firstNext] at pipeline received
    have patient : (behind p (firstReplies replies i)).timeouts < maxTimeouts :=
      WaitOver.patient before
    simp [collectNext patient, ended, pipeline, received, takeTells, capped]
  | succ n ih =>
    have before : ¬ WaitOver p request (firstReplies replies i) := going 0 (Nat.zero_le _)
    have after : ¬ WaitOver p request (firstReplies replies (i + 1)) := going 1 (by omega)
    have goes : ¬ ((behind p (firstReplies replies i)).take request (replyAt replies i)).ended := by
      rwa [takeEnds before, ← firstNext]
    have next := ih (i := i + 1)
      (fun m few => by rw [Nat.add_right_comm, Nat.add_assoc]; exact going (m + 1) (by omega))
      (by rwa [Nat.add_right_comm i 1 n])
    have patient : (behind p (firstReplies replies i)).timeouts < maxTimeouts :=
      WaitOver.patient before
    rw [collectNext patient, if_neg goes, takeOn goes, ← firstNext, next, takeTells,
      List.range'_succ, List.flatMap_cons, Nat.add_right_comm i 1 n]
    rfl

end Gathering

structure Waited (p : Pipeline) (request : ChunkRequest) (replies : List Reply) (chunk : Chunk)
    (n : Nat) : Prop where
  done : WaitOver p request (firstReplies replies n)
  first : ∀ m < n, ¬ WaitOver p request (firstReplies replies m)
  unread : chunk.unread = replies.drop n
  received : chunk.received = p.allowance (framesIn (firstReplies replies n))
  counted : chunk.pipeline = p.counted chunk.received
  capReached : chunk.capReached = (p.behind (firstReplies replies n)).capReached
  events : chunk.events = (List.range n).flatMap fun i =>
    toldAt p request (firstReplies replies i) (replyAt replies i)
  attempts : ∀ i < n, replyAt replies i = .timeout →
    silence (firstReplies replies (i + 1)) ∈ [1, 2, 3] ∧
      (silence (firstReplies replies (i + 1)) = 3 → i + 1 = n)
  broken : ∀ i < n, (replyAt replies i).isTimeout = false →
    silence (firstReplies replies (i + 1)) = 0
  unframed : ∀ i < n, (∀ k, (replyAt replies i).packet? = some k → k.bodies = []) →
    framesIn (firstReplies replies (i + 1)) = framesIn (firstReplies replies i)

theorem waitEndsFirst {p : Pipeline} {request : ChunkRequest} (wants : 1 ≤ request.count.toNat)
    (uncapped : p.capReached = false) (replies : List Reply) :
    ∃ n, Waited p request replies (awaitReplies p request replies) n := by
  classical
  have ends : ∃ n, WaitOver p request (firstReplies replies n) := ⟨_, .silent (silenceDry replies 3)⟩
  have done := Nat.find_spec ends
  have first : ∀ m < Nat.find ends, ¬ WaitOver p request (firstReplies replies m) :=
    fun m before => Nat.find_min ends before
  generalize Nat.find ends = n at done first
  have waited : awaitReplies p request replies =
      (Gathering.behind p (firstReplies replies 0)).collect request (replies.drop 0) := by
    simp [awaitReplies, Gathering.behind, Pipeline.behindNone, firstReplies, silence, framesIn,
      Pipeline.allowanceZero]
  cases n with
  | zero => exact absurd done (WaitOver.notYet wants uncapped)
  | succ n =>
    rw [← Nat.zero_add n] at done
    rw [Gathering.collectBehind (fun m few => by rw [Nat.zero_add]; exact first m (by omega)) done,
      Nat.zero_add, ← List.range_eq_range'] at waited
    rw [Nat.zero_add] at done
    rw [waited]
    refine ⟨n + 1, done, first, rfl, rfl, rfl, rfl, rfl, ?_, ?_, ?_⟩
    · intro i inside timeout
      exact WaitOver.attempts first inside timeout
    · intro i _ sound
      rw [firstNext, silenceBroken _ sound]
    · intro i _ unframed
      rw [firstNext, framesUnframed _ unframed]

/- Of three frames asked for two come, and the filter drops the first. Junk and a heartbeat count
nothing, but each breaks a series of timeouts, so that the wait ends only when nothing more comes. -/
theorem waitEndsFirstDry :
    let session : Session := ⟨List.replicate 10 0x41, rfl⟩
    let request : ChunkRequest := ⟨7, 3⟩
    let p : Pipeline := ⟨.empty, some ⟨[0x42]⟩, 9, 4⟩
    let replies : List Reply := [.timeout, .timeout, .datagram [0x41],
      .datagram (Header.write ⟨session, 7, 1⟩ ++ [0, 1, 0x41]), .timeout,
      .datagram (Header.write ⟨session, 8, 0⟩), .timeout,
      .datagram (Header.write ⟨session, 8, 1⟩ ++ [0, 1, 0x42])]
    1 ≤ request.count.toNat ∧ p.capReached = false ∧
      awaitReplies p request replies =
        ⟨{ p with processed := 6 }, 2, false, [.replyTimeout 7 3 1, .replyTimeout 7 3 2,
          .replyTimeout 7 3 1, .replyTimeout 7 3 1, .message session 8 ⟨[0x42], none⟩,
          .replyTimeout 7 3 1, .replyTimeout 7 3 2, .replyTimeout 7 3 3], []⟩ ∧
      ∃ n, Waited p request replies (awaitReplies p request replies) n :=
  ⟨by decide, by decide, by decide, waitEndsFirst (by decide) (by decide) _⟩

end MarketFeed
