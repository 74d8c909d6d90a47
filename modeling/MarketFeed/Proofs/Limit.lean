import MarketFeed.Proofs.Stream

/-! A pipeline with a cap beside the same pipeline without one. A packet that leaves the count below
the cap goes through both alike; of the packet that fills the cap, the capped pipeline tells the
frames up to the one that fills it. Without a filter each counted frame is a message, so that the
place of the cut can be read off the events of the uncapped pipeline. -/
namespace MarketFeed

namespace Pipeline

def limited (p : Pipeline) (cap : Nat) : Pipeline := { p with cap := cap }

theorem messagesLimited (p : Pipeline) (cap : Nat) (h : Header) (position : Nat)
    (bodies : List Bytes) :
    (p.limited cap).messages h position bodies = p.messages h position bodies := by
  induction bodies generalizing position with
  | nil => rfl
  | cons body rest ih =>
    have same : (p.limited cap).passes body = p.passes body := rfl
    simp only [messages, ih, same]
    rfl

theorem takenBelow {p : Pipeline} {cap : Nat} {k : Packet}
    (below : ((p.counted k.bodies.length).limited cap).capReached = false) :
    (p.limited cap).taken k = k.bodies.length := by
  have room : cap = 0 ∨ p.processed + k.bodies.length < cap := (uncappedIff _).mp below
  rcases room with unlimited | room
  · exact allowanceUnlimited unlimited _
  · rw [taken, allowanceLimited (by change cap ≠ 0; omega)]
    change min _ (cap - p.processed) = _
    omega

theorem cutBelow {p : Pipeline} (free : p.cap = 0) {cap : Nat} {k : Packet}
    (below : ((p.counted k.bodies.length).limited cap).capReached = false) (h : Header)
    (position : Nat) :
    (p.limited cap).cutEvents h position k.framing = p.cutEvents h position k.framing := by
  cases broken : k.framing.fault with
  | none => rw [cutWhole broken, cutWhole broken]
  | some fault =>
    have all : (p.limited cap).allowance k.framing.bodies.length = k.framing.bodies.length :=
      takenBelow below
    have room : ((p.limited cap).counted k.framing.bodies.length).capReached = false := below
    have cut : (p.limited cap).cutShort k.framing = true := by
      rw [cutShort, all, broken, room]
      rfl
    rw [cutUnlimited free (by simp [broken]), cutEvents, if_pos cut, all]

theorem processBelow {p : Pipeline} (free : p.cap = 0) {cap : Nat} {k : Packet}
    (below : ((p.counted k.bodies.length).limited cap).capReached = false) :
    ((p.limited cap).process k.header k.raw).pipeline =
        (p.process k.header k.raw).pipeline.limited cap ∧
      ((p.limited cap).process k.header k.raw).report.capReached = false ∧
      ((p.limited cap).process k.header k.raw).events = (p.process k.header k.raw).events := by
  have all := takenBelow below
  obtain ⟨pipeline, _, capped⟩ := (p.limited cap).processedPacket k
  rw [all] at pipeline capped
  refine ⟨?_, capped.trans below, ?_⟩
  · rw [pipeline, (p.processedPacket k).1, takenUnlimited free]
    rfl
  · cases ended : k.header.isEndOfSession with
    | true => simp [process, ended]
    | false =>
      rw [processedEvents ended, processedEvents ended, all, takenUnlimited free, messagesLimited,
        cutBelow free below]

theorem takenReaches {p : Pipeline} {cap place : Nat} {k : Packet} (positive : 0 < place)
    (within : place ≤ k.bodies.length) (fills : p.processed + place = cap) :
    (p.limited cap).taken k = place := by
  rw [taken, allowanceLimited (by change cap ≠ 0; omega)]
  change min _ (cap - p.processed) = _
  omega

theorem filledReaches {p : Pipeline} {cap place : Nat} (positive : 0 < place)
    (fills : p.processed + place = cap) :
    ((p.limited cap).counted place).capReached = true := by
  rw [cappedIff]
  change cap ≠ 0 ∧ cap ≤ p.processed + place
  omega

theorem heldGoing {k : Packet} (held : 0 < k.bodies.length) : k.header.isEndOfSession = false := by
  cases ended : k.header.isEndOfSession with
  | false => rfl
  | true =>
    rw [endOfSessionBodies ended] at held
    contradiction

theorem processReaches {p : Pipeline} {cap place : Nat} {k : Packet} (positive : 0 < place)
    (within : place ≤ k.bodies.length) (fills : p.processed + place = cap) :
    ((p.limited cap).process k.header k.raw).pipeline = (p.counted place).limited cap ∧
      ((p.limited cap).process k.header k.raw).report.capReached = true ∧
      ((p.limited cap).process k.header k.raw).events =
        p.messages k.header 0 (k.bodies.take place) := by
  have taken := takenReaches positive within fills
  have full := filledReaches positive fills
  have going := heldGoing (Nat.lt_of_lt_of_le positive within)
  have uncut : (p.limited cap).cutShort k.framing = false := by
    have here : (p.limited cap).allowance k.framing.bodies.length = place := taken
    rw [cutShort, here, full, Bool.not_true, Bool.and_false]
  obtain ⟨pipeline, _, capped⟩ := (p.limited cap).processedPacket k
  rw [taken] at pipeline capped
  refine ⟨pipeline, capped.trans full, ?_⟩
  rw [processedEvents going, taken, messagesLimited, cutEvents, if_neg (by simp [uncut]),
    List.append_nil]

theorem limitedBefore {p : Pipeline} {n cap : Nat}
    (below : ((p.counted n).limited cap).capReached = false) :
    (p.limited cap).capReached = false := by
  have room : cap = 0 ∨ p.processed + n < cap := (uncappedIff _).mp below
  refine (uncappedIff _).mpr ?_
  change cap = 0 ∨ p.processed < cap
  omega

end Pipeline

def upToMessage : Nat → List FeedEvent → List FeedEvent
  | 0, _ => []
  | _, [] => []
  | n + 1, e :: rest => e :: upToMessage (if e.isMessage then n else n + 1) rest

theorem upToNothing (events : List FeedEvent) : upToMessage 0 events = [] := by
  cases events <;> rfl

theorem upToEmpty (n : Nat) : upToMessage n [] = [] := by
  cases n <;> rfl

theorem upToPast {n : Nat} {a : List FeedEvent} (few : a.countP FeedEvent.isMessage < n)
    (b : List FeedEvent) :
    upToMessage n (a ++ b) = a ++ upToMessage (n - a.countP FeedEvent.isMessage) b := by
  induction a generalizing n with
  | nil => rfl
  | cons e rest ih =>
    cases n with
    | zero => exact absurd few (Nat.not_lt_zero _)
    | succ n =>
      rw [List.countP_cons] at few ⊢
      cases message : e.isMessage with
      | true =>
        rw [message, if_pos rfl] at few
        rw [List.cons_append, upToMessage, message, if_pos rfl, if_pos rfl,
          ih (Nat.lt_of_succ_lt_succ few), Nat.add_sub_add_right]
        rfl
      | false =>
        rw [message, if_neg Bool.false_ne_true, Nat.add_zero] at few
        rw [List.cons_append, upToMessage, message, if_neg Bool.false_ne_true,
          if_neg Bool.false_ne_true, ih few]
        rfl

theorem upToWithin {n : Nat} {a : List FeedEvent} (many : n ≤ a.countP FeedEvent.isMessage)
    (b : List FeedEvent) : upToMessage n (a ++ b) = upToMessage n a := by
  induction a generalizing n with
  | nil =>
    cases Nat.le_zero.mp many
    rw [upToNothing, upToNothing]
  | cons e rest ih =>
    cases n with
    | zero => rfl
    | succ n =>
      rw [List.countP_cons] at many
      rw [List.cons_append, upToMessage, upToMessage, ih]
      cases message : e.isMessage <;> simp [message] at many ⊢ <;> omega

theorem upToCount {n : Nat} {events : List FeedEvent}
    (many : n ≤ events.countP FeedEvent.isMessage) :
    (upToMessage n events).countP FeedEvent.isMessage = n := by
  induction events generalizing n with
  | nil =>
    cases Nat.le_zero.mp many
    rfl
  | cons e rest ih =>
    cases n with
    | zero => rfl
    | succ n =>
      rw [List.countP_cons] at many
      rw [upToMessage, List.countP_cons, ih]
      · cases e.isMessage <;> rfl
      · cases message : e.isMessage <;> simp [message] at many ⊢ <;> omega

namespace Pipeline

theorem upToMessages {p : Pipeline} (all : p.filter = none) (n : Nat) (h : Header)
    (position : Nat) (bodies : List Bytes) :
    upToMessage n (p.messages h position bodies) = p.messages h position (bodies.take n) := by
  induction bodies generalizing n position with
  | nil => rw [List.take_nil, messages, upToEmpty]
  | cons body rest ih =>
    have passed : p.passes body = true := by simp [passes, all]
    cases n with
    | zero => rw [upToNothing, List.take_zero, messages]
    | succ n =>
      rw [messages, if_pos passed, upToMessage, FeedEvent.isMessage, if_pos rfl, ih,
        List.take_succ_cons, messages, if_pos passed]

theorem processUpTo {p : Pipeline} (free : p.cap = 0) (all : p.filter = none) {place : Nat}
    {k : Packet} (positive : 0 < place) (within : place ≤ k.bodies.length) :
    upToMessage place (p.process k.header k.raw).events =
      p.messages k.header 0 (k.bodies.take place) := by
  have going := heldGoing (Nat.lt_of_lt_of_le positive within)
  have heard : (p.messages k.header 0 k.bodies).countP FeedEvent.isMessage = k.bodies.length := by
    rw [messagesHeard, List.countP_eq_length.mpr fun body _ => ?_]
    simp [passes, all]
  have many : place ≤ (p.messages k.header 0 k.bodies).countP FeedEvent.isMessage := by
    rwa [heard]
  rw [processedEvents going, takenUnlimited free, List.take_length, upToWithin many,
    upToMessages all]

end Pipeline
end MarketFeed
