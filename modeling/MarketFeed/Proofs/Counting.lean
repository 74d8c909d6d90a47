import MarketFeed.Pipeline
import MarketFeed.Proofs.Packet.Written

/-! What one packet does to a pipeline, in closed form. Of the frames that frame correctly those are
counted that the cap leaves room for; the filter chooses among their messages and has no part in
the count. A cut frame is reported only where the cap did not stop the walk before it. -/
namespace MarketFeed

structure Packet where
  header : Header
  raw : Bytes
  deriving DecidableEq, Repr

namespace Packet

def framing (k : Packet) : Framing := frames k.raw k.header

def bodies (k : Packet) : List Bytes := k.framing.bodies

theorem framingLost {k : Packet} (unbroken : k.framing.fault = none) : k.framing.lost = 0 :=
  Framing.splitWhole _ _ _ unbroken

theorem framingCount (k : Packet) :
    k.bodies.length + k.framing.lost = k.header.frameCount := framesCount k.raw k.header

end Packet

def admits (filter : Option TypeFilter) (body : Bytes) : Bool :=
  filter.all fun f => body.head?.any f.types.contains

namespace Pipeline

theorem passesAdmits (p : Pipeline) (body : Bytes) : p.passes body = admits p.filter body := by
  cases filter : p.filter <;> cases body <;>
    simp [passes, admits, filter, typeTag, TypeFilter.allows]

def counted (p : Pipeline) (n : Nat) : Pipeline := { p with processed := p.processed + n }

def allowance (p : Pipeline) (n : Nat) : Nat :=
  if p.cap = 0 then n else min n (p.cap - p.processed)

def messages (p : Pipeline) (h : Header) : (position : Nat) → List Bytes → List FeedEvent
  | _, [] => []
  | position, body :: rest =>
    if p.passes body then
      .message h.session (h.sequenceAt position) (decodeMessage body p.table) ::
        p.messages h (position + 1) rest
    else p.messages h (position + 1) rest

def cutShort (p : Pipeline) (f : Framing) : Bool :=
  f.fault.isSome && !(p.counted (p.allowance f.bodies.length)).capReached

def cutEvents (p : Pipeline) (h : Header) (position : Nat) (f : Framing) : List FeedEvent :=
  if p.cutShort f then
    [.frameOverrun h.session (h.sequenceAt (position + p.allowance f.bodies.length)) f.lost]
  else []

theorem cappedIff (p : Pipeline) : p.capReached = true ↔ p.cap ≠ 0 ∧ p.cap ≤ p.processed := by
  simp [capReached]

theorem uncappedIff (p : Pipeline) : p.capReached = false ↔ p.cap = 0 ∨ p.processed < p.cap := by
  rw [← Bool.not_eq_true, cappedIff]
  omega

theorem countedZero (p : Pipeline) : p.counted 0 = p := rfl

theorem countedAgain (p : Pipeline) (a b : Nat) : (p.counted a).counted b = p.counted (a + b) := by
  simp [counted, Nat.add_assoc]

theorem allowanceLe (p : Pipeline) (n : Nat) : p.allowance n ≤ n := by
  unfold allowance
  split <;> omega

theorem allowanceZero (p : Pipeline) : p.allowance 0 = 0 := by
  simp [allowance]

theorem allowanceUnlimited {p : Pipeline} (unlimited : p.cap = 0) (n : Nat) : p.allowance n = n := by
  simp [allowance, unlimited]

theorem allowanceLimited {p : Pipeline} (limited : p.cap ≠ 0) (n : Nat) :
    p.allowance n = min n (p.cap - p.processed) := if_neg limited

theorem allowanceCapped {p : Pipeline} (capped : p.capReached = true) (n : Nat) :
    p.allowance n = 0 := by
  have reached := p.cappedIff.mp capped
  rw [allowanceLimited reached.1]
  omega

theorem allowanceNext {p : Pipeline} (uncapped : p.capReached = false) (n : Nat) :
    p.allowance (n + 1) = 1 + (p.counted 1).allowance n := by
  have room := p.uncappedIff.mp uncapped
  by_cases unlimited : p.cap = 0
  · rw [allowanceUnlimited unlimited, allowanceUnlimited (p := p.counted 1) unlimited]; omega
  · rw [allowanceLimited unlimited, allowanceLimited (p := p.counted 1) unlimited]
    simp only [counted]
    omega

theorem allowanceWhole {p : Pipeline} {n : Nat}
    (uncapped : (p.counted (p.allowance n)).capReached = false) : p.allowance n = n := by
  have room := (uncappedIff _).mp uncapped
  by_cases unlimited : p.cap = 0
  · exact allowanceUnlimited unlimited n
  · rw [allowanceLimited unlimited] at room ⊢
    simp only [counted] at room
    omega

theorem allowanceBelow {p : Pipeline} (limited : p.cap ≠ 0) (below : p.processed ≤ p.cap) (n : Nat) :
    p.processed + p.allowance n ≤ p.cap := by
  rw [allowanceLimited limited]
  omega

theorem allowanceAdd (p : Pipeline) (a b : Nat) :
    p.allowance (a + b) = p.allowance a + (p.counted (p.allowance a)).allowance b := by
  by_cases unlimited : p.cap = 0
  · rw [allowanceUnlimited unlimited, allowanceUnlimited unlimited,
      allowanceUnlimited (p := p.counted a) unlimited]
  · rw [allowanceLimited (p := p.counted _) unlimited, allowanceLimited unlimited,
      allowanceLimited unlimited]
    simp only [counted]
    omega

theorem messagesCounted (p : Pipeline) (n : Nat) (h : Header) (position : Nat) (bodies : List Bytes) :
    (p.counted n).messages h position bodies = p.messages h position bodies := by
  induction bodies generalizing position with
  | nil => rfl
  | cons body rest ih =>
    have same : (p.counted n).passes body = p.passes body := rfl
    simp only [messages, ih, same]
    rfl

theorem messagesAppend (p : Pipeline) (h : Header) (position : Nat) (a b : List Bytes) :
    p.messages h position (a ++ b) =
      p.messages h position a ++ p.messages h (position + a.length) b := by
  induction a generalizing position with
  | nil => rfl
  | cons body rest ih =>
    have further : position + (body :: rest).length = position + 1 + rest.length := by
      rw [List.length_cons]
      omega
    rw [List.cons_append, further]
    cases passed : p.passes body <;> simp [messages, passed, ih]

theorem cutShortNext {p : Pipeline} (uncapped : p.capReached = false) (body : Bytes) (rest : Framing) :
    p.cutShort (.frame body rest) = (p.counted 1).cutShort rest := by
  simp only [cutShort, Framing.fault, Framing.bodies, List.length_cons, allowanceNext uncapped,
    countedAgain]

theorem cutEventsNext {p : Pipeline} (uncapped : p.capReached = false) (h : Header) (position : Nat)
    (body : Bytes) (rest : Framing) :
    p.cutEvents h position (.frame body rest) = (p.counted 1).cutEvents h (position + 1) rest := by
  simp only [cutEvents, cutShortNext uncapped, Framing.bodies, Framing.lost, List.length_cons,
    allowanceNext uncapped, Nat.add_assoc]

theorem consumed (p : Pipeline) (h : Header) (position reported : Nat) (f : Framing) :
    p.consume h position reported f =
      ⟨p.counted (p.allowance f.bodies.length),
        ⟨position + p.allowance f.bodies.length,
          reported +
            (p.messages h position (f.bodies.take (p.allowance f.bodies.length))).length,
          p.cutShort f, (p.counted (p.allowance f.bodies.length)).capReached⟩,
        p.messages h position (f.bodies.take (p.allowance f.bodies.length)) ++
          p.cutEvents h position f⟩ := by
  induction f generalizing p position reported with
  | complete =>
    simp [consume, Framing.bodies, allowanceZero, countedZero, messages, cutEvents, cutShort,
      Framing.fault]
  | broken fault lost =>
    cases capped : p.capReached <;>
      simp [consume, capped, Framing.bodies, allowanceZero, countedZero, messages, cutEvents,
        cutShort, Framing.fault, Framing.lost]
  | frame body rest ih =>
    cases capped : p.capReached with
    | true =>
      simp [consume, capped, allowanceCapped capped, countedZero, messages, cutEvents, cutShort]
    | false =>
      have whole : (Framing.frame body rest).bodies = body :: rest.bodies := rfl
      have room : p.allowance (body :: rest.bodies).length =
          (p.counted 1).allowance rest.bodies.length + 1 := by
        rw [List.length_cons, allowanceNext capped, Nat.add_comm]
      have later := ih (p.counted 1) (position + 1)
      simp only [messagesCounted, countedAgain] at later
      rw [cutShortNext capped, cutEventsNext capped, whole, room, List.take_succ_cons]
      cases passed : p.passes body with
      | true =>
        have head := later (reported + 1)
        simp only [consume, capped, passed, messages, if_true, Bool.false_eq_true, if_false]
        rw [show { p with processed := p.processed + 1 } = p.counted 1 from rfl, head]
        simp [Nat.add_comm, Nat.add_assoc]
      | false =>
        have head := later reported
        simp only [consume, capped, passed, messages, Bool.false_eq_true, if_false]
        rw [show { p with processed := p.processed + 1 } = p.counted 1 from rfl, head]
        simp [Nat.add_comm, Nat.add_assoc]

theorem endOfSessionEmpty {h : Header} (ended : h.isEndOfSession = true) (raw : Bytes) :
    frames raw h = .complete := by
  simp [frames, Header.frameCount, ended, Framing.split]

theorem endOfSessionBodies {k : Packet} (ended : k.header.isEndOfSession = true) :
    k.bodies = [] := by
  rw [Packet.bodies, Packet.framing, endOfSessionEmpty ended]
  rfl

def taken (p : Pipeline) (k : Packet) : Nat := p.allowance k.bodies.length

theorem processedPacket (p : Pipeline) (k : Packet) :
    (p.process k.header k.raw).pipeline = p.counted (p.taken k) ∧
      (p.process k.header k.raw).report.processed = p.taken k ∧
      (p.process k.header k.raw).report.capReached = (p.counted (p.taken k)).capReached := by
  unfold process
  split
  · rename_i ended
    simp [taken, endOfSessionBodies ended, allowanceZero, countedZero]
  · simp [consumed, taken, Packet.bodies, Packet.framing]

theorem processedOverrun (p : Pipeline) (k : Packet) :
    (p.process k.header k.raw).report.overrun = p.cutShort k.framing := by
  cases ended : k.header.isEndOfSession with
  | true =>
    have empty : k.framing = .complete := endOfSessionEmpty ended k.raw
    simp [process, ended, cutShort, empty, Framing.fault]
  | false => simp [process, ended, consumed, Packet.framing]

theorem processedEvents {p : Pipeline} {k : Packet} (going : k.header.isEndOfSession = false) :
    (p.process k.header k.raw).events =
      p.messages k.header 0 (k.bodies.take (p.taken k)) ++ p.cutEvents k.header 0 k.framing := by
  simp [process, going, consumed, taken, Packet.bodies, Packet.framing]

/- A pipeline whose numbers fit their words, with no more counted than the cap allows. -/
structure Held (p : Pipeline) : Prop where
  cap : p.cap ≤ 0xFFFFFFFFFFFFFFFF
  processed : p.processed ≤ 0xFFFFFFFFFFFFFFFF
  within : p.cap ≠ 0 → p.processed ≤ p.cap

theorem counterExact {p : Pipeline} (fits : p.processed ≤ 0xFFFFFFFFFFFFFFFF) :
    p.counter.toNat = p.processed := by
  rw [counter, UInt64.toNat_ofNat']
  exact Nat.mod_eq_of_lt (by omega)

theorem counterCounted (p : Pipeline) (n : Nat) :
    (p.counted n).counter = p.counter + UInt64.ofNat n := UInt64.ofNat_add _ _

theorem wordsHeld (table : Table) (filter : Option TypeFilter) {cap processed : UInt64}
    (within : cap ≠ 0 → processed ≤ cap) : Held ⟨table, filter, cap.toNat, processed.toNat⟩ where
  cap := Nat.le_of_lt_succ cap.toNat_lt
  processed := Nat.le_of_lt_succ processed.toNat_lt
  within := fun limited =>
    UInt64.le_iff_toNat_le.mp (within fun none => limited (congrArg UInt64.toNat none))

theorem freshHeld (table : Table) (filter : Option TypeFilter) (cap : UInt64) :
    (fresh table filter cap.toNat).Held := by
  have held : Held ⟨table, filter, cap.toNat, (0 : UInt64).toNat⟩ :=
    wordsHeld table filter fun _ => UInt64.zero_le
  exact held

/- Room for `n` more messages; under a cap there always is, since it lets no more through. -/
def Room (p : Pipeline) (n : Nat) : Prop := p.cap = 0 → p.processed + n ≤ 0xFFFFFFFFFFFFFFFF

theorem countedHeld {p : Pipeline} (held : p.Held) {n : Nat} (room : p.Room n) :
    (p.counted (p.allowance n)).Held := by
  have few := p.allowanceLe n
  have below (limited : p.cap ≠ 0) : p.processed + p.allowance n ≤ p.cap :=
    allowanceBelow limited (held.within limited) n
  refine ⟨held.cap, ?_, below⟩
  by_cases unlimited : p.cap = 0
  · exact Nat.le_trans (Nat.add_le_add_left few _) (room unlimited)
  · exact Nat.le_trans (below unlimited) held.cap

end Pipeline
end MarketFeed
