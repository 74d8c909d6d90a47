import MarketFeed.Live
import MarketFeed.Proofs.Counting

/-! Streams of packets. A datagram is a packet where the part of it that fits the receive buffer
holds a header; whatever else arrives leaves pipeline and tracker alone. -/
namespace MarketFeed

namespace Packet

def read? (datagram : Bytes) : Option Packet :=
  match Header.read (datagram.take receiveBufferSize) with
  | .ok h => some ⟨h, datagram.take receiveBufferSize⟩
  | .error _ => none

theorem readSome {datagram : Bytes} {k : Packet} (found : read? datagram = some k) :
    Header.read (datagram.take receiveBufferSize) = .ok k.header ∧
      k.raw = datagram.take receiveBufferSize := by
  unfold read? at found
  split at found
  · rename_i h ok
    cases Option.some.inj found
    exact ⟨ok, rfl⟩
  · contradiction

theorem readNone {datagram : Bytes} (absent : read? datagram = none) :
    ∃ e, Header.read (datagram.take receiveBufferSize) = .error e := by
  unfold read? at absent
  split at absent
  · contradiction
  · exact ⟨_, by assumption⟩

theorem readWritten {bodies : List Bytes} (few : bodies.length ≤ maxMessages)
    (fit : ∀ body ∈ bodies, body.length ≤ 0xFFFF)
    (short : headerSize + (bodies.flatMap writeFrame).length ≤ receiveBufferSize)
    (session : Session) (sequence : UInt64) :
    ∃ raw, encodePacket session sequence bodies = .ok raw ∧
      ∃ k, read? raw = some k ∧ k.header = ⟨session, sequence, UInt16.ofNat bodies.length⟩ ∧
        k.header.isEndOfSession = false ∧ k.framing = .ofBodies bodies := by
  refine ⟨_, encodePacketFit few fit session sequence, ?_⟩
  let h : Header := ⟨session, sequence, UInt16.ofNat bodies.length⟩
  have kept : (h.write ++ bodies.flatMap writeFrame).take receiveBufferSize =
      h.write ++ bodies.flatMap writeFrame :=
    List.take_of_length_le (by rwa [List.length_append, Header.writeLength])
  have found : read? (h.write ++ bodies.flatMap writeFrame) =
      some ⟨h, h.write ++ bodies.flatMap writeFrame⟩ := by
    rw [read?, kept, Header.readWritten h]
  have split := framesWritten few fit session sequence []
  rw [List.append_nil] at split
  exact ⟨_, found, rfl, (writtenCount few session sequence).1, split⟩

end Packet

def Reception.packet? : Reception → Option Packet
  | .datagram raw => Packet.read? raw
  | .failure => none

theorem shiftedToNat {sequence : UInt64} {n : Nat}
    (fits : sequence.toNat + n ≤ 0xFFFFFFFFFFFFFFFF) :
    (sequence + UInt64.ofNat n).toNat = sequence.toNat + n := by
  rw [UInt64.toNat_add, UInt64.toNat_ofNat', Nat.add_mod_mod]
  exact Nat.mod_eq_of_lt (by omega)

theorem Header.sequenceAtToNat {h : Header} {position : Nat}
    (fits : h.sequence.toNat + position ≤ 0xFFFFFFFFFFFFFFFF) :
    (h.sequenceAt position).toNat = h.sequence.toNat + position := shiftedToNat fits

theorem Header.nextSequenceToNat (h : Header) :
    h.nextSequence.toNat = min (h.sequence.toNat + h.frameCount) 0xFFFFFFFFFFFFFFFF :=
  addSatToNat _ _

/- A message event for each message that passes; those that do not keep their numbers. -/
def delivered (session : Session) (sequence : UInt64) (table : Table) (filter : Option TypeFilter)
    (messages : List Bytes) : List FeedEvent :=
  messages.zipIdx.filterMap fun (body, i) =>
    if admits filter body then
      some (.message session (sequence + UInt64.ofNat i) (decodeMessage body table))
    else none

namespace Pipeline

theorem messagesIndexed (p : Pipeline) (h : Header) (position : Nat) (bodies : List Bytes) :
    p.messages h position bodies = (bodies.zipIdx position).filterMap fun (body, i) =>
      if admits p.filter body then
        some (.message h.session (h.sequenceAt i) (decodeMessage body p.table))
      else none := by
  induction bodies generalizing position with
  | nil => rfl
  | cons body rest ih =>
    rw [List.zipIdx_cons, messages, passesAdmits]
    cases passed : admits p.filter body <;> simp [passed, ih]

theorem messagesUnfiltered {p : Pipeline} (all : p.filter = none) (h : Header) (position : Nat)
    (bodies : List Bytes) :
    p.messages h position bodies = bodies.mapIdx fun i body =>
      .message h.session (h.sequenceAt (position + i)) (decodeMessage body p.table) := by
  induction bodies generalizing position with
  | nil => rfl
  | cons body rest ih =>
    have passed : p.passes body = true := by simp [passes, all]
    rw [messages, if_pos passed, ih, List.mapIdx_cons]
    simp [Nat.add_comm, Nat.add_left_comm]

theorem cutWhole {p : Pipeline} {f : Framing} (whole : f.fault = none) (h : Header)
    (position : Nat) : p.cutEvents h position f = [] := by
  have uncut : p.cutShort f = false := by simp [cutShort, whole]
  rw [cutEvents, if_neg (by simp [uncut])]

theorem takenUnlimited {p : Pipeline} (unlimited : p.cap = 0) (k : Packet) :
    p.taken k = k.bodies.length := allowanceUnlimited unlimited _

theorem cutUnlimited {p : Pipeline} (unlimited : p.cap = 0) {f : Framing}
    (broken : f.fault.isSome = true) (h : Header) (position : Nat) :
    p.cutEvents h position f =
      [.frameOverrun h.session (h.sequenceAt (position + f.bodies.length)) f.lost] := by
  have going : (p.counted (p.allowance f.bodies.length)).capReached = false :=
    (uncappedIff _).mpr (.inl unlimited)
  have cut : p.cutShort f = true := by simp [cutShort, broken, going]
  rw [cutEvents, if_pos cut, allowanceUnlimited unlimited]

/- Without a cap the count decides nothing, so that a counter which has wrapped around does as well. -/
theorem processUncounted {p : Pipeline} (unlimited : p.cap = 0) (n : Nat) (k : Packet) :
    let other : Pipeline := { p with processed := n }
    (other.process k.header k.raw).report = (p.process k.header k.raw).report ∧
      (other.process k.header k.raw).events = (p.process k.header k.raw).events := by
  intro other
  have reaches (m : Nat) : (other.counted m).capReached = (p.counted m).capReached := by
    simp [capReached, counted, other, unlimited]
  have allows : other.allowance = p.allowance := by
    funext m
    rw [allowanceUnlimited unlimited, allowanceUnlimited (p := other) unlimited]
  have tells (position : Nat) (bodies : List Bytes) :
      other.messages k.header position bodies = p.messages k.header position bodies := by
    rw [messagesIndexed, messagesIndexed]
  have cuts : other.cutShort k.framing = p.cutShort k.framing := by
    rw [cutShort, cutShort, allows, reaches]
  have cutTold : other.cutEvents k.header 0 k.framing = p.cutEvents k.header 0 k.framing := by
    rw [cutEvents, cutEvents, cuts, allows]
  cases ended : k.header.isEndOfSession with
  | true =>
    have still := reaches 0
    rw [countedZero, countedZero] at still
    simp [process, ended, still]
  | false =>
    rw [Packet.framing] at cuts cutTold
    simp [process, ended, consumed, allows, tells, cuts, cutTold, reaches]

def work (p : Pipeline) : List Packet → Pipeline
  | [] => p
  | k :: rest => (p.process k.header k.raw).pipeline.work rest

def workEvents (p : Pipeline) : List Packet → List FeedEvent
  | [] => []
  | k :: rest =>
    (p.process k.header k.raw).events ++ (p.process k.header k.raw).pipeline.workEvents rest

theorem workAppend (p : Pipeline) (a b : List Packet) : p.work (a ++ b) = (p.work a).work b := by
  induction a generalizing p with
  | nil => rfl
  | cons k rest ih => exact ih _

theorem workEventsAppend (p : Pipeline) (a b : List Packet) :
    p.workEvents (a ++ b) = p.workEvents a ++ (p.work a).workEvents b := by
  induction a generalizing p with
  | nil => rfl
  | cons k rest ih => simp [workEvents, work, ih]

end Pipeline

def FeedEvent.ofPacket : FeedEvent → Bool
  | .message _ _ _ | .endOfSession _ _ | .frameOverrun _ _ _ => true
  | _ => false

def FeedEvent.isMessage : FeedEvent → Bool
  | .message _ _ _ => true
  | _ => false

def FeedEvent.numbered? : FeedEvent → Option (Session × Nat)
  | .message session sequence _ => some (session, sequence.toNat)
  | _ => none

theorem numberedMem {events : List FeedEvent} {session : Session} {n : Nat} :
    (session, n) ∈ events.filterMap FeedEvent.numbered? ↔
      ∃ sequence m, FeedEvent.message session sequence m ∈ events ∧ sequence.toNat = n := by
  rw [List.mem_filterMap]
  constructor
  · intro ⟨e, member, numbered⟩
    cases e <;> simp only [FeedEvent.numbered?, Option.some.injEq, Prod.mk.injEq, reduceCtorEq]
      at numbered
    obtain ⟨rfl, rfl⟩ := numbered
    exact ⟨_, _, member, rfl⟩
  · intro ⟨sequence, m, member, same⟩
    exact ⟨_, member, by rw [FeedEvent.numbered?, same]⟩

theorem numberedKept {keep : FeedEvent → Bool}
    (messages : ∀ session sequence m, keep (.message session sequence m) = true)
    (events : List FeedEvent) :
    (events.filter keep).filterMap FeedEvent.numbered? =
      events.filterMap FeedEvent.numbered? := by
  rw [List.filterMap_filter]
  congr 1
  funext e
  cases e with
  | message session sequence m => rw [if_pos (messages session sequence m)]
  | _ => exact ite_self none

namespace Pipeline

theorem messagesNumbered {p : Pipeline} (all : p.filter = none) (h : Header) (position : Nat)
    (bodies : List Bytes) :
    (p.messages h position bodies).filterMap FeedEvent.numbered? =
      (List.range bodies.length).map fun i => (h.session, (h.sequenceAt (position + i)).toNat) := by
  induction bodies generalizing position with
  | nil => rfl
  | cons body rest ih =>
    have passed : p.passes body = true := by simp [passes, all]
    rw [messages, if_pos passed, List.length_cons, List.range_succ_eq_map, List.map_cons,
      List.map_map]
    simp only [List.filterMap_cons, FeedEvent.numbered?, ih, Nat.add_zero]
    congr 2
    funext i
    simp only [Function.comp_apply, Nat.succ_eq_add_one]
    rw [Nat.add_assoc, Nat.add_comm 1 i]

theorem messagesHeard (p : Pipeline) (h : Header) (position : Nat) (bodies : List Bytes) :
    (p.messages h position bodies).countP FeedEvent.isMessage =
      bodies.countP fun body => p.passes body := by
  induction bodies generalizing position with
  | nil => rfl
  | cons body rest ih =>
    cases passed : p.passes body <;>
      simp [messages, passed, ih, List.countP_cons, FeedEvent.isMessage]

theorem messagesAll (p : Pipeline) (h : Header) (position : Nat) (bodies : List Bytes) :
    (p.messages h position bodies).countP FeedEvent.isMessage =
      (p.messages h position bodies).length := by
  induction bodies generalizing position with
  | nil => rfl
  | cons body rest ih =>
    cases passed : p.passes body <;>
      simp [messages, passed, ih, List.countP_cons, FeedEvent.isMessage]

theorem cutSilent (p : Pipeline) (h : Header) (position : Nat) (f : Framing) :
    (p.cutEvents h position f).countP FeedEvent.isMessage = 0 := by
  unfold cutEvents
  split <;> rfl

theorem processReported (p : Pipeline) (k : Packet) :
    (p.process k.header k.raw).report.reported =
      (p.process k.header k.raw).events.countP FeedEvent.isMessage := by
  cases ended : k.header.isEndOfSession with
  | true => simp [process, ended, FeedEvent.isMessage]
  | false =>
    rw [processedEvents ended, List.countP_append, cutSilent, messagesAll]
    simp [process, ended, consumed, taken, Packet.bodies, Packet.framing]

theorem processHeard (p : Pipeline) (k : Packet) :
    (p.process k.header k.raw).events.countP FeedEvent.isMessage ≤ p.taken k ∧
      (p.filter = none →
        (p.process k.header k.raw).events.countP FeedEvent.isMessage = p.taken k) := by
  cases ended : k.header.isEndOfSession with
  | true =>
    have nothing : p.taken k = 0 := by
      rw [taken, endOfSessionBodies ended, List.length_nil, allowanceZero]
    simp [process, ended, nothing, FeedEvent.isMessage]
  | false =>
    have count : (k.bodies.take (p.taken k)).length = p.taken k :=
      List.length_take_of_le (p.allowanceLe _)
    rw [processedEvents ended, List.countP_append, messagesHeard, cutSilent, Nat.add_zero]
    refine ⟨?_, fun unfiltered => ?_⟩
    · exact Nat.le_trans List.countP_le_length (Nat.le_of_eq count)
    · rw [List.countP_eq_length.mpr fun body _ => ?_, count]
      simp [passes, unfiltered]

theorem messagesOfPacket (p : Pipeline) (h : Header) (position : Nat) (bodies : List Bytes) :
    ∀ e ∈ p.messages h position bodies, e.ofPacket = true := by
  induction bodies generalizing position with
  | nil => simp [messages]
  | cons body rest ih =>
    intro e member
    unfold messages at member
    split at member
    · rcases List.mem_cons.mp member with rfl | later
      · rfl
      · exact ih _ e later
    · exact ih _ e member

theorem processOfPacket (p : Pipeline) (k : Packet) :
    ∀ e ∈ (p.process k.header k.raw).events, e.ofPacket = true := by
  intro e member
  cases ended : k.header.isEndOfSession with
  | true =>
    have only : e = .endOfSession k.header.session k.header.sequence := by
      simpa [process, ended] using member
    rw [only]
    rfl
  | false =>
    rw [processedEvents ended] at member
    rcases List.mem_append.mp member with message | cut
    · exact messagesOfPacket _ _ _ _ e message
    · unfold cutEvents at cut
      split at cut
      · rw [List.mem_singleton.mp cut]
        rfl
      · contradiction

theorem workOfPacket (p : Pipeline) (packets : List Packet) :
    ∀ e ∈ p.workEvents packets, e.ofPacket = true := by
  induction packets generalizing p with
  | nil => exact fun e member => by contradiction
  | cons k rest ih =>
    intro e member
    rcases List.mem_append.mp member with now | later
    · exact p.processOfPacket k e now
    · exact ih _ e later

end Pipeline
end MarketFeed
