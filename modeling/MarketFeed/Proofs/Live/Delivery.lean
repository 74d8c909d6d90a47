import MarketFeed.Proofs.Live.Steps
import MarketFeed.Proofs.Packet.Grammar

/-! Messages sent in order arrive in order, each once and under its own number. Where the sender cuts
them into packets plays no part in what the live feed tells. -/
namespace MarketFeed

def packetise (session : Session) : (sequence : UInt64) → List (List Bytes) →
    Except EncodeError (List Bytes)
  | _, [] => .ok []
  | sequence, group :: rest => do
    let raw ← encodePacket session sequence group
    let later ← packetise session (sequence + UInt64.ofNat group.length) rest
    return raw :: later

structure Carried (group : List Bytes) : Prop where
  few : group.length ≤ 65534
  short : 20 + framedSize group ≤ 65536

structure Packetised (messages : List Bytes) (groups : List (List Bytes)) : Prop where
  joined : groups.flatten = messages
  nonempty : groups ≠ []
  carried : ∀ group ∈ groups, Carried group

theorem carriedFit {group : List Bytes} (carried : Carried group) :
    ∀ body ∈ group, body.length ≤ 0xFFFF := by
  intro body member
  have inside : (writeFrame body).Sublist (group.flatMap writeFrame) := by
    rw [List.flatMap_def]
    exact List.sublist_flatten_of_mem (List.mem_map_of_mem member)
  have part := inside.length_le
  rw [writeFrameLength, framedLength] at part
  have short := carried.short
  omega

theorem shiftedSaturates {sequence : UInt64} {n : Nat}
    (room : sequence.toNat + n ≤ 0xFFFFFFFFFFFFFFFF) :
    addSat sequence n = sequence + UInt64.ofNat n := by
  apply UInt64.toNat_inj.mp
  rw [addSatToNat, shiftedToNat room, Nat.min_eq_left room]

namespace Pipeline

theorem messagesMoved (p : Pipeline) (session : Session) (sequence : UInt64) (a b : UInt16)
    (n position : Nat) (bodies : List Bytes) :
    p.messages ⟨session, sequence + UInt64.ofNat n, a⟩ position bodies =
      p.messages ⟨session, sequence, b⟩ (n + position) bodies := by
  have same (i : Nat) : Header.sequenceAt ⟨session, sequence + UInt64.ofNat n, a⟩ i =
      Header.sequenceAt ⟨session, sequence, b⟩ (n + i) := by
    simp [Header.sequenceAt, UInt64.ofNat_add, UInt64.add_assoc]
  induction bodies generalizing position with
  | nil => rfl
  | cons body rest ih => simp only [messages, same, ih, Nat.add_assoc]

end Pipeline

theorem trackInOrder {t : Tracker} {h : Header}
    (ready : t = .idle ∨ t = .joined h.session h.sequence) :
    (t.track h).1.event? h.session = none := by
  rcases ready with rfl | rfl
  · rfl
  · simp [Tracker.track, Tracker.classify, Sequencing.event?]

namespace LiveFeed

theorem stepInOrder {f : LiveFeed} (unlimited : f.pipeline.cap = 0) {session : Session}
    {sequence : UInt64} (ready : f.tracker = .idle ∨ f.tracker = .joined session sequence)
    {group : List Bytes} (carried : Carried group)
    (room : sequence.toNat + group.length ≤ 0xFFFFFFFFFFFFFFFF) :
    ∃ raw, encodePacket session sequence group = .ok raw ∧
      (f.step (.datagram raw)).feed =
        ⟨.joined session (sequence + UInt64.ofNat group.length), f.pipeline.counted group.length,
          f.packets + 1⟩ ∧
      (f.step (.datagram raw)).events = f.pipeline.messages ⟨session, sequence, 0⟩ 0 group := by
  have short : headerSize + (group.flatMap writeFrame).length ≤ receiveBufferSize := by
    rw [framedLength]
    exact carried.short
  obtain ⟨raw, encoded, k, found, header, going, framing⟩ :=
    Packet.readWritten carried.few (carriedFit carried) short session sequence
  have bodies : k.bodies = group := by rw [Packet.bodies, framing, Framing.ofBodiesBodies]
  have count : k.header.frameCount = group.length := by
    rw [header]
    exact (writtenCount carried.few session sequence).2
  have next : k.header.nextSequence = sequence + UInt64.ofNat group.length := by
    rw [Header.nextSequence, count, header, shiftedSaturates room]
  have silent : (f.tracker.track k.header).1.event? k.header.session = none :=
    trackInOrder (by rwa [header])
  have whole : k.framing.fault = none := by rw [framing, Framing.ofBodiesFault]
  have taken : f.pipeline.taken k = group.length := by
    rw [Pipeline.takenUnlimited unlimited, bodies]
  obtain ⟨feed, told⟩ := stepPacket (f := f) (r := .datagram raw) found
  refine ⟨raw, encoded, ?_, ?_⟩
  · rw [feed, (f.pipeline.processedPacket k).1, taken]
    change LiveFeed.mk (.joined k.header.session k.header.nextSequence) _ _ = _
    rw [next, header]
  · rw [told, silent, Pipeline.processedEvents going, Pipeline.cutWhole whole, taken, bodies,
      List.take_length, header]
    simpa using f.pipeline.messagesMoved session sequence _ 0 0 0 group

theorem runInOrder {f : LiveFeed} (unlimited : f.pipeline.cap = 0) {session : Session}
    {sequence : UInt64} (ready : f.tracker = .idle ∨ f.tracker = .joined session sequence)
    {groups : List (List Bytes)} (carried : ∀ group ∈ groups, Carried group)
    (room : sequence.toNat + groups.flatten.length ≤ 0xFFFFFFFFFFFFFFFF) :
    ∃ raws, packetise session sequence groups = .ok raws ∧
      (f.after (raws.map .datagram)).pipeline = f.pipeline.counted groups.flatten.length ∧
      (f.after (raws.map .datagram)).packets = f.packets + groups.length ∧
      (groups ≠ [] ∨ f.tracker = .joined session sequence →
        (f.after (raws.map .datagram)).tracker =
          .joined session (sequence + UInt64.ofNat groups.flatten.length)) ∧
      f.events (raws.map .datagram) =
        f.pipeline.messages ⟨session, sequence, 0⟩ 0 groups.flatten := by
  induction groups generalizing f sequence with
  | nil => exact ⟨[], rfl, rfl, rfl, by simp [after], rfl⟩
  | cons group rest ih =>
    obtain ⟨here, later⟩ := List.forall_mem_cons.mp carried
    simp only [List.flatten_cons, List.length_append] at room ⊢
    obtain ⟨raw, encoded, feed, told⟩ := stepInOrder unlimited ready here (by omega)
    have start : (sequence + UInt64.ofNat group.length).toNat = sequence.toNat + group.length :=
      shiftedToNat (by omega)
    have joined : (f.step (.datagram raw)).feed.tracker =
        .joined session (sequence + UInt64.ofNat group.length) := by rw [feed]
    have free : (f.step (.datagram raw)).feed.pipeline.cap = 0 := by rw [feed]; exact unlimited
    obtain ⟨raws, written, pipeline, packets, tracker, events⟩ :=
      ih free (.inr joined) later (by omega)
    rw [feed] at pipeline packets tracker events
    refine ⟨raw :: raws, ?_, ?_, ?_, ?_, ?_⟩
    · rw [packetise, encoded]
      change (packetise session _ rest).bind _ = _
      rw [written]
      rfl
    · rw [List.map_cons, after, feed, pipeline, Pipeline.countedAgain]
    · rw [List.map_cons, after, feed, packets, List.length_cons]
      exact Nat.add_right_comm f.packets 1 rest.length
    · intro _
      rw [List.map_cons, after, feed, tracker (.inr rfl), UInt64.ofNat_add, UInt64.add_assoc]
    · rw [List.map_cons, eventsCons, told, feed, events, Pipeline.messagesCounted,
        Pipeline.messagesMoved _ session sequence 0 0 group.length, Pipeline.messagesAppend]
      simp

structure Delivers (session : Session) (sequence : UInt64) (table : Table)
    (filter : Option TypeFilter) (messages : List Bytes) (packets : Nat)
    (script : List Reception) : Prop where
  events : (fresh (.fresh table filter 0)).events script =
    delivered session sequence table filter messages
  summary : ((fresh (.fresh table filter 0)).after script).summary = ⟨packets, messages.length⟩
  tracker : ((fresh (.fresh table filter 0)).after script).tracker =
    .joined session (sequence + UInt64.ofNat messages.length)

theorem packetisedDelivers (session : Session) {sequence : UInt64} (table : Table)
    (filter : Option TypeFilter) {messages : List Bytes}
    (room : sequence.toNat + messages.length ≤ 0xFFFFFFFFFFFFFFFF) {groups : List (List Bytes)}
    (cut : Packetised messages groups) :
    ∃ raws, packetise session sequence groups = .ok raws ∧
      Delivers session sequence table filter messages groups.length (raws.map .datagram) := by
  obtain ⟨rfl, nonempty, carried⟩ := cut
  obtain ⟨raws, written, pipeline, packets, tracker, events⟩ :=
    runInOrder (f := fresh (.fresh table filter 0)) rfl (.inl rfl) carried room
  refine ⟨raws, written, ?_, ?_, tracker (.inl nonempty)⟩
  · rw [events, Pipeline.messagesIndexed]
    rfl
  · rw [summary, pipeline, packets]
    simp [fresh, Pipeline.fresh, Pipeline.counted]

theorem anyPacketsDeliver (session : Session) {sequence : UInt64} (table : Table)
    (filter : Option TypeFilter) {messages : List Bytes}
    (room : sequence.toNat + messages.length ≤ 0xFFFFFFFFFFFFFFFF) {groups : List (List Bytes)}
    (cut : Packetised messages groups) :
    ∃ raws, packetise session sequence groups = .ok raws ∧
      Delivers session sequence table filter messages groups.length (raws.map .datagram) ∧
      ∀ others, Packetised messages others →
        ∃ again, packetise session sequence others = .ok again ∧
          (fresh (.fresh table filter 0)).events (again.map .datagram) =
            (fresh (.fresh table filter 0)).events (raws.map .datagram) := by
  obtain ⟨raws, written, delivers⟩ := packetisedDelivers session table filter room cut
  refine ⟨raws, written, delivers, ?_⟩
  intro others recut
  obtain ⟨again, rewritten, same⟩ := packetisedDelivers session table filter room recut
  exact ⟨again, rewritten, by rw [same.events, delivers.events]⟩

/- Three messages up to the last sequence number, in packets of one, none and two; the filter drops
the message without a type byte, and the one behind it keeps its number. -/
theorem anyPacketsDeliverAtTheEnd :
    let session : Session := ⟨List.replicate 10 0x41, rfl⟩
    let messages : List Bytes := [[0x42, 1], [], [0x42, 2]]
    let filter : Option TypeFilter := some ⟨[0x42]⟩
    ∃ raws, packetise session 0xFFFFFFFFFFFFFFFC [[[0x42, 1]], [], [[], [0x42, 2]]] = .ok raws ∧
      Delivers session 0xFFFFFFFFFFFFFFFC .empty filter messages 3 (raws.map .datagram) ∧
      ∀ others, Packetised messages others →
        ∃ again, packetise session 0xFFFFFFFFFFFFFFFC others = .ok again ∧
          (fresh (.fresh .empty filter 0)).events (again.map .datagram) =
            (fresh (.fresh .empty filter 0)).events (raws.map .datagram) :=
  anyPacketsDeliver _ _ _ (by decide)
    ⟨rfl, by decide, fun group member => by
      simp only [List.mem_cons, List.not_mem_nil, or_false] at member
      rcases member with rfl | rfl | rfl <;> exact ⟨by decide, by decide⟩⟩

end LiveFeed
end MarketFeed
