import MarketFeed.Proofs.Recovery.Accounting

/-! Recovery over a network that loses, repeats and reorders. The cursor moves by the number of
messages counted, whichever they are. A message that is repeated, or was not asked for, takes the
place of one that is asked for, so a completed run need not have brought every message: it has just
when no more were wasted than were counted beyond the total. -/
namespace MarketFeed

def Packet.numbers (k : Packet) : List (Session × Nat) :=
  (List.range k.bodies.length).map fun i => (k.header.session, (k.header.sequenceAt i).toNat)

namespace Pipeline

theorem cutNumbered (p : Pipeline) (h : Header) (position : Nat) (f : Framing) :
    (p.cutEvents h position f).filterMap FeedEvent.numbered? = [] := by
  unfold cutEvents
  split <;> rfl

theorem processNumbered {p : Pipeline} (all : p.filter = none) (unlimited : p.cap = 0)
    (k : Packet) :
    (p.process k.header k.raw).events.filterMap FeedEvent.numbered? = k.numbers := by
  cases ended : k.header.isEndOfSession with
  | true =>
    simp [process, ended, Packet.numbers, endOfSessionBodies ended, FeedEvent.numbered?]
  | false =>
    have whole : k.bodies.take (p.taken k) = k.bodies := by
      rw [takenUnlimited unlimited, List.take_length]
    rw [processedEvents ended, List.filterMap_append, cutNumbered, whole, messagesNumbered all,
      List.append_nil]
    simp [Packet.numbers]

theorem workNumbered {p : Pipeline} (all : p.filter = none) (unlimited : p.cap = 0)
    (packets : List Packet) :
    (p.workEvents packets).filterMap FeedEvent.numbered? = packets.flatMap Packet.numbers ∧
      (p.work packets).processed = p.processed + (packets.flatMap Packet.numbers).length := by
  induction packets generalizing p with
  | nil => exact ⟨rfl, rfl⟩
  | cons k rest ih =>
    have behind := (p.processedPacket k).1
    obtain ⟨events, processed⟩ := ih (p := p.counted (p.taken k)) all unlimited
    have count : k.numbers.length = p.taken k := by
      rw [takenUnlimited unlimited, Packet.numbers, List.length_map, List.length_range]
    rw [workEvents, work, behind, List.filterMap_append, processNumbered all unlimited, events,
      processed, List.flatMap_cons, List.length_append, count]
    exact ⟨rfl, Nat.add_assoc _ _ _⟩

end Pipeline

def wasted (session : Session) (missing : Finset Nat) : List (Session × Nat) → Nat
  | [] => 0
  | (s, n) :: rest =>
    if s = session ∧ n ∈ missing then wasted session (missing.erase n) rest
    else wasted session missing rest + 1

def leftMissing (session : Session) (missing : Finset Nat) (messages : List (Session × Nat)) :
    Finset Nat :=
  missing.filter fun n => (session, n) ∉ messages

theorem leftBrought (session : Session) (missing : Finset Nat) (n : Nat)
    (rest : List (Session × Nat)) :
    leftMissing session missing ((session, n) :: rest) =
      leftMissing session (missing.erase n) rest := by
  ext m
  simp only [leftMissing, Finset.mem_filter, Finset.mem_erase, List.mem_cons, Prod.mk.injEq,
    true_and, not_or]
  tauto

theorem leftWasted {session s : Session} {missing : Finset Nat} {n : Nat}
    (useless : ¬ (s = session ∧ n ∈ missing)) (rest : List (Session × Nat)) :
    leftMissing session missing ((s, n) :: rest) = leftMissing session missing rest := by
  apply Finset.filter_congr
  intro m wanted
  have other : (session, m) ≠ (s, n) := by
    rintro ⟨rfl, rfl⟩
    exact useless ⟨rfl, wanted⟩
  rw [List.mem_cons, or_iff_right other]

theorem wastedOrBrought (session : Session) (missing : Finset Nat)
    (messages : List (Session × Nat)) :
    messages.length + (leftMissing session missing messages).card =
      missing.card + wasted session missing messages := by
  induction messages generalizing missing with
  | nil => simp [leftMissing, wasted]
  | cons message rest ih =>
    obtain ⟨s, n⟩ := message
    unfold wasted
    split
    · rename_i useful
      obtain ⟨rfl, wanted⟩ := useful
      have fewer := Finset.card_erase_add_one wanted
      have later := ih (missing.erase n)
      rw [leftBrought, List.length_cons]
      omega
    · rename_i useless
      have later := ih missing
      rw [leftWasted useless, List.length_cons]
      omega

theorem broughtAllIff (session : Session) (missing : Finset Nat) (messages : List (Session × Nat)) :
    (∀ n ∈ missing, (session, n) ∈ messages) ↔
      missing.card + wasted session missing messages ≤ messages.length := by
  have balance := wastedOrBrought session missing messages
  have none : (leftMissing session missing messages).card = 0 ↔
      ∀ n ∈ missing, (session, n) ∈ messages := by
    rw [Finset.card_eq_zero, leftMissing, Finset.filter_eq_empty_iff]
    simp only [Decidable.not_not]
  rw [← none]
  omega

def RecoveryPlan.requested (plan : RecoveryPlan) : Finset Nat :=
  Finset.Ico plan.start.toNat (plan.start.toNat + plan.total)

theorem requestedCard (plan : RecoveryPlan) : plan.requested.card = plan.total := by
  rw [RecoveryPlan.requested, Nat.card_Ico, Nat.add_sub_cancel_left]

def RecoveryRun.numbers (run : RecoveryRun) (batches : List (List Reply)) : List (Session × Nat) :=
  ((run.read batches).filterMap Reply.packet?).flatMap Packet.numbers

theorem recoveryNumbers (plan : RecoveryPlan) (table : Table) (live : List Reception)
    (batches : List (List Reply)) (failAt : Option (Nat × SendFault)) {run : RecoveryRun}
    {report : RecoveryReport}
    (runs : recover plan (.fresh table none 0) live (.fresh (.script batches failAt)) = run)
    (finished : run.result = .finished report) :
    run.events.filterMap FeedEvent.numbered? = run.numbers batches ∧
      report.decoded = (run.numbers batches).length := by
  subst runs
  obtain ⟨h, heard⟩ := finishedHeard finished
  obtain ⟨rounds, run, r, whole⟩ := recoverHeard heard plan (.fresh table none 0)
    (.fresh (.script batches failAt))
  rw [whole] at finished ⊢
  obtain ⟨told, decoded⟩ := recoversWork r
  obtain ⟨numbers, processed⟩ := Pipeline.workNumbered (p := .fresh table none 0) rfl rfl
    (rounds.flatMap (Round.packets (chunkOrDefault plan.chunkSize)))
  have read : RecoveryRun.numbers { run with events := .sessionAcquired h.session h.sequence ::
      run.events } batches =
      (rounds.flatMap (Round.packets (chunkOrDefault plan.chunkSize))).flatMap Packet.numbers := by
    change ((run.read batches).filterMap Reply.packet?).flatMap Packet.numbers = _
    rw [recoversPackets r]
  have only := numberedKept (fun _ _ _ => (rfl : FeedEvent.ofPacket _ = true)) run.events
  rw [read, decoded report finished, processed]
  refine ⟨?_, Nat.zero_add _⟩
  rw [← numbers, ← told, only]
  rfl

theorem completedCoversIff (plan : RecoveryPlan) (table : Table) (live : List Reception)
    (batches : List (List Reply)) (failAt : Option (Nat × SendFault)) {run : RecoveryRun}
    {report : RecoveryReport}
    (runs : recover plan (.fresh table none 0) live (.fresh (.script batches failAt)) = run)
    (finished : run.result = .finished report) (completed : report.outcome = .completed) :
    (∀ n, plan.start.toNat ≤ n → n < plan.start.toNat + plan.total →
        ∃ sequence m, FeedEvent.message report.session sequence m ∈ run.events ∧
          sequence.toNat = n) ↔
      wasted report.session plan.requested (run.numbers batches) ≤
        report.decoded - plan.total := by
  obtain ⟨told, decoded⟩ := recoveryNumbers plan table live batches failAt runs finished
  have called : report.outcome = verdict plan.total 0 report.decoded := by
    subst runs
    exact finishedVerdict finished
  rw [completed] at called
  have enough := (verdictCompleted called.symm).2
  have all := broughtAllIff report.session plan.requested (run.numbers batches)
  rw [requestedCard, ← decoded] at all
  have surplus : wasted report.session plan.requested (run.numbers batches) ≤
      report.decoded - plan.total ↔
      plan.total + wasted report.session plan.requested (run.numbers batches) ≤
        report.decoded := by
    omega
  rw [surplus, ← all, ← told]
  simp only [RecoveryPlan.requested, Finset.mem_Ico, and_imp, numberedMem]

/- Number 1 comes twice; the second packet brings number 2 behind it, one more than asked. -/
theorem completedCoversSurplus :
    let session : Session := ⟨List.replicate 10 0x41, rfl⟩
    let one := Header.write ⟨session, 1, 1⟩ ++ writeFrame Archive.body
    let both := Header.write ⟨session, 1, 2⟩ ++ [Archive.body, Archive.body].flatMap writeFrame
    let run := recover ⟨1, 2, 2, none⟩ (.fresh .empty none 0) [.datagram one]
      (.fresh (.script [[.datagram one, .datagram both]] none))
    run.result = .finished ⟨.completed, session, ⟨4, 0, true⟩, 1, 3⟩ ∧
      ∀ n, 1 ≤ n → n < 3 →
        ∃ sequence m, FeedEvent.message session sequence m ∈ run.events ∧ sequence.toNat = n := by
  intro session one both run
  have finished : run.result = .finished ⟨.completed, session, ⟨4, 0, true⟩, 1, 3⟩ := by cbv
  have numbers : run.numbers [[.datagram one, .datagram both]] =
      [(session, 1), (session, 1), (session, 2)] := by cbv
  refine ⟨finished, (completedCoversIff ⟨1, 2, 2, none⟩ .empty _ _ _ rfl finished rfl).mpr ?_⟩
  rw [numbers]
  decide

/- A repeated packet completes a run that never saw number 2. -/
theorem completedRepeated :
    let session : Session := ⟨List.replicate 10 0x41, rfl⟩
    ∃ one, encodePacket session 1 [Archive.body] = .ok one ∧
      let run := recover ⟨1, 2, 2, none⟩ (.fresh .empty none 0) [.datagram one]
        (.fresh (.script [[.datagram one, .datagram one]] none))
      run.result = .finished ⟨.completed, session, ⟨3, 0, true⟩, 1, 2⟩ ∧
        ∀ sequence m, FeedEvent.message session sequence m ∈ run.events → sequence.toNat ≠ 2 := by
  intro session
  refine ⟨_, rfl, ?_⟩
  intro run
  have numbers : run.events.filterMap FeedEvent.numbered? = [(session, 1), (session, 1)] := by cbv
  refine ⟨by cbv, ?_⟩
  intro sequence m member same
  have two := numberedMem.mpr ⟨sequence, m, member, same⟩
  rw [numbers] at two
  revert two
  decide

end MarketFeed
