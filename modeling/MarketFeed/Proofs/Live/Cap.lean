import MarketFeed.Proofs.Limit
import MarketFeed.Proofs.Live.Steps

/-! A capped run beside the run without a cap. Both tell the same up to the frame that fills the cap;
there the capped run ends, in the middle of a packet if need be, and reads nothing more. -/
namespace MarketFeed

namespace LiveFeed

def limited (f : LiveFeed) (cap : Nat) : LiveFeed := { f with pipeline := f.pipeline.limited cap }

def toldUpTo (f : LiveFeed) (k : Packet) (place : Nat) : List FeedEvent :=
  ((f.tracker.track k.header).1.event? k.header.session).toList ++
    f.pipeline.messages k.header 0 (k.bodies.take place)

theorem stepCounts {f : LiveFeed} (free : f.pipeline.cap = 0) (r : Reception) :
    (f.step r).feed.pipeline =
        f.pipeline.counted (r.packet?.elim 0 fun k => k.bodies.length) ∧
      (f.step r).feed.packets = f.packets + r.packet?.toList.length := by
  cases found : r.packet? with
  | none =>
    rw [(stepSilent found).1]
    exact ⟨rfl, rfl⟩
  | some k =>
    rw [(stepPacket found).1, (f.pipeline.processedPacket k).1, Pipeline.takenUnlimited free]
    exact ⟨rfl, rfl⟩

theorem stepFree {f : LiveFeed} (free : f.pipeline.cap = 0) (r : Reception) :
    (f.step r).feed.pipeline.cap = 0 := by
  rw [(stepCounts free r).1]
  exact free

theorem afterCounts {f : LiveFeed} (free : f.pipeline.cap = 0) (script : List Reception) :
    (f.after script).pipeline.cap = 0 ∧
      f.pipeline.processed ≤ (f.after script).pipeline.processed ∧
      (f.after script).packets = f.packets + (script.filterMap Reception.packet?).length := by
  induction script generalizing f with
  | nil => exact ⟨free, Nat.le_refl _, rfl⟩
  | cons r rest ih =>
    obtain ⟨pipeline, packets⟩ := stepCounts free r
    obtain ⟨cap, processed, later⟩ := ih (stepFree free r)
    have more : f.pipeline.processed ≤ (f.step r).feed.pipeline.processed := by
      rw [pipeline]
      exact Nat.le_add_right _ _
    refine ⟨cap, Nat.le_trans more processed, ?_⟩
    rw [after, later, packets]
    cases found : r.packet? <;> simp [found]
    omega

theorem stepBelow {f : LiveFeed} (free : f.pipeline.cap = 0) {cap : Nat} {r : Reception}
    (below : ((f.step r).feed.limited cap).pipeline.capReached = false) :
    ((f.limited cap).step r).feed = (f.step r).feed.limited cap ∧
      ((f.limited cap).step r).events = (f.step r).events ∧
      ((f.limited cap).step r).stops = false := by
  cases found : r.packet? with
  | none =>
    obtain ⟨stays, quiet⟩ := stepSilent (f := f) found
    obtain ⟨same, silent⟩ := stepSilent (f := f.limited cap) found
    rw [stays, quiet, same, silent]
    exact ⟨rfl, rfl, silentGoesOn found _⟩
  | some k =>
    obtain ⟨feed, told⟩ := stepPacket (f := f) found
    obtain ⟨capped, again⟩ := stepPacket (f := f.limited cap) found
    have room : ((f.pipeline.counted k.bodies.length).limited cap).capReached = false := by
      have counts := (stepCounts free r).1
      rw [found] at counts
      rw [← below, limited, counts]
      rfl
    obtain ⟨pipeline, goes, same⟩ := Pipeline.processBelow free room
    refine ⟨?_, ?_, (stepStops found).trans goes⟩
    · rw [capped, feed]
      simp only [limited, pipeline]
    · rw [again, told]
      simp only [limited, same]

theorem uncappedBefore {f : LiveFeed} (free : f.pipeline.cap = 0) {cap : Nat}
    {script : List Reception}
    (below : ((f.after script).limited cap).pipeline.capReached = false) :
    (f.limited cap).pipeline.capReached = false := by
  have counted := (afterCounts free script).2.1
  have room : cap = 0 ∨ (f.after script).pipeline.processed < cap :=
    (Pipeline.uncappedIff _).mp below
  refine (Pipeline.uncappedIff _).mpr ?_
  change cap = 0 ∨ f.pipeline.processed < cap
  omega

theorem listenPast {f : LiveFeed} (free : f.pipeline.cap = 0) {cap : Nat}
    {before : List Reception}
    (below : ((f.after before).limited cap).pipeline.capReached = false) (rest : List Reception) :
    (f.limited cap).listen (before ++ rest) =
      { ((f.after before).limited cap).listen rest with
        events := f.events before ++ (((f.after before).limited cap).listen rest).events } := by
  induction before generalizing f with
  | nil => rfl
  | cons r tail ih =>
    -- the room left behind all of `before` is left behind its first reception too
    obtain ⟨feed, told, onward⟩ := stepBelow free (uncappedBefore (stepFree free r) below)
    rw [List.cons_append, listen, feed, told, onward, if_neg (by simp),
      ih (stepFree free r) below, eventsCons, List.append_assoc]
    rfl

theorem listenUncapped {f : LiveFeed} (free : f.pipeline.cap = 0) {cap : Nat}
    {script : List Reception}
    (below : ((f.after script).limited cap).pipeline.capReached = false) :
    (f.limited cap).listen script = ⟨(f.after script).limited cap, f.events script, false⟩ := by
  have past := listenPast free below []
  rw [List.append_nil] at past
  rw [past, listen, List.append_nil]

/- The reception `r` behind `before` holds the packet `k`, whose frame number `place` is the one that
brings the count of the uncapped feed to the cap. -/
structure Fills (f : LiveFeed) (cap : Nat) (before : List Reception) (r : Reception) (k : Packet)
    (place : Nat) : Prop where
  packet : r.packet? = some k
  positive : 0 < place
  within : place ≤ k.bodies.length
  counted : (f.after before).summary.decoded + place = cap

theorem fillsSomewhere {f : LiveFeed} (free : f.pipeline.cap = 0) {cap : Nat}
    (below : f.pipeline.processed < cap) {script : List Reception}
    (reached : cap ≤ (f.after script).summary.decoded) :
    ∃ before r rest k place, script = before ++ r :: rest ∧ Fills f cap before r k place := by
  induction script generalizing f with
  | nil => exact absurd reached (Nat.not_le_of_lt below)
  | cons r rest ih =>
    obtain ⟨counts, _⟩ := stepCounts free r
    by_cases here : cap ≤ (f.step r).feed.pipeline.processed
    · -- the first reception that brings the count to the cap
      rw [counts] at here
      cases found : r.packet? with
      | none =>
        rw [found] at here
        exact absurd here (Nat.not_le_of_lt below)
      | some k =>
        rw [found] at here
        change cap ≤ f.pipeline.processed + k.bodies.length at here
        refine ⟨[], r, rest, k, cap - f.pipeline.processed, rfl, found, by omega, by omega, ?_⟩
        change f.pipeline.processed + (cap - f.pipeline.processed) = cap
        omega
    · obtain ⟨before, next, later, k, place, rfl, packet, positive, within, counted⟩ :=
        ih (stepFree free r) (Nat.lt_of_not_le here) reached
      exact ⟨r :: before, next, later, k, place, rfl, packet, positive, within, counted⟩

theorem listenFills {f : LiveFeed} {cap place : Nat} {before : List Reception} {r : Reception}
    {k : Packet} (free : f.pipeline.cap = 0) (fills : Fills f cap before r k place)
    (rest : List Reception) :
    (f.limited cap).listen (before ++ r :: rest) =
      ⟨⟨((f.after before).tracker.track k.header).2,
          ((f.after before).pipeline.counted place).limited cap, (f.after before).packets + 1⟩,
        f.events before ++ (f.after before).toldUpTo k place ++ [.capReached cap], true⟩ := by
  obtain ⟨packet, positive, within, counted⟩ := fills
  have below : ((f.after before).limited cap).pipeline.capReached = false := by
    refine (Pipeline.uncappedIff _).mpr (.inr ?_)
    change (f.after before).summary.decoded < cap
    omega
  obtain ⟨pipeline, full, told⟩ := Pipeline.processReaches positive within counted
  obtain ⟨feed, events⟩ := stepPacket (f := (f.after before).limited cap) packet
  have stops : (((f.after before).limited cap).step r).stops = true :=
    (stepStops packet).trans full
  rw [listenPast free below, listen, stops, if_pos rfl, feed, events]
  have decoded : (((f.after before).pipeline.counted place).limited cap).processed = cap := counted
  simp only [limited, pipeline, told, stop, toldUpTo, summary, List.append_assoc, decoded]

theorem toldPrefix {f : LiveFeed} (free : f.pipeline.cap = 0) {r : Reception} {k : Packet}
    (found : r.packet? = some k) (place : Nat) :
    f.toldUpTo k place <+: (f.step r).events := by
  rw [(stepPacket found).2, toldUpTo, List.prefix_append_right_inj]
  cases ended : k.header.isEndOfSession with
  | true =>
    rw [Pipeline.endOfSessionBodies ended, List.take_nil]
    exact List.nil_prefix
  | false =>
    have split := f.pipeline.messagesAppend k.header 0 (k.bodies.take place) (k.bodies.drop place)
    rw [List.take_append_drop] at split
    rw [Pipeline.processedEvents ended, Pipeline.takenUnlimited free, List.take_length, split,
      List.append_assoc]
    exact List.prefix_append _ _

theorem eventsUncapped (f : LiveFeed) (script : List Reception) (decoded : Nat) :
    .capReached decoded ∉ f.events script := by
  induction script generalizing f with
  | nil => exact List.not_mem_nil
  | cons r rest ih =>
    intro member
    rw [eventsCons] at member
    rcases List.mem_append.mp member with here | later
    · cases found : r.packet? with
      | none =>
        rw [(stepSilent found).2] at here
        contradiction
      | some k =>
        rw [(stepPacket found).2] at here
        rcases List.mem_append.mp here with placed | worked
        · cases sequencing : (f.tracker.track k.header).1 <;>
            simp [sequencing, Sequencing.event?] at placed
        · have ofPacket := f.pipeline.processOfPacket k _ worked
          contradiction
    · exact ih _ later

structure EndsAt (free : LiveFeed) (cap : Nat) (script before : List Reception) (r : Reception)
    (k : Packet) (place : Nat) (run : LiveRun) : Prop where
  fills : Fills free cap before r k place
  returned : run.returned = true
  decoded : run.feed.summary.decoded = cap
  packets : run.feed.summary.packets =
    ((before ++ [r]).filterMap Reception.packet?).length
  events : run.events =
    free.events before ++ (free.after before).toldUpTo k place ++ [.capReached cap]
  told : free.events before ++ (free.after before).toldUpTo k place <+: free.events script

theorem fillsEnds {f : LiveFeed} {cap place : Nat} {before : List Reception} {r : Reception}
    {k : Packet} (free : f.pipeline.cap = 0) (unheard : f.packets = 0)
    (fills : Fills f cap before r k place) (rest : List Reception) :
    EndsAt f cap (before ++ r :: rest) before r k place
      ((f.limited cap).listen (before ++ r :: rest)) := by
  obtain ⟨uncapped, _, packets⟩ := afterCounts free before
  rw [listenFills free fills]
  refine ⟨fills, rfl, fills.counted, ?_, rfl, ?_⟩
  · change (f.after before).packets + 1 = _
    rw [packets, unheard, List.filterMap_append, List.filterMap_cons_some fills.packet]
    simp
  · rw [eventsAppend, List.prefix_append_right_inj, eventsCons]
    exact (toldPrefix uncapped fills.packet place).trans (List.prefix_append _ _)

theorem capCutsRun (table : Table) (filter : Option TypeFilter) (cap : Nat)
    (script : List Reception) :
    let free := fresh (.fresh table filter 0)
    let run := (fresh (.fresh table filter cap)).run
    (∀ decoded, .capReached decoded ∉ free.events script) ∧
    (cap ≠ 0 → cap ≤ (free.after script).summary.decoded →
      ∃ before r rest k place, script = before ++ r :: rest ∧
        EndsAt free cap script before r k place (run script) ∧
        ∀ other, run (before ++ r :: other) = run script) ∧
    (cap = 0 ∨ (free.after script).summary.decoded < cap →
      (run script).returned = false ∧ (run script).events = free.events script) := by
  intro free run
  have starts (s : List Reception) : run s = (free.limited cap).listen s := by
    have uncapped : (fresh (.fresh table filter cap)).pipeline.capReached = false :=
      (Pipeline.uncappedIff _).mpr (Nat.eq_zero_or_pos cap)
    exact if_neg (by simp [uncapped])
  refine ⟨eventsUncapped free script, ?_, ?_⟩
  · intro limited reached
    obtain ⟨before, r, rest, k, place, rfl, fills⟩ :=
      fillsSomewhere (f := free) rfl (Nat.pos_of_ne_zero limited) reached
    refine ⟨before, r, rest, k, place, rfl, ?_, fun other => ?_⟩
    · rw [starts]
      exact fillsEnds rfl rfl fills rest
    · rw [starts, starts, listenFills rfl fills, listenFills rfl fills]
  · intro below
    rw [starts, listenUncapped rfl ((Pipeline.uncappedIff _).mpr below)]
    exact ⟨rfl, rfl⟩

/- The second of two frames fills the cap and stands right before a cut one; the third packet is
never received. -/
theorem capCutsRunBeforeCut :
    let session : Session := ⟨List.replicate 10 0x41, rfl⟩
    let script : List Reception :=
      [.datagram (Header.write ⟨session, 5, 0⟩), .failure,
        .datagram (Header.write ⟨session, 9, 3⟩ ++ [0, 1, 0x42, 0, 0, 0, 9]),
        .datagram (Header.write ⟨session, 12, 1⟩ ++ [0, 0])]
    let free := fresh (.fresh .empty none 0)
    let run := (fresh (.fresh .empty none 2)).run
    ∃ before r rest k place, script = before ++ r :: rest ∧
      EndsAt free 2 script before r k place (run script) ∧
      ∀ other, run (before ++ r :: other) = run script :=
  (capCutsRun .empty none 2 _).2.1 (by decide) (by decide)

end LiveFeed
end MarketFeed
