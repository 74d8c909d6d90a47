import MarketFeed.Proofs.Live.Steps

/-! No silent loss on the live feed. While the packets of one session follow one another, each
sequence number from the first packet on and below the furthest packet end is accounted for: it
came as a message, lies in a reported gap, or was lost to a reported cut. A stretch of the script
may start and end anywhere, so the maximal stretches of one session are among those covered. -/
namespace MarketFeed

def Accounts (session : Session) (n : Nat) : FeedEvent → Prop
  | .message s sequence _ => s = session ∧ sequence.toNat = n
  | .gap s expected received _ => s = session ∧ expected.toNat ≤ n ∧ n < received.toNat
  | .frameOverrun s sequence skipped =>
      s = session ∧ sequence.toNat ≤ n ∧ n < sequence.toNat + skipped
  | _ => False

namespace Pipeline

theorem processAccounts {p : Pipeline} (all : p.filter = none) (unlimited : p.cap = 0) {k : Packet}
    (fits : k.header.sequence.toNat + k.header.frameCount ≤ 0xFFFFFFFFFFFFFFFF) {n : Nat}
    (reached : k.header.sequence.toNat ≤ n)
    (below : n < k.header.sequence.toNat + k.header.frameCount) :
    ∃ e ∈ (p.process k.header k.raw).events, Accounts k.header.session n e := by
  have going : k.header.isEndOfSession = false := by
    cases ended : k.header.isEndOfSession with
    | false => rfl
    | true => simp [Header.frameCount, ended] at below; omega
  have count := k.framingCount
  rw [processedEvents going, takenUnlimited unlimited, List.take_length, messagesUnfiltered all]
  by_cases delivered : n - k.header.sequence.toNat < k.bodies.length
  · -- the frame was read, its message carries the number
    have place : (k.header.sequenceAt (0 + (n - k.header.sequence.toNat))).toNat = n := by
      rw [Header.sequenceAtToNat (by omega)]
      omega
    exact ⟨_, List.mem_append_left _ (List.mem_mapIdx.mpr ⟨_, delivered, rfl⟩), rfl, place⟩
  · -- the walk was cut before the frame
    have broken : k.framing.fault.isSome = true := by
      cases fault : k.framing.fault with
      | some _ => rfl
      | none => have := k.framingLost fault; omega
    have place : (k.header.sequenceAt (0 + k.bodies.length)).toNat =
        k.header.sequence.toNat + k.bodies.length := by
      rw [Header.sequenceAtToNat (by omega)]
      omega
    rw [cutUnlimited unlimited broken]
    refine ⟨_, List.mem_append_right _ (List.mem_singleton.mpr rfl), rfl, ?_⟩
    simp only [Packet.bodies] at place delivered count
    omega

end Pipeline

namespace LiveFeed

def during (f : LiveFeed) (before block rest : List Reception) : List FeedEvent :=
  (((f.steps (before ++ block ++ rest)).drop before.length).take block.length).flatMap
    LiveStep.events

theorem duringEvents (f : LiveFeed) (before block rest : List Reception) :
    f.during before block rest = (f.after before).events block := by
  rw [during, List.append_assoc, stepsAppend, List.drop_left' (stepsLength f before), stepsAppend,
    List.take_left' (stepsLength _ block), events]

def Unlimited (f : LiveFeed) : Prop := f.pipeline.filter = none ∧ f.pipeline.cap = 0

theorem stepUnlimited {f : LiveFeed} (unlimited : f.Unlimited) (r : Reception) :
    (f.step r).feed.Unlimited := by
  cases found : r.packet? with
  | none => rwa [(stepSilent found).1]
  | some k =>
    rw [(stepPacket found).1]
    simpa [Unlimited, Pipeline.processedPacket, Pipeline.counted] using unlimited

theorem afterUnlimited {f : LiveFeed} (unlimited : f.Unlimited) (script : List Reception) :
    (f.after script).Unlimited := by
  induction script generalizing f with
  | nil => exact unlimited
  | cons r rest ih => exact ih (stepUnlimited unlimited r)

theorem stepCarries {f : LiveFeed} (unlimited : f.Unlimited) {r : Reception} {k : Packet}
    (found : r.packet? = some k)
    (fits : k.header.sequence.toNat + k.header.frameCount ≤ 0xFFFFFFFFFFFFFFFF) {n : Nat}
    (reached : k.header.sequence.toNat ≤ n) (below : n < k.header.nextSequence.toNat) :
    ∃ e ∈ (f.step r).events, Accounts k.header.session n e := by
  rw [Header.nextSequenceToNat] at below
  obtain ⟨e, member, accounts⟩ :=
    Pipeline.processAccounts unlimited.1 unlimited.2 fits reached (by omega)
  rw [(stepPacket found).2]
  exact ⟨e, List.mem_append_right _ member, accounts⟩

theorem stepGap {f : LiveFeed} {r : Reception} {k : Packet} (found : r.packet? = some k)
    {expected : UInt64} (joined : f.tracker = .joined k.header.session expected) {n : Nat}
    (reached : expected.toNat ≤ n) (below : n < k.header.sequence.toNat) :
    ∃ e ∈ (f.step r).events, Accounts k.header.session n e := by
  have ahead : expected < k.header.sequence := UInt64.lt_iff_toNat_lt.mpr (by omega)
  have gap : (f.tracker.track k.header).1 =
      .gap expected k.header.sequence (k.header.sequence - expected) := by
    simp [joined, Tracker.track, Tracker.classify, ahead]
  rw [(stepPacket found).2, gap]
  exact ⟨_, List.mem_append_left _ (List.mem_singleton.mpr rfl), rfl, reached, below⟩

/- The induction moves along the block with the expected number as its lower end: a number below
the packet's end is settled at this step, any other one is still ahead of what is expected next. -/
theorem everyExpectedAccounted {f : LiveFeed} (unlimited : f.Unlimited) {session : Session}
    {expected : UInt64} (joined : f.tracker = .joined session expected) {block : List Reception}
    (same : ∀ k ∈ block.filterMap Reception.packet?, k.header.session = session ∧
      k.header.sequence.toNat + k.header.frameCount ≤ 0xFFFFFFFFFFFFFFFF) {n : Nat}
    (reached : expected.toNat ≤ n)
    (below : ∃ k ∈ block.filterMap Reception.packet?, n < k.header.nextSequence.toNat) :
    ∃ e ∈ f.events block, Accounts session n e := by
  induction block generalizing f expected with
  | nil => simp at below
  | cons r rest ih =>
    cases found : r.packet? with
    | none =>
      simp only [List.filterMap_cons, found] at same below
      rw [eventsSilent found]
      exact ih unlimited joined same reached below
    | some k =>
      simp only [List.filterMap_cons, found, List.forall_mem_cons] at same
      obtain ⟨far, member, ahead⟩ := below
      simp only [List.filterMap_cons, found] at member
      obtain ⟨⟨rfl, fits⟩, later⟩ := same
      rw [eventsCons]
      by_cases settled : n < k.header.nextSequence.toNat
      · have here : ∃ e ∈ (f.step r).events, Accounts k.header.session n e := by
          by_cases carried : k.header.sequence.toNat ≤ n
          · exact stepCarries unlimited found fits carried settled
          · exact stepGap found joined reached (by omega)
        obtain ⟨e, told, accounts⟩ := here
        exact ⟨e, List.mem_append_left _ told, accounts⟩
      · rcases List.mem_cons.mp member with rfl | inRest
        · contradiction
        · obtain ⟨e, told, accounts⟩ := ih (stepUnlimited unlimited r) (stepTracker found) later
            (by omega) ⟨far, inRest, ahead⟩
          exact ⟨e, List.mem_append_right _ told, accounts⟩

theorem everyNumberAccounted {f : LiveFeed} (unlimited : f.Unlimited) {session : Session}
    {first : Packet} {others : List Packet} {block : List Reception}
    (packets : block.filterMap Reception.packet? = first :: others)
    (same : ∀ k ∈ first :: others, k.header.session = session ∧
      k.header.sequence.toNat + k.header.frameCount ≤ 0xFFFFFFFFFFFFFFFF) {n : Nat}
    (reached : first.header.sequence.toNat ≤ n)
    (below : ∃ k ∈ first :: others, n < k.header.nextSequence.toNat) :
    ∃ e ∈ f.events block, Accounts session n e := by
  induction block generalizing f with
  | nil => contradiction
  | cons r rest ih =>
    cases found : r.packet? with
    | none =>
      rw [List.filterMap_cons_none found] at packets
      rw [eventsSilent found]
      exact ih unlimited packets
    | some k =>
      rw [List.filterMap_cons_some found] at packets
      obtain ⟨rfl, rfl⟩ := List.cons.inj packets
      obtain ⟨⟨rfl, fits⟩, later⟩ := List.forall_mem_cons.mp same
      rw [eventsCons]
      by_cases settled : n < k.header.nextSequence.toNat
      · obtain ⟨e, told, accounts⟩ := stepCarries unlimited found fits reached settled
        exact ⟨e, List.mem_append_left _ told, accounts⟩
      · obtain ⟨far, member, ahead⟩ := below
        rcases List.mem_cons.mp member with rfl | inRest
        · contradiction
        · obtain ⟨e, told, accounts⟩ := everyExpectedAccounted (stepUnlimited unlimited r)
            (stepTracker found) later (by omega) ⟨far, inRest, ahead⟩
          exact ⟨e, List.mem_append_right _ told, accounts⟩

theorem noSilentLoss (table : Table) (before block rest : List Reception) {session : Session}
    {first : Packet} {others : List Packet}
    (packets : block.filterMap Reception.packet? = first :: others)
    (same : ∀ k ∈ first :: others, k.header.session = session ∧
      k.header.sequence.toNat + k.header.frameCount ≤ 0xFFFFFFFFFFFFFFFF) {n : Nat}
    (reached : first.header.sequence.toNat ≤ n)
    (below : ∃ k ∈ first :: others, n < k.header.nextSequence.toNat) :
    ∃ e ∈ (fresh (.fresh table none 0)).during before block rest, Accounts session n e := by
  rw [duringEvents]
  exact everyNumberAccounted (afterUnlimited ⟨rfl, rfl⟩ before) packets same reached below

/- A packet of another session, then one cut in its second frame, a datagram without a header, an
old packet and a heartbeat ahead of it: the number 8 lies in the gap before the heartbeat. -/
theorem noSilentLossBehindCut :
    ∃ e ∈ (fresh (.fresh .empty none 0)).during
        [.datagram (Header.write ⟨⟨List.replicate 10 0x42, rfl⟩, 90, 0⟩)]
        [.datagram (Header.write ⟨⟨List.replicate 10 0x41, rfl⟩, 5, 2⟩ ++ [0, 1, 0x41, 0, 9]),
          .datagram [1, 2, 3], .failure,
          .datagram (Header.write ⟨⟨List.replicate 10 0x41, rfl⟩, 5, 1⟩ ++ [0, 0]),
          .datagram (Header.write ⟨⟨List.replicate 10 0x41, rfl⟩, 9, 0⟩)] [.failure],
      Accounts ⟨List.replicate 10 0x41, rfl⟩ 8 e :=
  noSilentLoss .empty _ _ _ rfl (by decide) (by decide) (by decide)

end LiveFeed
end MarketFeed
