import MarketFeed.Proofs.Live.Steps
import MarketFeed.Proofs.Recovery.Rounds

/-! What reaches the live channel besides packets. Failed receives and datagrams too short for a
header, wherever they come, leave no trace in a live run and none in a recovery; of all that the
channel brings, a recovery takes the heading of the first packet and nothing more. -/
namespace MarketFeed

namespace Reception

def isJunk : Reception → Bool
  | .failure => true
  | .datagram raw => decide (raw.length < headerSize)

def heading? : Reception → Option (Session × UInt64)
  | .failure => none
  | .datagram raw => (Header.read raw).toOption.map fun h => (h.session, h.sequence)

end Reception

inductive JunkApart : List Reception → List Reception → Prop where
  | same {script} : JunkApart script script
  | inserted {script before r behind} (earlier : JunkApart script (before ++ behind))
      (junk : r.isJunk = true) : JunkApart script (before ++ r :: behind)
  | deleted {script before r behind} (earlier : JunkApart script (before ++ r :: behind))
      (junk : r.isJunk = true) : JunkApart script (before ++ behind)

def firstHeading? (script : List Reception) : Option (Session × UInt64) :=
  (script.find? fun r => !r.isJunk).bind Reception.heading?

namespace Header

theorem readFails {packet : Bytes} (short : packet.length < headerSize) :
    read packet = .error ⟨packet.length⟩ := dif_neg (Nat.not_le_of_lt short)

theorem readReceived {datagram : Bytes} (enough : headerSize ≤ datagram.length) :
    ∃ h, read datagram = .ok h ∧ read (datagram.take receiveBufferSize) = .ok h := by
  have kept : headerSize ≤ (datagram.take receiveBufferSize).length := by
    rw [List.length_take]
    exact Nat.le_min.mpr ⟨by decide, enough⟩
  refine ⟨_, dif_pos enough, ?_⟩
  simp only [read, dif_pos kept, List.take_take, List.drop_take]
  rfl

end Header

theorem Reception.junkSilent {r : Reception} (junk : r.isJunk = true) : r.packet? = none := by
  cases r with
  | failure => rfl
  | datagram raw =>
    have short : (raw.take receiveBufferSize).length < headerSize :=
      Nat.lt_of_le_of_lt (List.length_take_le' _ _) (of_decide_eq_true junk)
    simp [packet?, Packet.read?, Header.readFails short]

theorem Reception.headingHeard {r : Reception} (heard : r.isJunk = false) :
    ∃ k, r.packet? = some k ∧ r.heading? = some (k.header.session, k.header.sequence) := by
  cases r with
  | failure => contradiction
  | datagram raw =>
    obtain ⟨h, whole, received⟩ := Header.readReceived (Nat.le_of_not_lt (of_decide_eq_false heard))
    exact ⟨⟨h, raw.take receiveBufferSize⟩, by simp [packet?, Packet.read?, received],
      by simp [heading?, whole, Except.toOption]⟩

namespace JunkApart

theorem packets {a b : List Reception} (apart : JunkApart a b) :
    a.filterMap Reception.packet? = b.filterMap Reception.packet? := by
  induction apart with
  | same => rfl
  | inserted earlier junk ih =>
    rw [ih, List.filterMap_append, List.filterMap_append,
      List.filterMap_cons_none (Reception.junkSilent junk)]
  | deleted earlier junk ih =>
    rw [ih, List.filterMap_append, List.filterMap_append,
      List.filterMap_cons_none (Reception.junkSilent junk)]

end JunkApart

namespace LiveFeed

theorem listenSilent {r : Reception} (silent : r.packet? = none) (f : LiveFeed)
    (before behind : List Reception) :
    f.listen (before ++ r :: behind) = f.listen (before ++ behind) := by
  induction before generalizing f with
  | nil =>
    obtain ⟨stays, quiet⟩ := stepSilent (f := f) silent
    simp [listen, silentGoesOn silent, stays, quiet]
  | cons first rest ih => simp [listen, ih]

theorem runSilent {r : Reception} (silent : r.packet? = none) (f : LiveFeed)
    (before behind : List Reception) :
    f.run (before ++ r :: behind) = f.run (before ++ behind) := by
  simp [run, listenSilent silent]

theorem runApart {a b : List Reception} (apart : JunkApart a b) (f : LiveFeed) :
    f.run a = f.run b := by
  induction apart with
  | same => rfl
  | inserted earlier junk ih => exact ih.trans (runSilent (Reception.junkSilent junk) f _ _).symm
  | deleted earlier junk ih => exact ih.trans (runSilent (Reception.junkSilent junk) f _ _)

end LiveFeed

theorem headingFirst (script : List Reception) :
    firstHeading? script = (firstHeader? script).map fun h => (h.session, h.sequence) := by
  rw [firstHeaderPackets]
  induction script with
  | nil => rfl
  | cons r rest ih =>
    cases junk : r.isJunk with
    | true =>
      rw [List.filterMap_cons_none (Reception.junkSilent junk), ← ih]
      simp [firstHeading?, junk]
    | false =>
      obtain ⟨k, packet, heading⟩ := Reception.headingHeard junk
      simp [firstHeading?, junk, packet, heading]

theorem recoverHeading {a b : List Reception} (same : firstHeading? a = firstHeading? b)
    (plan : RecoveryPlan) (pipeline : Pipeline) (link : RerequestLink) :
    recover plan pipeline a link = recover plan pipeline b link := by
  rw [headingFirst, headingFirst] at same
  unfold recover
  cases first : firstHeader? a with
  | none =>
    have none : firstHeader? b = none := by simpa [first] using same.symm
    rw [none]
  | some h =>
    rw [first] at same
    obtain ⟨other, found, heading⟩ := Option.map_eq_some_iff.mp same.symm
    obtain ⟨session, sequence⟩ := Prod.mk.inj heading
    simp [found, session, sequence]

/- Equal runs agree in events, tracker, summary and return; equal recoveries in events, rerequests,
replies left unread and result. -/
theorem junkUnheard {a b : List Reception} (apart : JunkApart a b) :
    (∀ f : LiveFeed, f.run a = f.run b) ∧
    ∀ plan pipeline link,
      recover plan pipeline a link = recover plan pipeline b link ∧
      (∀ other, firstHeading? other = firstHeading? a →
        recover plan pipeline other link = recover plan pipeline a link) ∧
      ((∀ r ∈ a, r.isJunk = true) →
        (recover plan pipeline a link).events = [] ∧ (recover plan pipeline a link).link = link) := by
  refine ⟨LiveFeed.runApart apart, fun plan pipeline link => ⟨?_, ?_, ?_⟩⟩
  · have same : firstHeading? a = firstHeading? b := by
      simp only [headingFirst, firstHeaderPackets, apart.packets]
    exact recoverHeading same plan pipeline link
  · intro other same
    exact recoverHeading same plan pipeline link
  · intro junk
    have absent : (a.find? fun r => !r.isJunk) = none := by simpa using junk
    have unheard : firstHeader? a = none := by
      simpa [firstHeading?, absent] using (headingFirst a).symm
    obtain ⟨result, silent, _⟩ := recoverUnheard unheard plan pipeline link
    rw [silent]
    exact ⟨rfl, rfl⟩

/- A failed receive is taken out and nineteen bytes of another session's header are put in between the
packets; a heartbeat with the heading of the first packet serves the recovery as well. -/
theorem junkUnheardBetween :
    let session : Session := ⟨List.replicate 10 0x41, rfl⟩
    let other : Session := ⟨List.replicate 10 0x42, rfl⟩
    let first : Reception := .datagram (Header.write ⟨session, 5, 2⟩ ++ [0, 1, 0x41, 0, 0])
    let second : Reception := .datagram (Header.write ⟨session, 9, 2⟩ ++ [0, 0, 0, 0])
    let torn : Reception := .datagram ((Header.write ⟨other, 7, 0⟩).take 19)
    let heartbeat : Reception := .datagram (Header.write ⟨session, 5, 0⟩)
    let feed := LiveFeed.fresh (.fresh .empty none 3)
    let resume := recover ⟨5, 2, 1, none⟩ (.fresh .empty none 0)
    let link := RerequestLink.fresh (.script [[.timeout], [.datagram [1]]] none)
    JunkApart [.failure, first, second] [first, torn, second] ∧
      (feed.run [first, torn, second]).returned = true ∧
      feed.run [.failure, first, second] = feed.run [first, torn, second] ∧
      resume [.failure, first, second] link = resume [first, torn, second] link ∧
      resume [heartbeat] link = resume [.failure, first, second] link := by
  intro session other first second torn heartbeat feed resume link
  have apart : JunkApart [.failure, first, second] [first, torn, second] :=
    @JunkApart.inserted _ [first] torn _ (@JunkApart.deleted _ [] .failure _ .same rfl) (by decide)
  obtain ⟨run, recovers⟩ := junkUnheard apart
  obtain ⟨same, heading, _⟩ := recovers ⟨5, 2, 1, none⟩ (.fresh .empty none 0) link
  exact ⟨apart, by decide, run feed, same, heading [heartbeat] (by decide)⟩

end MarketFeed
