import MarketFeed.Proofs.Stream

/-! One receive of the live feed, and scripts of receptions as chains of them. A reception that
holds no packet changes nothing; a packet moves the tracker behind itself and goes through the
pipeline. -/
namespace MarketFeed

def FeedEvent.ofTracker : FeedEvent → Bool
  | .sessionChange _ _ _ | .gap _ _ _ _ | .duplicate _ _ _ => true
  | _ => false

namespace LiveFeed

def after (f : LiveFeed) : List Reception → LiveFeed
  | [] => f
  | r :: rest => (f.step r).feed.after rest

def events (f : LiveFeed) (script : List Reception) : List FeedEvent :=
  (f.steps script).flatMap LiveStep.events

theorem eventsCons (f : LiveFeed) (r : Reception) (rest : List Reception) :
    f.events (r :: rest) = (f.step r).events ++ (f.step r).feed.events rest := rfl

theorem stepsAppend (f : LiveFeed) (a b : List Reception) :
    f.steps (a ++ b) = f.steps a ++ (f.after a).steps b := by
  induction a generalizing f with
  | nil => rfl
  | cons r rest ih => simp [steps, after, ih]

theorem eventsAppend (f : LiveFeed) (a b : List Reception) :
    f.events (a ++ b) = f.events a ++ (f.after a).events b := by
  rw [events, stepsAppend, List.flatMap_append, events, events]

theorem stepsLength (f : LiveFeed) (script : List Reception) :
    (f.steps script).length = script.length := by
  induction script generalizing f with
  | nil => rfl
  | cons r rest ih => simp [steps, ih]

theorem stepSilent {f : LiveFeed} {r : Reception} (silent : r.packet? = none) :
    (f.step r).feed = f ∧ (f.step r).events = [] := by
  cases r with
  | failure => exact ⟨rfl, rfl⟩
  | datagram raw =>
    obtain ⟨e, failed⟩ := Packet.readNone silent
    simp [step, accept, failed]

theorem stepPacket {f : LiveFeed} {r : Reception} {k : Packet} (found : r.packet? = some k) :
    (f.step r).feed =
        ⟨(f.tracker.track k.header).2, (f.pipeline.process k.header k.raw).pipeline, f.packets + 1⟩ ∧
      (f.step r).events =
        ((f.tracker.track k.header).1.event? k.header.session).toList ++
          (f.pipeline.process k.header k.raw).events := by
  cases r with
  | failure => contradiction
  | datagram raw =>
    obtain ⟨ok, cut⟩ := Packet.readSome found
    simp [step, accept, ok, cut]

theorem stepStops {f : LiveFeed} {r : Reception} {k : Packet} (found : r.packet? = some k) :
    (f.step r).stops = (f.pipeline.process k.header k.raw).report.capReached := by
  cases r with
  | failure => contradiction
  | datagram raw =>
    obtain ⟨ok, cut⟩ := Packet.readSome found
    simp [step, accept, ok, cut, LiveStep.stops]

theorem silentGoesOn {r : Reception} (silent : r.packet? = none) (f : LiveFeed) :
    (f.step r).stops = false := by
  cases r with
  | failure => rfl
  | datagram raw =>
    obtain ⟨e, failed⟩ := Packet.readNone silent
    simp [step, accept, failed, LiveStep.stops]

theorem eventsSilent {r : Reception} (silent : r.packet? = none) (f : LiveFeed)
    (rest : List Reception) : f.events (r :: rest) = f.events rest := by
  obtain ⟨stays, quiet⟩ := stepSilent (f := f) silent
  rw [eventsCons, quiet, stays, List.nil_append]

theorem stepTracker {f : LiveFeed} {r : Reception} {k : Packet} (found : r.packet? = some k) :
    (f.step r).feed.tracker = .joined k.header.session k.header.nextSequence := by
  rw [(stepPacket found).1]
  rfl

theorem stepTells (f : LiveFeed) (r : Reception) :
    ∀ e ∈ (f.step r).events, e.ofPacket = !e.ofTracker := by
  intro e member
  cases found : r.packet? with
  | none =>
    rw [(stepSilent found).2] at member
    contradiction
  | some k =>
    rw [(stepPacket found).2] at member
    rcases List.mem_append.mp member with placed | worked
    · cases sequencing : (f.tracker.track k.header).1 <;>
        simp [sequencing, Sequencing.event?] at placed <;> rw [placed] <;> rfl
    · have told := f.pipeline.processOfPacket k e worked
      cases e <;> simp [FeedEvent.ofPacket, FeedEvent.ofTracker] at told ⊢

theorem stepWorks (f : LiveFeed) (r : Reception) :
    (f.step r).feed.pipeline = f.pipeline.work r.packet?.toList ∧
      (f.step r).events.filter FeedEvent.ofPacket = f.pipeline.workEvents r.packet?.toList := by
  cases found : r.packet? with
  | none =>
    obtain ⟨stays, quiet⟩ := stepSilent (f := f) found
    rw [stays, quiet]
    exact ⟨rfl, rfl⟩
  | some k =>
    obtain ⟨feed, events⟩ := stepPacket (f := f) found
    have apart : (((f.tracker.track k.header).1.event? k.header.session).toList).filter
        FeedEvent.ofPacket = [] := by
      cases (f.tracker.track k.header).1 <;> rfl
    rw [feed, events, List.filter_append, apart,
      List.filter_eq_self.mpr (f.pipeline.processOfPacket k)]
    exact ⟨rfl, (List.append_nil _).symm⟩

theorem eventsTell (f : LiveFeed) (script : List Reception) :
    ∀ e ∈ f.events script, e.ofPacket = !e.ofTracker := by
  induction script generalizing f with
  | nil => exact fun e member => by contradiction
  | cons r rest ih =>
    intro e member
    rw [eventsCons] at member
    rcases List.mem_append.mp member with now | later
    · exact f.stepTells r e now
    · exact ih _ e later

theorem eventsWork (f : LiveFeed) (script : List Reception) :
    (f.after script).pipeline = f.pipeline.work (script.filterMap Reception.packet?) ∧
      (f.events script).filter FeedEvent.ofPacket =
        f.pipeline.workEvents (script.filterMap Reception.packet?) := by
  induction script generalizing f with
  | nil => exact ⟨rfl, rfl⟩
  | cons r rest ih =>
    obtain ⟨pipeline, events⟩ := f.stepWorks r
    obtain ⟨behind, later⟩ := ih (f.step r).feed
    have split : (r :: rest).filterMap Reception.packet? =
        r.packet?.toList ++ rest.filterMap Reception.packet? := by
      cases found : r.packet? <;> simp [found]
    rw [split, Pipeline.workAppend, Pipeline.workEventsAppend, ← pipeline, ← events, ← behind,
      ← later, ← List.filter_append]
    exact ⟨rfl, rfl⟩

end LiveFeed
end MarketFeed
