import Mathlib.Data.List.Forall2
import MarketFeed.Proofs.Stream

/-! What a type filter and a layout table may change. Both act on a message where it is shown and
nowhere else: two pipelines that differ in them count the same messages, two live feeds through them
keep the same state, and the events of one are those of the other, seen through a view that hides
messages or decodes them otherwise. -/
namespace MarketFeed

def FeedEvent.seen? (view : DecodedMessage → Option DecodedMessage) : FeedEvent → Option FeedEvent
  | .message session sequence m => (view m).map (.message session sequence)
  | e => some e

def seen (view : DecodedMessage → Option DecodedMessage) (events : List FeedEvent) :
    List FeedEvent :=
  events.filterMap (FeedEvent.seen? view)

namespace Pipeline

def shown (p : Pipeline) (body : Bytes) : Option DecodedMessage :=
  if p.passes body then some (decodeMessage body p.table) else none

/- Two pipelines that count alike. What the second shows of a message is what is seen of it in the
first. -/
structure Mirrors (view : DecodedMessage → Option DecodedMessage) (p q : Pipeline) : Prop where
  cap : q.cap = p.cap
  processed : q.processed = p.processed
  shows : ∀ body, q.shown body = (p.shown body).bind view

end Pipeline

variable {view : DecodedMessage → Option DecodedMessage}

theorem seenAppend (a b : List FeedEvent) : seen view (a ++ b) = seen view a ++ seen view b :=
  List.filterMap_append

theorem seenShown (session : Session) (sequence : UInt64) (m : Option DecodedMessage) :
    seen view (m.map (FeedEvent.message session sequence)).toList =
      ((m.bind view).map (FeedEvent.message session sequence)).toList := by
  cases m with
  | none => rfl
  | some m => cases viewed : view m <;> simp [seen, FeedEvent.seen?, viewed]

namespace Pipeline

theorem messagesShown (p : Pipeline) (h : Header) (position : Nat) (body : Bytes)
    (rest : List Bytes) :
    p.messages h position (body :: rest) =
      ((p.shown body).map (FeedEvent.message h.session (h.sequenceAt position))).toList ++
        p.messages h (position + 1) rest := by
  cases passed : p.passes body <;> simp [messages, shown, passed]

variable {p q : Pipeline}

theorem mirrorsCounted (m : Mirrors view p q) (n : Nat) :
    Mirrors view (p.counted n) (q.counted n) :=
  ⟨m.cap, congrArg (· + n) m.processed, m.shows⟩

theorem mirrorsCapReached (m : Mirrors view p q) : q.capReached = p.capReached := by
  simp only [capReached, m.cap, m.processed]

theorem mirrorsAllowance (m : Mirrors view p q) (n : Nat) : q.allowance n = p.allowance n := by
  simp only [allowance, m.cap, m.processed]

theorem mirrorsCutShort (m : Mirrors view p q) (f : Framing) : q.cutShort f = p.cutShort f := by
  simp only [cutShort, mirrorsAllowance m, mirrorsCapReached (mirrorsCounted m _)]

theorem mirrorsMessages (m : Mirrors view p q) (h : Header) (position : Nat)
    (bodies : List Bytes) :
    q.messages h position bodies = seen view (p.messages h position bodies) := by
  induction bodies generalizing position with
  | nil => rfl
  | cons body rest ih =>
    rw [messagesShown, messagesShown, seenAppend, seenShown, m.shows, ih]

theorem mirrorsCutEvents (m : Mirrors view p q) (h : Header) (position : Nat) (f : Framing) :
    q.cutEvents h position f = seen view (p.cutEvents h position f) := by
  rw [cutEvents, cutEvents, mirrorsCutShort m, mirrorsAllowance m]
  split <;> rfl

theorem mirrorsEvents (m : Mirrors view p q) (k : Packet) :
    (q.process k.header k.raw).events = seen view (p.process k.header k.raw).events := by
  cases ended : k.header.isEndOfSession with
  | true =>
    simp only [process, ended, if_true]
    rfl
  | false =>
    rw [processedEvents ended, processedEvents ended, taken, taken, mirrorsAllowance m,
      mirrorsMessages m, mirrorsCutEvents m, seenAppend]

theorem mirrorsProcess (m : Mirrors view p q) (k : Packet) :
    Mirrors view (p.process k.header k.raw).pipeline (q.process k.header k.raw).pipeline ∧
      (q.process k.header k.raw).report =
        { (p.process k.header k.raw).report with
          reported := (q.process k.header k.raw).report.reported } := by
  obtain ⟨pipeline, processed, capped⟩ := p.processedPacket k
  obtain ⟨mirrored, counted, stopped⟩ := q.processedPacket k
  have same : q.taken k = p.taken k := mirrorsAllowance m _
  have behind := mirrorsCounted m (p.taken k)
  rw [same] at mirrored counted stopped
  rw [pipeline, mirrored]
  refine ⟨behind, ?_⟩
  rw [PacketReport.mk.injEq]
  rw [processed, capped, counted, stopped, processedOverrun, processedOverrun,
    mirrorsCutShort m, mirrorsCapReached behind]
  exact ⟨rfl, rfl, rfl, rfl⟩

end Pipeline

def PacketStatus.reporting (n : Nat) : PacketStatus → PacketStatus
  | .skipped => .skipped
  | .processed report => .processed { report with reported := n }

def PacketStatus.unreported : PacketStatus → PacketStatus := .reporting 0

theorem unreportedReporting (n : Nat) :
    PacketStatus.reporting n ∘ PacketStatus.unreported = PacketStatus.reporting n := by
  funext status
  cases status <;> rfl

theorem stopsUnreported {a b : LiveStep}
    (same : b.status.map PacketStatus.unreported = a.status.map PacketStatus.unreported) :
    b.stops = a.stops := by
  have told (s : LiveStep) : s.stops = (s.status.map PacketStatus.unreported).any fun status =>
      match status with
      | .processed report => report.capReached
      | .skipped => false := by
    rcases status : s.status with _ | _ | report <;>
      simp [LiveStep.stops, status, PacketStatus.unreported, PacketStatus.reporting]
  rw [told, told, same]

namespace LiveFeed

structure Mirrors (view : DecodedMessage → Option DecodedMessage) (f g : LiveFeed) : Prop where
  tracker : g.tracker = f.tracker
  packets : g.packets = f.packets
  pipeline : f.pipeline.Mirrors view g.pipeline

variable {f g : LiveFeed}

theorem mirrorsSummary (m : Mirrors view f g) : g.summary = f.summary := by
  rw [summary, summary, m.packets, m.pipeline.processed]

theorem mirrorsStep (m : Mirrors view f g) (r : Reception) :
    Mirrors view (f.step r).feed (g.step r).feed ∧
      (g.step r).events = seen view (f.step r).events ∧
      (g.step r).status.map PacketStatus.unreported =
        (f.step r).status.map PacketStatus.unreported := by
  cases r with
  | failure => exact ⟨m, rfl, rfl⟩
  | datagram raw =>
    cases read : Header.read (raw.take receiveBufferSize) with
    | error e =>
      have skips (f : LiveFeed) : f.step (.datagram raw) = ⟨f, some .skipped, []⟩ := by
        simp only [step, accept, read]
      rw [skips, skips]
      exact ⟨m, rfl, rfl⟩
    | ok h =>
      let k : Packet := ⟨h, raw.take receiveBufferSize⟩
      have works (f : LiveFeed) : f.step (.datagram raw) =
          ⟨⟨(f.tracker.track h).2, (f.pipeline.process k.header k.raw).pipeline, f.packets + 1⟩,
            some (.processed (f.pipeline.process k.header k.raw).report),
            ((f.tracker.track h).1.event? h.session).toList ++
              (f.pipeline.process k.header k.raw).events⟩ := by
        simp only [step, accept, read, k]
      obtain ⟨behind, report⟩ := Pipeline.mirrorsProcess m.pipeline k
      rw [works, works, Pipeline.mirrorsEvents m.pipeline k, report, m.tracker, m.packets,
        seenAppend]
      refine ⟨⟨rfl, rfl, behind⟩, ?_, rfl⟩
      cases (f.tracker.track h).1 <;> rfl

theorem stepReports (f : LiveFeed) (r : Reception) :
    (f.step r).status =
      (f.step r).status.map (.reporting ((f.step r).events.countP FeedEvent.isMessage)) := by
  cases r with
  | failure => rfl
  | datagram raw =>
    cases read : Header.read (raw.take receiveBufferSize) with
    | error e => simp only [step, accept, read, Option.map_some, PacketStatus.reporting]
    | ok h =>
      let k : Packet := ⟨h, raw.take receiveBufferSize⟩
      have silent :
          ((f.tracker.track h).1.event? h.session).toList.countP FeedEvent.isMessage = 0 := by
        cases (f.tracker.track h).1 <;> rfl
      have reported := f.pipeline.processReported k
      simp only [step, accept, read, List.countP_append, silent, Nat.zero_add, Option.map_some,
        PacketStatus.reporting, k] at reported ⊢
      rw [← reported]

theorem mirrorsListen (m : Mirrors view f g) (script : List Reception) :
    Mirrors view (f.listen script).feed (g.listen script).feed ∧
      (g.listen script).events = seen view (f.listen script).events ∧
      (g.listen script).returned = (f.listen script).returned := by
  induction script generalizing f g with
  | nil => exact ⟨m, rfl, rfl⟩
  | cons r rest ih =>
    obtain ⟨behind, events, status⟩ := mirrorsStep m r
    rw [listen, listen, stopsUnreported status]
    cases stops : (f.step r).stops with
    | true =>
      rw [if_pos rfl, if_pos rfl, stop, stop, mirrorsSummary behind, events]
      dsimp only
      rw [seenAppend]
      exact ⟨behind, rfl, rfl⟩
    | false =>
      obtain ⟨feed, later, returned⟩ := ih behind
      rw [if_neg Bool.false_ne_true, if_neg Bool.false_ne_true, events, later, ← seenAppend]
      exact ⟨feed, rfl, returned⟩

theorem mirrorsSteps {alike : LiveStep → LiveStep → Prop}
    (each : ∀ {f g : LiveFeed}, f.Mirrors view g → ∀ r, alike (f.step r) (g.step r))
    (m : Mirrors view f g) (script : List Reception) :
    List.Forall₂ alike (f.steps script) (g.steps script) := by
  induction script generalizing f g with
  | nil => exact .nil
  | cons r rest ih => exact .cons (each m r) (ih (mirrorsStep m r).1)

theorem mirrorsRun (m : Mirrors view f g) (script : List Reception) :
    Mirrors view (f.run script).feed (g.run script).feed ∧
      (g.run script).events = seen view (f.run script).events ∧
      (g.run script).returned = (f.run script).returned := by
  rw [run, run, Pipeline.mirrorsCapReached m.pipeline]
  split
  · rw [stop, stop, mirrorsSummary m]
    exact ⟨m, rfl, rfl⟩
  · exact mirrorsListen m script

end LiveFeed

def DecodedMessage.described (table : Table) (m : DecodedMessage) : DecodedMessage :=
  { m with spec := (typeTag m.body).bind table.get? }

def FeedEvent.described (table : Table) : FeedEvent → FeedEvent
  | .message session sequence m => .message session sequence (m.described table)
  | e => e

def FeedEvent.admitted (filter : Option TypeFilter) : FeedEvent → Bool
  | .message _ _ m => admits filter m.body
  | _ => true

namespace Pipeline

def filtered (p : Pipeline) (filter : Option TypeFilter) : Pipeline := { p with filter := filter }

def described (p : Pipeline) (table : Table) : Pipeline := { p with table := table }

theorem filteredMirrors (p : Pipeline) (filter : Option TypeFilter) :
    Mirrors (Option.guard fun m => admits filter m.body) (p.filtered none) (p.filtered filter) where
  cap := rfl
  processed := rfl
  shows := by
    intro body
    rw [shown, shown, passesAdmits, passesAdmits]
    rfl

theorem describedMirrors (p : Pipeline) (table : Table) :
    Mirrors (fun m => some (m.described table)) p (p.described table) where
  cap := rfl
  processed := rfl
  shows := by
    intro body
    have same : (p.described table).passes body = p.passes body := rfl
    rw [shown, shown, same]
    cases p.passes body <;> rfl

end Pipeline

theorem seenFiltered (filter : Option TypeFilter) :
    seen (Option.guard fun m => admits filter m.body) =
      List.filter (FeedEvent.admitted filter) := by
  funext events
  rw [seen, ← List.filterMap_eq_filter]
  congr 1
  funext e
  cases e with
  | message session sequence m =>
    cases passed : admits filter m.body <;>
      simp [FeedEvent.seen?, FeedEvent.admitted, Option.guard, passed]
  | _ => rfl

theorem seenDescribed (table : Table) :
    seen (fun m => some (m.described table)) = List.map (FeedEvent.described table) := by
  funext events
  rw [seen, ← List.filterMap_eq_map]
  congr 1
  funext e
  cases e <;> rfl

end MarketFeed
