import Mathlib
import MarketFeed.Proofs.Packet.Grammar

/-! Calls to a cursor and to an iterator over the same packet, any number of them, those behind a fault
included. Neither moves again once a call has brought no frame: the cursor answers as before, the iterator
nothing more. Where the cursor stands follows from the frames it gave, and the packet bounds it. -/
namespace MarketFeed

def frame? : Except FrameFault (Option Bytes) → Option Bytes
  | .ok frame => frame
  | .error _ => none

def fault? : Except FrameFault (Option Bytes) → Option FrameFault
  | .ok _ => none
  | .error fault => some fault

theorem framedSizeBehind (bodies : List Bytes) (body : Bytes) :
    framedSize (bodies ++ [body]) = framedSize bodies + lengthSize + body.length := by
  induction bodies with
  | nil => simp [framedSize]
  | cons first rest ih =>
    rw [List.cons_append, framedSize, ih, framedSize]
    omega

theorem framedSizeSum (bodies : List Bytes) :
    framedSize bodies = lengthSize * bodies.length + (bodies.map List.length).sum := by
  induction bodies with
  | nil => rfl
  | cons body rest ih =>
    rw [framedSize, ih, List.length_cons, List.map_cons, List.sum_cons, Nat.mul_succ]
    omega

namespace Framing

theorem answersAfter (f : Framing) (calls : Nat) :
    f.answers calls = (List.range calls).map fun n => (f.after n).next.1 := by
  induction calls generalizing f with
  | zero => rfl
  | succ calls ih =>
    rw [answers, ih, List.range_succ_eq_map, List.map_cons, List.map_map]
    rfl

end Framing

namespace FrameCursor

variable {packet : Bytes} {c : FrameCursor}

inductive Called (packet : Bytes) (c : FrameCursor) :
    Except FrameFault (Option Bytes) × FrameCursor → Prop where
  | ended (spent : c.remaining = 0) : Called packet c (.ok none, c)
  | cut {fault} (wanted : c.remaining ≠ 0)
      (broken : readFrame c.offset (packet.drop c.offset) = .error fault) :
      Called packet c (.error fault, c)
  | moved {body rest} (wanted : c.remaining ≠ 0)
      (read : readFrame c.offset (packet.drop c.offset) = .ok (body, rest)) :
      Called packet c
        (.ok (some body), ⟨c.offset + lengthSize + body.length, c.remaining - 1⟩)

theorem called (packet : Bytes) (c : FrameCursor) : Called packet c (c.call packet) := by
  unfold call
  split
  · exact .ended (by assumption)
  · cases read : readFrame c.offset (packet.drop c.offset) with
    | error fault => exact .cut (by assumption) read
    | ok got => exact .moved (by assumption) read

theorem callStays (silent : frame? (c.call packet).1 = none) : (c.call packet).2 = c := by
  have does := called packet c
  generalize c.call packet = got at silent does
  cases does with
  | ended => rfl
  | cut => rfl
  | moved => contradiction

def after (c : FrameCursor) (packet : Bytes) (calls : Nat) : FrameCursor :=
  (fun c => (c.call packet).2)^[calls] c

def answer (c : FrameCursor) (packet : Bytes) (calls : Nat) : Except FrameFault (Option Bytes) :=
  ((c.after packet calls).call packet).1

theorem afterNext (c : FrameCursor) (packet : Bytes) (calls : Nat) :
    c.after packet (calls + 1) = ((c.after packet calls).call packet).2 :=
  Function.iterate_succ_apply' _ _ _

theorem afterSilent {calls : Nat} (silent : frame? (c.answer packet calls) = none) (later : Nat) :
    c.after packet (calls + later) = c.after packet calls := by
  rw [after, Nat.add_comm, Function.iterate_add_apply]
  exact Function.iterate_fixed (callStays silent) later

theorem answersAgain {calls : Nat} (silent : frame? (c.answer packet calls) = none) (later : Nat) :
    c.answer packet (calls + later) = c.answer packet calls := by
  rw [answer, afterSilent silent, answer]

def ahead (c : FrameCursor) (packet : Bytes) : Framing :=
  .split c.remaining c.offset (packet.drop c.offset)

theorem aheadSpent (spent : c.remaining = 0) : c.ahead packet = .complete := by
  rw [ahead, spent, Framing.split]

theorem aheadCut (wanted : c.remaining ≠ 0) {fault : FrameFault}
    (broken : readFrame c.offset (packet.drop c.offset) = .error fault) :
    c.ahead packet = .broken fault c.remaining := by
  obtain ⟨left, more⟩ := Nat.exists_eq_succ_of_ne_zero wanted
  rw [ahead, more, Nat.succ_eq_add_one, Framing.split, broken]

theorem aheadMoved (wanted : c.remaining ≠ 0) {body rest : Bytes}
    (read : readFrame c.offset (packet.drop c.offset) = .ok (body, rest)) :
    c.ahead packet =
      .frame body (ahead ⟨c.offset + lengthSize + body.length, c.remaining - 1⟩ packet) := by
  have behind : packet.drop (c.offset + lengthSize + body.length) = rest := by
    rw [Nat.add_assoc, ← writeFrameLength, ← List.drop_drop, (readFrameTaken read).2, List.drop_left]
  obtain ⟨left, more⟩ := Nat.exists_eq_succ_of_ne_zero wanted
  rw [ahead, ahead, behind, more, Nat.succ_eq_add_one, Framing.split, read]
  rfl

theorem aheadNext (c : FrameCursor) (packet : Bytes) :
    (c.ahead packet).next = (frame? (c.call packet).1, (c.call packet).2.ahead packet) := by
  have does := called packet c
  generalize c.call packet = got at does
  cases does with
  | ended spent =>
    rw [aheadSpent spent]
    rfl
  | cut wanted broken =>
    rw [aheadCut wanted broken]
    rfl
  | moved wanted read =>
    rw [aheadMoved wanted read]
    rfl

theorem aheadAfter (c : FrameCursor) (packet : Bytes) (calls : Nat) :
    (c.after packet calls).ahead packet = (c.ahead packet).after calls := by
  induction calls generalizing c with
  | zero => rfl
  | succ calls ih =>
    rw [after, Function.iterate_succ_apply, Framing.after, aheadNext]
    exact ih _

theorem aheadAnswer (c : FrameCursor) (packet : Bytes) (calls : Nat) :
    frame? (c.answer packet calls) = ((c.ahead packet).after calls).next.1 := by
  rw [← aheadAfter, aheadNext, answer]

theorem aheadSilent (silent : frame? (c.call packet).1 = none) :
    (c.ahead packet).fault = fault? (c.call packet).1 ∧ (c.ahead packet).lost = c.remaining := by
  have does := called packet c
  generalize c.call packet = got at silent does
  cases does with
  | ended spent =>
    rw [aheadSpent spent]
    exact ⟨rfl, spent.symm⟩
  | cut wanted broken =>
    rw [aheadCut wanted broken]
    exact ⟨rfl, rfl⟩
  | moved => contradiction

structure Reached (packet : Bytes) (bodies : List Bytes) (c : FrameCursor) : Prop where
  place : c.offset = headerSize + framedSize bodies
  within : c.offset ≤ max headerSize packet.length
  fit : ∀ body ∈ bodies, body.length ≤ 0xFFFF

theorem startReached (packet : Bytes) (h : Header) : Reached packet [] (start h) :=
  ⟨rfl, Nat.le_max_left _ _, fun _ => nofun⟩

theorem reachedNext {bodies : List Bytes} (reached : Reached packet bodies c) :
    Reached packet (bodies ++ (frame? (c.call packet).1).toList) (c.call packet).2 := by
  have does := called packet c
  generalize c.call packet = got at does
  cases does with
  | ended => simpa [frame?] using reached
  | cut => simpa [frame?] using reached
  | @moved body rest _ read =>
    obtain ⟨small, front⟩ := readFrameTaken read
    have room := congrArg List.length front
    rw [List.length_drop, List.length_append, writeFrameLength, lengthSize] at room
    have place := reached.place
    refine ⟨?_, ?_, ?_⟩
    · simp only [frame?, Option.toList_some, framedSizeBehind]
      omega
    · simp only [lengthSize]
      omega
    · intro other member
      simp only [frame?, Option.toList_some, List.mem_append, List.mem_singleton] at member
      rcases member with given | rfl
      · exact reached.fit other given
      · exact small

end FrameCursor

namespace FrameIterator

variable {packet : Bytes} {i : FrameIterator} {c : FrameCursor}

def after (i : FrameIterator) (calls : Nat) : FrameIterator := (fun i => i.next.2)^[calls] i

def answer (i : FrameIterator) (calls : Nat) : Option Bytes := (i.after calls).next.1

def yields (i : FrameIterator) (calls : Nat) : List Bytes := (List.range calls).filterMap i.answer

theorem afterNext (i : FrameIterator) (calls : Nat) :
    i.after (calls + 1) = (i.after calls).next.2 :=
  Function.iterate_succ_apply' _ _ _

theorem yieldsNext (i : FrameIterator) (calls : Nat) :
    i.yields (calls + 1) = i.yields calls ++ (i.answer calls).toList := by
  rw [yields, List.range_succ, List.filterMap_append, yields]
  cases found : i.answer calls <;> simp [found]

/- An iterator beside a cursor that was called as often. A fault that it kept is one that the cursor would
answer again. -/
structure Mirrors (packet : Bytes) (i : FrameIterator) (c : FrameCursor) : Prop where
  same : i.packet = packet
  cursor : i.cursor = c
  overrun : ∀ fault, i.overrun = some fault → (c.call packet).1 = .error fault

theorem nextGoing (going : i.overrun = none) :
    i.next = (frame? (i.cursor.call i.packet).1,
      ⟨i.packet, (i.cursor.call i.packet).2, fault? (i.cursor.call i.packet).1⟩) := by
  rw [next, going]
  rcases i.cursor.call i.packet with ⟨_ | _, _⟩ <;> simp [frame?, fault?]

theorem mirrorsNext (mirrors : Mirrors packet i c) :
    i.next.1 = frame? (c.call packet).1 ∧ i.next.2.overrun = fault? (c.call packet).1 ∧
      Mirrors packet i.next.2 (c.call packet).2 := by
  obtain ⟨rfl, rfl, kept⟩ := mirrors
  cases stopped : i.overrun with
  | some fault =>
    have again := kept fault stopped
    have stays : (i.cursor.call i.packet).2 = i.cursor :=
      FrameCursor.callStays (by rw [again, frame?])
    have next : i.next = (none, i) := by simp [next, stopped]
    rw [next, again, stays]
    exact ⟨rfl, stopped, rfl, rfl, kept⟩
  | none =>
    rw [nextGoing stopped]
    refine ⟨rfl, rfl, rfl, rfl, ?_⟩
    intro fault found
    cases answered : (i.cursor.call i.packet).1 with
    | ok frame => simp [answered, fault?] at found
    | error cut =>
      have stays : (i.cursor.call i.packet).2 = i.cursor :=
        FrameCursor.callStays (by rw [answered, frame?])
      simp only [answered, fault?, Option.some.injEq] at found
      rw [stays, answered, found]

theorem mirrorsAfter (packet : Bytes) (h : Header) (calls : Nat) :
    Mirrors packet ((start packet h).after calls) ((FrameCursor.start h).after packet calls) := by
  induction calls with
  | zero => exact ⟨rfl, rfl, fun _ => nofun⟩
  | succ calls ih =>
    rw [afterNext, FrameCursor.afterNext]
    exact (mirrorsNext ih).2.2

theorem answerMirrored (packet : Bytes) (h : Header) (calls : Nat) :
    (start packet h).answer calls = frame? ((FrameCursor.start h).answer packet calls) :=
  (mirrorsNext (mirrorsAfter packet h calls)).1

theorem overrunMirrored (packet : Bytes) (h : Header) (calls : Nat) :
    ((start packet h).after (calls + 1)).overrun =
      fault? ((FrameCursor.start h).answer packet calls) := by
  rw [afterNext]
  exact (mirrorsNext (mirrorsAfter packet h calls)).2.1

theorem unstopped {packet : Bytes} {h : Header} {calls : Nat} {frame : Option Bytes}
    (answered : (FrameCursor.start h).answer packet calls = .ok frame) :
    ((start packet h).after calls).overrun = none := by
  cases stopped : ((start packet h).after calls).overrun with
  | none => rfl
  | some fault =>
    have again := (mirrorsAfter packet h calls).overrun fault stopped
    rw [FrameCursor.answer, again] at answered
    contradiction

theorem yieldsReached (packet : Bytes) (h : Header) (calls : Nat) :
    FrameCursor.Reached packet ((start packet h).yields calls)
      ((FrameCursor.start h).after packet calls) := by
  induction calls with
  | zero => exact FrameCursor.startReached packet h
  | succ calls ih =>
    rw [yieldsNext, answerMirrored, FrameCursor.afterNext]
    exact FrameCursor.reachedNext ih

theorem answersFrames (packet : Bytes) (h : Header) (calls : Nat) :
    (List.range calls).map (start packet h).answer = (frames packet h).answers calls := by
  rw [Framing.answersAfter]
  refine List.map_congr_left fun n _ => ?_
  rw [answerMirrored, FrameCursor.aheadAnswer]
  rfl

theorem exhausted {packet : Bytes} {h : Header} {calls : Nat}
    (past : (frames packet h).bodies.length < calls) :
    ((start packet h).after calls).overrun = (frames packet h).fault ∧
      ((start packet h).after calls).remaining = (frames packet h).lost := by
  obtain ⟨more, rfl⟩ := Nat.exists_eq_add_of_lt past
  have whole : (FrameCursor.start h).ahead packet = frames packet h := rfl
  obtain ⟨fault, lost⟩ := (frames packet h).afterBodies more
  rw [← whole, ← FrameCursor.aheadAfter, whole] at fault lost
  have silent : frame? ((FrameCursor.start h).answer packet
      ((frames packet h).bodies.length + more)) = none := by
    rw [FrameCursor.aheadAnswer, whole, Framing.afterDrained, Framing.drainedNext]
  obtain ⟨last, left⟩ := FrameCursor.aheadSilent silent
  have stays := FrameCursor.afterSilent silent 1
  refine ⟨?_, ?_⟩
  · rw [overrunMirrored, ← fault, last]
    rfl
  · rw [remaining, (mirrorsAfter packet h _).cursor, stays, ← lost, left]

end FrameIterator

structure InStep (packet : Bytes) (h : Header) (raw : FrameCursor) (walk : FrameIterator)
    (calls : Nat) : Prop where
  cursor : (walk.after calls).cursor = raw.after packet calls
  going : ∀ frame, raw.answer packet calls = .ok frame →
    walk.answer calls = frame ∧ (walk.after calls).overrun = none
  ended : raw.answer packet calls = .ok none → ∀ later,
    raw.answer packet (calls + later) = .ok none ∧
      raw.after packet (calls + later) = raw.after packet calls ∧
      walk.answer (calls + later) = none ∧ (walk.after (calls + later)).overrun = none
  failed : ∀ fault, raw.answer packet calls = .error fault → ∀ later,
    raw.answer packet (calls + later) = .error fault ∧
      raw.after packet (calls + later) = raw.after packet calls ∧
      walk.answer (calls + later) = none ∧
      (walk.after (calls + later + 1)).overrun = some fault
  framing : (List.range calls).map walk.answer = (frames packet h).answers calls
  exhausted : (frames packet h).bodies.length < calls →
    (walk.after calls).overrun = (frames packet h).fault ∧
      (walk.after calls).remaining = (frames packet h).lost

/- Where a cursor stands that gave these bodies. A packet takes at most half of the addresses there are,
and 32 bits or more make up an address, so that no place a call computes is too large for one. -/
structure Bounded (packet : Bytes) (bodies : List Bytes) (c : FrameCursor) : Prop where
  within : c.offset ≤ max 20 packet.length
  measured : 20 + (2 * bodies.length + (bodies.map List.length).sum) = c.offset
  addressed : ∀ bits, 32 ≤ bits → packet.length < 2 ^ (bits - 1) → ∀ declared ≤ 0xFFFF,
    c.offset + 2 + declared < 2 ^ bits
  lengths : ∀ body ∈ bodies, (declaredLength body).toNat = body.length
  few : bodies.length ≤ (packet.length - 20) / 2

theorem FrameCursor.Reached.bounded {packet : Bytes} {bodies : List Bytes} {c : FrameCursor}
    (reached : Reached packet bodies c) : Bounded packet bodies c := by
  have place := reached.place
  have within := reached.within
  rw [framedSizeSum] at place
  simp only [headerSize, lengthSize] at place within
  refine ⟨within, by omega, ?_, ?_, ?_⟩
  · intro bits wide small declared narrow
    have double : 2 ^ bits = 2 * 2 ^ (bits - 1) := by
      rw [← Nat.pow_succ', Nat.succ_eq_add_one, Nat.sub_add_cancel (by omega)]
    have large : 2 ^ 31 ≤ 2 ^ (bits - 1) := Nat.pow_le_pow_right (by decide) (by omega)
    omega
  · intro body member
    have small := reached.fit body member
    rw [declaredLength, UInt16.toNat_ofNat']
    exact Nat.mod_eq_of_lt (by omega)
  · rw [Nat.le_div_iff_mul_le (by decide)]
    omega

theorem walksInStep (packet : Bytes) (h : Header) (calls : Nat) :
    InStep packet h (.start h) (.start packet h) calls := by
  refine ⟨(FrameIterator.mirrorsAfter packet h calls).cursor, ?_, ?_, ?_,
    FrameIterator.answersFrames packet h calls, FrameIterator.exhausted⟩
  · intro frame answered
    rw [FrameIterator.answerMirrored, answered]
    exact ⟨rfl, FrameIterator.unstopped answered⟩
  · intro answered later
    have silent : frame? ((FrameCursor.start h).answer packet calls) = none := by
      rw [answered, frame?]
    have again := (FrameCursor.answersAgain silent later).trans answered
    rw [FrameIterator.answerMirrored, again]
    exact ⟨rfl, FrameCursor.afterSilent silent later, rfl, FrameIterator.unstopped again⟩
  · intro fault answered later
    have silent : frame? ((FrameCursor.start h).answer packet calls) = none := by
      rw [answered, frame?]
    have again := (FrameCursor.answersAgain silent later).trans answered
    rw [FrameIterator.answerMirrored, FrameIterator.overrunMirrored, again]
    exact ⟨rfl, FrameCursor.afterSilent silent later, rfl, rfl⟩

theorem walksAgree (packet : Bytes) (h : Header) (calls : Nat) :
    let raw := FrameCursor.start h
    let walk := FrameIterator.start packet h
    InStep packet h raw walk calls ∧ Bounded packet (walk.yields calls) (raw.after packet calls) :=
  ⟨walksInStep packet h calls, (FrameIterator.yieldsReached packet h calls).bounded⟩

/- Two of three announced frames are whole, the second of them empty, and half a length follows. -/
theorem walksAgreeHalfLength :
    let h : Header := ⟨⟨List.replicate 10 0x41, rfl⟩, 7, 3⟩
    let packet := h.write ++ [0, 1, 0x42, 0, 0, 1]
    let raw := FrameCursor.start h
    let walk := FrameIterator.start packet h
    raw.answer packet 1 = .ok (some []) ∧ raw.answer packet 2 = .error (.lengthCut 25) ∧
      (∀ later, raw.after packet (2 + later) = ⟨25, 1⟩ ∧ walk.answer (2 + later) = none) ∧
      Bounded packet (walk.yields 2) (raw.after packet 2) := by
  intro h packet raw walk
  have failed : raw.answer packet 2 = .error (.lengthCut 25) := by decide
  have place : raw.after packet 2 = ⟨25, 1⟩ := by decide
  have both := walksAgree packet h 2
  refine ⟨by decide, failed, fun later => ?_, both.2⟩
  obtain ⟨_, stays, nothing, _⟩ := both.1.failed _ failed later
  exact ⟨stays.trans place, nothing⟩

end MarketFeed
