import Mathlib.Data.List.Forall2
import MarketFeed.Proofs.Text.Lines

/-! What a console prints, line by line. Under a table whose names have no line break and that has no
layout for one, the bytes of a session or a message cannot break a line: an event is one line, and only
a shown character or text can break the entry of a field. -/
namespace MarketFeed
open Text

structure Table.Unbroken (table : Table) : Prop where
  named : ∀ spec ∈ table.specs, Text.Unbroken spec.name
  fields : ∀ spec ∈ table.specs, ∀ f ∈ spec.fields, Text.Unbroken f.name
  free : table.get? 0x0A = none

namespace FeedEvent

def Under (table : Table) : FeedEvent → Prop
  | message _ _ m => m = decodeMessage m.body table
  | _ => True

def finishes : FeedEvent → Bool
  | chunkFinished .. => true
  | _ => false

end FeedEvent

namespace FieldValue

inductive Textual : FieldValue → Prop where
  | char {c} : Textual (.char c)
  | text {raw} : Textual (.text raw)

theorem shownUnbroken {value : FieldValue} (plain : ¬ value.Textual) : Unbroken value.shown := by
  cases value with
  | char c => exact absurd .char plain
  | unsigned n => exact unbrokenNat n
  | signed n => exact unbrokenInt n
  | text raw => exact absurd .text plain
  | binary raw => exact unbrokenHex raw

end FieldValue

inductive Decoded (m : DecodedMessage) : Prop where
  | unknown (layout : m.spec = none) (status : m.status = .unknown) (fields : m.fields = [])
  | complete {spec} (layout : m.spec = some spec) (status : m.status = .complete)
      (fields : m.fields.map DecodedField.spec = spec.fields)
  | truncated {spec k length} (layout : m.spec = some spec) (status : m.status = .truncated k length)
      (inside : k < spec.fields.length)
      (fields : m.fields.map DecodedField.spec = spec.fields.take k)

structure Entry (f : DecodedField) (text : String) : Prop where
  shown : ∃ front, Unbroken front ∧ text = front ++ f.value.shown ++ "\n"
  breaks : text.toList.count '\n' = f.value.shown.toList.count '\n' + 1
  textual : '\n' ∈ f.value.shown.toList → f.value.Textual

inductive Brief : FeedEvent → String → Prop where
  | finished {event} (finishes : event.finishes = true) : Brief event ""
  | line {event text} (goesOn : event.finishes = false) (line : OneLine text) : Brief event text

structure Summary (m : DecodedMessage) (text : String) : Prop where
  line : OneLine text
  status : ∃ front, text = front ++ Console.cutText m.status ++ "\n"

inductive Full : FeedEvent → String → Prop where
  | message {session sequence m headline entries} (summary : Summary m headline)
      (decoded : Decoded m) (shown : List.Forall₂ Entry m.fields entries) :
      Full (.message session sequence m) (headline ++ String.join entries)
  | event {event text} (other : ∀ session sequence m, event ≠ .message session sequence m)
      (line : OneLine text) : Full event text

namespace DecodedMessage

theorem readSpecs (body : Bytes) (fields : List FieldSpec) :
    (readFields body.toArray fields).map DecodedField.spec =
      match fields.findIdx? fun f => body.length < f.stop with
      | some k => fields.take k
      | none => fields := by
  induction fields with
  | nil => rfl
  | cons f rest ih =>
    by_cases fit : f.stop ≤ body.length
    · cases found : rest.findIdx? fun f => body.length < f.stop <;>
        simp [readFields, sliceWithin fit, List.findIdx?_cons, Nat.not_lt_of_le fit, found, ih]
    · have wide := Nat.lt_of_not_le fit
      simp [readFields, sliceBeyond wide, List.findIdx?_cons, wide]

theorem decoded (m : DecodedMessage) : Decoded m := by
  obtain ⟨body, _ | spec⟩ := m
  · exact .unknown rfl rfl rfl
  · have fields := readSpecs body spec.fields
    cases found : spec.fields.findIdx? fun f => body.length < f.stop with
    | none =>
      rw [found] at fields
      exact .complete rfl (by simp [status, found]) fields
    | some k =>
      rw [found] at fields
      have inside := (List.findIdx?_eq_some_iff_getElem.mp found).1
      have status : status ⟨body, some spec⟩ = .truncated k (body.length % 0x10000) := by
        simp [status, found]
      exact .truncated rfl status inside fields

end DecodedMessage

namespace Console

theorem paddedUnbroken (width : Nat) {text : String} (unbroken : Unbroken text) :
    Unbroken (padded width text) := by
  simpa [padded, Unbroken] using unbroken

theorem entryShown {f : DecodedField} (named : Unbroken f.spec.name) : Entry f (fieldEntry f) := by
  let front := "    " ++ padded nameWidth f.spec.name ++ " "
  have unbroken : Unbroken front := by
    simp +decide [front, paddedUnbroken nameWidth named]
  have text : fieldEntry f = front ++ f.value.shown ++ "\n" := rfl
  refine ⟨⟨front, unbroken, text⟩, ?_, ?_⟩
  · rw [text, String.toList_append, String.toList_append, List.count_append, List.count_append,
      List.count_eq_zero.mpr unbroken, Nat.zero_add]
    rfl
  · intro broken
    exact Classical.not_not.mp fun plain => FieldValue.shownUnbroken plain broken

@[simp] theorem cutUnbroken (status : DecodeStatus) : Unbroken (cutText status) := by
  cases status with
  | truncated field length =>
    show Unbroken (" TRUNCATED at field " ++ toString field)
    simp +decide
  | complete => decide
  | unknown => decide

@[simp] theorem tagUnbroken (tag : Option UInt8) : Unbroken (tagText tag) := by
  cases tag with
  | none => decide
  | some tag => simp +decide [tagText]

theorem summaryOf {m : DecodedMessage} {front : String} (unbroken : Unbroken front) :
    Summary m (front ++ cutText m.status ++ "\n") :=
  ⟨oneLineBehind (unbrokenAppend.mpr ⟨unbroken, cutUnbroken m.status⟩) lineBreak, front, rfl⟩

theorem unknownSummary (sequence : UInt64) (body : Bytes) :
    Summary ⟨body, none⟩ (headline sequence ⟨body, none⟩) := by
  have line (front : String) (unbroken : Unbroken front) : Summary ⟨body, none⟩ (front ++ "\n") := by
    have summary := summaryOf (m := ⟨body, none⟩) unbroken
    rwa [show cutText (DecodedMessage.status ⟨body, none⟩) = "" from rfl, String.append_empty] at summary
  cases body <;> exact line _ (by simp +decide)

theorem knownSummary {spec : MessageSpec} (named : Unbroken spec.name) {tag : UInt8}
    (other : tag ≠ 0x0A) (sequence : UInt64) (rest : Bytes) :
    Summary ⟨tag :: rest, some spec⟩ (headline sequence ⟨tag :: rest, some spec⟩) :=
  summaryOf (by simp +decide [latin1Unbroken other, named])

theorem decodedSummary {table : Table} (unbroken : table.Unbroken) (sequence : UInt64) (body : Bytes) :
    Summary (decodeMessage body table) (headline sequence (decodeMessage body table)) := by
  cases body with
  | nil => exact unknownSummary sequence []
  | cons tag rest =>
    cases layout : table.get? tag with
    | none =>
      rw [decodedFirst layout]
      exact unknownSummary sequence (tag :: rest)
    | some spec =>
      have other : tag ≠ 0x0A := by
        rintro rfl
        rw [unbroken.free] at layout
        contradiction
      rw [decodedFirst layout]
      exact knownSummary (unbroken.named spec (List.mem_of_find?_eq_some layout)) other sequence rest

theorem fieldNamed {table : Table} (unbroken : table.Unbroken) (body : Bytes) :
    ∀ f ∈ (decodeMessage body table).fields, Unbroken f.spec.name := by
  intro f member
  have among : f.spec ∈ (decodeMessage body table).fields.map DecodedField.spec :=
    List.mem_map_of_mem member
  have named {spec : MessageSpec} (layout : (decodeMessage body table).spec = some spec)
      (inside : f.spec ∈ spec.fields) : Unbroken f.spec.name := by
    obtain ⟨tag, first, found⟩ := Option.bind_eq_some_iff.mp layout
    exact unbroken.fields spec (List.mem_of_find?_eq_some found) f.spec inside
  cases (decodeMessage body table).decoded with
  | unknown layout status fields =>
    rw [fields] at member
    contradiction
  | complete layout status fields =>
    rw [fields] at among
    exact named layout among
  | truncated layout status inside fields =>
    rw [fields] at among
    exact named layout (List.mem_of_mem_take among)

theorem eventLine (c : Console) {event : FeedEvent}
    (other : ∀ session sequence m, event ≠ .message session sequence m)
    (shown : event.finishes = true → c.verbose = true) : OneLine (c.text event) := by
  cases event with
  | message session sequence m => exact absurd rfl (other session sequence m)
  | sessionChange => exact oneLineBehind (by simp +decide) lineBreak
  | gap => exact oneLineBehind (by simp +decide) lineBreak
  | duplicate => exact oneLineBehind (by simp +decide) lineBreak
  | endOfSession => exact oneLineBehind (by simp +decide) lineBreak
  | frameOverrun => exact oneLineBehind (by simp +decide) lineBreak
  | sessionAcquired => exact oneLineBehind (by simp +decide) ⟨")", by decide, by decide⟩
  | chunkRequested => exact oneLineBehind (by simp +decide) lineBreak
  | replyTimeout => exact oneLineBehind (by simp +decide) lineBreak
  | chunkFinished start requested received =>
    show OneLine (if c.verbose then _ else "")
    rw [if_pos (shown rfl)]
    exact oneLineBehind (by simp +decide) lineBreak
  | stalled sequence remaining bounded =>
    cases bounded with
    | true =>
      exact oneLineBehind (by simp +decide) ⟨" messages not recovered", by decide, by decide⟩
    | false => exact oneLineBehind (by simp +decide) lineBreak
  | capReached => exact oneLineBehind (by simp +decide) ⟨" messages", by decide, by decide⟩

theorem messageOrOther (event : FeedEvent) :
    (∃ session sequence m, event = .message session sequence m) ∨
      ∀ session sequence m, event ≠ .message session sequence m := by
  cases event <;> simp

theorem briefText {table : Table} (unbroken : table.Unbroken) {event : FeedEvent}
    (under : event.Under table) : Brief event (text ⟨false⟩ event) := by
  cases finishes : event.finishes with
  | true =>
    cases event with
    | chunkFinished => exact .finished rfl
    | _ => contradiction
  | false =>
    refine .line finishes ?_
    rcases messageOrOther event with ⟨session, sequence, m, rfl⟩ | other
    · have decoded : m = decodeMessage m.body table := under
      show OneLine (headline sequence m ++ "")
      rw [String.append_empty, decoded]
      exact (decodedSummary unbroken sequence m.body).line
    · exact eventLine ⟨false⟩ other (by simp [finishes])

theorem fullText {table : Table} (unbroken : table.Unbroken) {event : FeedEvent}
    (under : event.Under table) : Full event (text ⟨true⟩ event) := by
  rcases messageOrOther event with ⟨session, sequence, m, rfl⟩ | other
  · have decoded : m = decodeMessage m.body table := under
    have entries : List.Forall₂ Entry m.fields (m.fields.map fieldEntry) := by
      rw [decoded]
      exact List.forall₂_map_right_iff.mpr (List.forall₂_same.mpr fun f member =>
        entryShown (fieldNamed unbroken m.body f member))
    refine .message ?_ m.decoded entries
    rw [decoded]
    exact decodedSummary unbroken sequence m.body
  · exact .event other (eventLine ⟨true⟩ other fun _ => rfl)

theorem transcriptTexts (c : Console) {shows : FeedEvent → String → Prop} {events : List FeedEvent}
    (each : ∀ event ∈ events, shows event (c.text event)) :
    ∃ texts, c.transcript events = String.join texts ∧ List.Forall₂ shows events texts :=
  ⟨events.map c.text, rfl, List.forall₂_map_right_iff.mpr (List.forall₂_same.mpr each)⟩

end Console

theorem briefBreaks {events : List FeedEvent} {texts : List String}
    (brief : List.Forall₂ Brief events texts) :
    (String.join texts).toList.count '\n' = (events.filter (!·.finishes)).length := by
  induction brief with
  | nil => rfl
  | cons first later ih =>
    rw [String.join_cons, String.toList_append, List.count_append, ih]
    cases first with
    | finished finishes => simp [finishes]
    | line goesOn line => simp [goesOn, oneLineCount line, Nat.add_comm]

theorem consoleLines {table : Table} (unbroken : table.Unbroken) {events : List FeedEvent}
    (under : ∀ event ∈ events, event.Under table) :
    (∃ texts, Console.transcript ⟨false⟩ events = String.join texts ∧
      List.Forall₂ Brief events texts) ∧
    (Console.transcript ⟨false⟩ events).toList.count '\n' = (events.filter (!·.finishes)).length ∧
    ∃ texts, Console.transcript ⟨true⟩ events = String.join texts ∧ List.Forall₂ Full events texts := by
  obtain ⟨texts, printed, brief⟩ :=
    Console.transcriptTexts ⟨false⟩ fun event member => Console.briefText unbroken (under event member)
  refine ⟨⟨texts, printed, brief⟩, ?_, ?_⟩
  · rw [printed, briefBreaks brief]
  · exact Console.transcriptTexts ⟨true⟩ fun event member => Console.fullText unbroken (under event member)

/- A session with a line break in it, a message with one in a text and one more byte that is cut off, and
a message whose type byte is one. -/
theorem consoleLinesHostile :
    let spec : MessageSpec := ⟨0x41, "Add", 6, [⟨"Stock", .text, 3, 1⟩, ⟨"Size", .uint16, 2, 4⟩]⟩
    let table : Table := ⟨[spec]⟩
    let session : Session := ⟨[0x0A, 0x0D, 0x41, 0x42, 0x43, 0x44, 0x45, 0x46, 0x47, 0x0A], rfl⟩
    let events : List FeedEvent := [.sessionAcquired session 1,
      .message session 1 (decodeMessage [0x41, 0x0A, 0x0A, 0x42, 0] table),
      .message session 2 (decodeMessage [0x0A] table), .chunkFinished 1 2 2]
    (∀ event ∈ events, event.Under table) ∧
      (Console.transcript ⟨false⟩ events).toList.count '\n' = 3 := by
  intro spec table session events
  have unbroken : table.Unbroken := ⟨by decide, by decide, by decide⟩
  have under : ∀ event ∈ events, event.Under table := by
    simp [events, FeedEvent.Under, decodeMessage]
  exact ⟨under, (consoleLines unbroken under).2.1⟩

end MarketFeed
