import MarketFeed.Pipeline

/-!
Events as short journal entries, without line breaks of their own, and the two layouts that recorded
runs are made with.
-/
namespace MarketFeed

namespace Journal

def statusName : DecodeStatus → String
  | .complete => "Complete"
  | .truncated _ _ => "Truncated"
  | .unknown => "Unknown"

def tagName (body : Bytes) : Char :=
  match typeTag body with
  | some tag => latin1 tag
  | none => '?'

def entry : FeedEvent → String
  | .message _ sequence m => s!"msg {sequence} {tagName m.body} {statusName m.status}"
  | .sessionChange previous current sequence => s!"session {previous}->{current} at {sequence}"
  | .gap _ expected received missing =>
    s!"gap expected={expected} received={received} missing={missing}"
  | .duplicate _ expected received => s!"dup expected={expected} received={received}"
  | .endOfSession _ sequence => s!"eos {sequence}"
  | .frameOverrun _ sequence skipped => s!"overrun {sequence} skipped={skipped}"
  | .sessionAcquired session sequence => s!"acquired {session} at {sequence}"
  | .chunkRequested _ start count => s!"request {start} {count}"
  | .replyTimeout start count attempt => s!"timeout start={start} count={count} attempt={attempt}"
  | .chunkFinished start requested received =>
    s!"finished {start} requested={requested} received={received}"
  | .stalled sequence remaining bounded =>
    s!"stalled {sequence} remaining={remaining} bounded={bounded}"
  | .capReached decoded => s!"cap decoded={decoded}"

def sampleSpec (tag : UInt8) (name : String) : MessageSpec :=
  ⟨tag, name, 5, [⟨"Type", .char, 1, 0⟩, ⟨"Value", .uint32, 4, 1⟩]⟩

def sampleTable : Table := ⟨[sampleSpec 0x41 "Add", sampleSpec 0x42 "Bump"]⟩

end Journal
end MarketFeed
