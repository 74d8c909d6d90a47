import MarketFeed.Pipeline

/-!
Events as console text. Every event but the end of a chunk is one line; a verbose console also
shows the fields of a message, one entry each, and the ends of chunks. Only values and layout names
can put further line breaks into an entry.
-/
namespace MarketFeed

structure Console where
  verbose : Bool
  deriving DecidableEq, Repr

namespace Console

def nameWidth : Nat := 24

def padded (width : Nat) (text : String) : String :=
  text ++ String.ofList (List.replicate (width - text.toList.length) ' ')

def tagText : Option UInt8 → String
  | none => "none"
  | some tag => "0x" ++ String.ofList (upperHexOfByte tag)

def cutText : DecodeStatus → String
  | .truncated field _ => s!" TRUNCATED at field {field}"
  | .complete | .unknown => ""

def headline (sequence : UInt64) (m : DecodedMessage) : String :=
  match typeTag m.body, m.name? with
  | some tag, some name =>
    s!"[{sequence}] {latin1 tag} {name} len={m.body.length}{cutText m.status}\n"
  | tag, _ => s!"[{sequence}] UNKNOWN type={tagText tag} len={m.body.length}\n"

def fieldEntry (f : DecodedField) : String :=
  s!"    {padded nameWidth f.spec.name} {f.value.shown}\n"

def messageText (c : Console) (sequence : UInt64) (m : DecodedMessage) : String :=
  headline sequence m ++ (if c.verbose then String.join (m.fields.map fieldEntry) else "")

def text (c : Console) : FeedEvent → String
  | .message _ sequence m => c.messageText sequence m
  | .sessionChange previous current sequence =>
    s!"SESSION CHANGE {previous} -> {current} at seq {sequence}\n"
  | .gap session expected received missing =>
    s!"GAP session={session} expected={expected} received={received} missing={missing}\n"
  | .duplicate session expected received =>
    s!"DUPLICATE session={session} expected={expected} received={received}\n"
  | .endOfSession session sequence => s!"END OF SESSION {session} at seq {sequence}\n"
  | .frameOverrun session sequence skipped =>
    s!"MALFORMED session={session} seq={sequence} skipped={skipped}\n"
  | .sessionAcquired session sequence => s!"session {session} (live seq {sequence})\n"
  | .chunkRequested session start count =>
    s!"REQUEST session={session} seq={start} count={count}\n"
  | .replyTimeout start count attempt =>
    s!"TIMEOUT seq={start} count={count} attempt={attempt}\n"
  | .chunkFinished start requested received =>
    if c.verbose then s!"chunk seq={start} requested={requested} received={received}\n" else ""
  | .stalled sequence remaining true =>
    s!"STALLED at seq {sequence}, {remaining} messages not recovered\n"
  | .stalled sequence _ false => s!"END OF DATA at seq {sequence}\n"
  | .capReached decoded => s!"stopped after {decoded} messages\n"

/- What reaches an output. One that is closed takes nothing, and the event is lost without a word.
-/
def write (c : Console) (isOpen : Bool) (event : FeedEvent) : String :=
  if isOpen then c.text event else ""

def transcript (c : Console) (events : List FeedEvent) : String :=
  String.join (events.map c.text)

end Console
end MarketFeed
