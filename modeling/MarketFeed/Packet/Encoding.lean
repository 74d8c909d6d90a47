import MarketFeed.Packet.Framing

/-!
Packets written from messages. The count is checked before any length, and of the lengths the
first that does not fit two bytes is reported.
-/
namespace MarketFeed

inductive EncodeError where
  | tooManyMessages (count : Nat)
  | messageTooLong (length : Nat)
  deriving DecidableEq, Repr

def EncodeError.message : EncodeError → String
  | .tooManyMessages count => s!"{count} messages do not fit in one packet"
  | .messageTooLong length => s!"message of {length} bytes exceeds the 65535-byte frame limit"

def writeFrame (body : Bytes) : Bytes := be 2 body.length ++ body

def writeFrames : List Bytes → Except EncodeError Bytes
  | [] => .ok []
  | body :: rest =>
    if 0xFFFF < body.length then .error (.messageTooLong body.length)
    else (writeFrames rest).map (writeFrame body ++ ·)

/- The count 65535 is taken by the end of the session, so a packet holds one message less. -/
def maxMessages : Nat := 0xFFFE

def encodePacket (session : Session) (sequence : UInt64) (messages : List Bytes) :
    Except EncodeError Bytes :=
  if maxMessages < messages.length then .error (.tooManyMessages messages.length)
  else
    (writeFrames messages).map
      ((Header.write ⟨session, sequence, UInt16.ofNat messages.length⟩) ++ ·)

/- The packet that ends a session; `sequence` is the next number that would have come. -/
def encodeEndOfSession (session : Session) (sequence : UInt64) : Bytes :=
  Header.write ⟨session, sequence, endOfSessionCount⟩

end MarketFeed
