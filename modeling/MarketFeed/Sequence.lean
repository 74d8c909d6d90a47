import MarketFeed.Packet.Header

/-!
Sequence tracking. After every packet the tracker expects the number behind it, whatever the packet
was found to be: gaps are reported and never filled here.
-/
namespace MarketFeed

inductive Tracker where
  | idle
  | joined (session : Session) (expected : UInt64)
  deriving DecidableEq, Repr

inductive Sequencing where
  | joined (session : Session) (sequence : UInt64)
  | sessionChange (previous current : Session) (sequence : UInt64)
  | gap (expected received missing : UInt64)
  | duplicate (expected received : UInt64)
  | inOrder
  deriving DecidableEq, Repr

namespace Tracker

def session? : Tracker → Option Session
  | idle => none
  | joined session _ => some session

def expected? : Tracker → Option UInt64
  | idle => none
  | joined _ expected => some expected

/- Joining and a change of session take the packet as the new baseline; nothing else moves it. -/
def classify (t : Tracker) (h : Header) : Sequencing × Tracker :=
  match t with
  | idle => (.joined h.session h.sequence, joined h.session h.sequence)
  | joined session expected =>
    if session ≠ h.session then
      (.sessionChange session h.session h.sequence, joined h.session h.sequence)
    else if expected < h.sequence then (.gap expected h.sequence (h.sequence - expected), t)
    else if h.sequence < expected then (.duplicate expected h.sequence, t)
    else (.inOrder, t)

def advance (_ : Tracker) (h : Header) : Tracker := joined h.session h.nextSequence

def track (t : Tracker) (h : Header) : Sequencing × Tracker :=
  let (found, next) := t.classify h
  (found, next.advance h)

end Tracker
end MarketFeed
