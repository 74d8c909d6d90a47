import MarketFeed.Pipeline
import MarketFeed.Text.Reader
import MarketFeed.Text.Shown

/-!
Command-line options. Arguments are taken from the left; a flag that wants a value takes the next
argument whatever it looks like, the last value of a number flag counts, and the first argument that
is wrong, or asks for help, decides.
-/
namespace MarketFeed

structure Options where
  gapFill : Bool
  startSequence : UInt64
  /- Messages after which the run stops; zero means never. -/
  maxMessages : Nat
  recoverCount : Option Nat
  types : List UInt8
  verbose : Bool
  deriving DecidableEq, Repr

inductive OptionsError where
  | notASequence (fault : Text.NumberFault)
  | notACount (flag : String) (fault : Text.NumberFault)
  | noValue (flag : String)
  | notOneByte (value : String)
  | unknown (argument : String)
  deriving DecidableEq, Repr

def OptionsError.message : OptionsError → String
  | .notASequence fault => s!"-s must be a sequence number: {fault.message}"
  | .notACount flag fault => s!"{flag} must be a message count: {fault.message}"
  | .noValue flag => s!"{flag} requires a value"
  | .notOneByte value => s!"-t takes a single-byte message type, got {Text.quoted value}"
  | .unknown argument => s!"unknown option: {argument}"

inductive Command where
  | help
  | run (options : Options)
  deriving DecidableEq, Repr

inductive Flag where
  | gapFill
  | verbose
  | start (sequence : UInt64)
  | cap (count : Nat)
  | recover (count : Nat)
  | type (tag : UInt8)
  deriving DecidableEq, Repr

namespace Options

def default : Options := ⟨false, 1, 0, none, [], false⟩

def recoveryTotal (o : Options) : Nat := o.recoverCount.getD o.maxMessages

def filter (o : Options) : Option TypeFilter :=
  if o.types.isEmpty then none else some ⟨o.types⟩

def apply (o : Options) : Flag → Options
  | .gapFill => { o with gapFill := true }
  | .verbose => { o with verbose := true }
  | .start sequence => { o with startSequence := sequence }
  | .cap count => { o with maxMessages := count }
  | .recover count => { o with recoverCount := some count }
  | .type tag => { o with types := o.types ++ [tag] }

end Options

namespace Flag

def readU64 (value : String) : Except Text.NumberFault Nat :=
  Text.readNumber 0xFFFFFFFFFFFFFFFF value.toList

def alone? : String → Option Flag
  | "-g" => some gapFill
  | "-v" => some verbose
  | _ => none

def wantsValue (name : String) : Bool :=
  name == "-s" || name == "-n" || name == "-c" || name == "-t"

def withValue (name value : String) : Except OptionsError Flag :=
  match name with
  | "-s" => ((readU64 value).map fun n => start (UInt64.ofNat n)).mapError .notASequence
  | "-n" => ((readU64 value).map cap).mapError (.notACount name)
  | "-c" => ((readU64 value).map recover).mapError (.notACount name)
  | "-t" => match utf8 value with
    | [tag] => .ok (type tag)
    | _ => .error (.notOneByte value)
  | _ => .error (.unknown name)

end Flag

namespace Command

def parseFrom (o : Options) : List String → Except OptionsError Command
  | [] => .ok (run o)
  | "-h" :: _ | "--help" :: _ => .ok help
  | name :: rest =>
    match Flag.alone? name with
    | some flag => parseFrom (o.apply flag) rest
    | none =>
      if !Flag.wantsValue name then .error (.unknown name)
      else match rest with
        | [] => .error (.noValue name)
        | value :: rest =>
          match Flag.withValue name value with
          | .error e => .error e
          | .ok flag => parseFrom (o.apply flag) rest

def parse (arguments : List String) : Except OptionsError Command := parseFrom .default arguments

end Command

def usageLines : List String := [
  "Usage: moldfeedd [-g] [-s <seq>] [-n <count>] [-c <count>] [-t <type>]... [-v]",
  "",
  "Decodes a MoldUDP64 multicast feed, or recovers a range from the rerequest server.",
  "",
  "Options:",
  "  -g          gap-fill mode: recover via rerequests instead of listening live",
  "  -s <seq>    first sequence to recover (default: 1)",
  "  -n <count>  stop after <count> messages (default: 0, unbounded)",
  "  -c <count>  messages to recover in gap-fill mode (default: the -n value)",
  "  -t <type>   only report this message type; repeatable",
  "  -v          print every field and enable debug logging",
  "  -h          show this help",
  "",
  "Config is read from $MOLDFEED_CONFIG or config/config.toml."]

def usage : String := String.join (usageLines.map (· ++ "\n"))

end MarketFeed
