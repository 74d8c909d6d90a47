import MarketFeed.Files
import MarketFeed.Net.Host
import MarketFeed.Recovery.Plan
import MarketFeed.Text.Shown

/-!
The settings of a feed, with their defaults, and what a run takes from them. A port of zero counts
as not set; times are in milliseconds.
-/
namespace MarketFeed

structure Channels where
  group : Option Net.Address
  port : UInt16
  /- The sender to join for; none joins for every sender. -/
  source : Option Net.Address
  interface : Option Net.Address
  rerequester : Option Net.Address
  rerequesterPort : UInt16
  deriving DecidableEq, Repr

structure RecoverySettings where
  /- Messages per rerequest; zero means the default. -/
  maxMessages : UInt16
  replyTimeout : Nat
  /- Zero means to wait for ever. -/
  sessionTimeout : Nat
  receiveBuffer : Nat
  deriving DecidableEq, Repr

structure Settings where
  layoutPath : String
  channels : Channels
  recovery : RecoverySettings
  deriving DecidableEq, Repr

inductive SettingsError where
  | readFailed (path : String) (fault : FileFault)
  | parseFailed (path : String)
  | missing (setting : String)
  | invalidOverride (name value : String)
  deriving DecidableEq, Repr

def SettingsError.message : SettingsError → String
  | .readFailed path fault => s!"failed to read {path}: {fault.message}"
  | .parseFailed path => s!"failed to parse {path}"
  | .missing setting => s!"missing required setting {setting}"
  | .invalidOverride name value => s!"invalid value for {name}: {Text.quoted value}"

def Channels.default : Channels := ⟨none, 0, none, none, none, 0⟩

namespace RecoverySettings

def default : RecoverySettings := ⟨defaultChunk, 1000, 0, 4 * 1024 * 1024⟩

def chunkSize (s : RecoverySettings) : UInt16 := chunkOrDefault s.maxMessages

def replyWait (s : RecoverySettings) : Nat := max s.replyTimeout 1

def sessionWait (s : RecoverySettings) : Option Nat :=
  if s.sessionTimeout = 0 then none else some s.sessionTimeout

end RecoverySettings

namespace Settings

def default : Settings := ⟨"config/layout.json", .default, .default⟩

def multicast (s : Settings) : Except SettingsError Net.MulticastTarget :=
  match s.channels.group with
  | none => .error (.missing "feed_channels.mcast_ip")
  | some group =>
    if s.channels.port = 0 then .error (.missing "feed_channels.mcast_port")
    else match s.channels.interface with
      | none => .error (.missing "feed_channels.interface_ip")
      | some interface => .ok ⟨group, s.channels.port, interface, s.channels.source⟩

def rerequester (s : Settings) : Except SettingsError Net.Endpoint :=
  match s.channels.rerequester with
  | none => .error (.missing "feed_channels.mcast_rerequester_ip")
  | some address =>
    if s.channels.rerequesterPort = 0 then
      .error (.missing "feed_channels.mcast_rerequester_port")
    else .ok ⟨address, s.channels.rerequesterPort⟩

end Settings
end MarketFeed
