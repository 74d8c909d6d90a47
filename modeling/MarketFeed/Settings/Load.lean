import MarketFeed.Settings.Basic
import MarketFeed.Text.Reader
import MarketFeed.Toml.Tree

/-!
Settings from a file and the environment. What the file leaves out has its default, and what it
holds under unknown keys is ignored. Every setting has one environment variable, which counts
before the file; the variables are tried in a fixed order and the first that does not suit its
setting is reported.
-/
namespace MarketFeed

namespace Toml.Node

/- The settings of a section under their names. An array gives them by position and may be short or
long, and a moment holds none of them. -/
def parts? (names : List String) : Node → Option (List (Option Node))
  | .table _ entries => some (names.map fun name => entries.lookup name)
  | .array items => some (names.mapIdx fun i _ => items[i]?)
  | .scalar .moment => some (names.map fun _ => none)
  | _ => none

def text? : Node → Option String
  | .scalar (.text t) => some t
  | _ => none

def below? (bound : Nat) : Node → Option Nat
  | .scalar (.integer n) => if 0 ≤ n && n < bound then some n.toNat else none
  | _ => none

def address? (node : Node) : Option Net.Address := node.text?.bind Net.Address.read?

def u16? (node : Node) : Option UInt16 := (node.below? 0x10000).map UInt16.ofNat

def u64? (node : Node) : Option Nat := node.below? 0x10000000000000000

end Toml.Node

def readOr {α : Type} (unset : α) (read : Toml.Node → Option α) : Option Toml.Node → Option α
  | none => some unset
  | some node => read node

def Channels.ofNode? (node : Toml.Node) : Option Channels := do
  match ← node.parts? ["mcast_ip", "mcast_port", "mcast_source_ip", "interface_ip",
      "mcast_rerequester_ip", "mcast_rerequester_port"] with
  | [group, port, source, interface, rerequester, rerequesterPort] =>
    let address := readOr none fun node => node.address?.map some
    let number := readOr 0 Toml.Node.u16?
    return ⟨← address group, ← number port, ← address source, ← address interface,
      ← address rerequester, ← number rerequesterPort⟩
  | _ => none

def RecoverySettings.ofNode? (node : Toml.Node) : Option RecoverySettings := do
  match ← node.parts? ["max_recovery_message_count", "reply_timeout_ms", "session_timeout_ms",
      "receive_buffer_bytes"] with
  | [count, reply, session, buffer] =>
    return ⟨← readOr default.maxMessages Toml.Node.u16? count,
      ← readOr default.replyTimeout Toml.Node.u64? reply,
      ← readOr default.sessionTimeout Toml.Node.u64? session,
      ← readOr default.receiveBuffer Toml.Node.u64? buffer⟩
  | _ => none

def Settings.ofEntries? (entries : Toml.Entries) : Option Settings := do
  return ⟨← readOr default.layoutPath Toml.Node.text? (entries.lookup "layout_path"),
    ← readOr default.channels Channels.ofNode? (entries.lookup "feed_channels"),
    ← readOr default.recovery RecoverySettings.ofNode? (entries.lookup "recovery_settings")⟩

inductive Setting where
  | layoutPath
  | group
  | port
  | source
  | interface
  | rerequester
  | rerequesterPort
  | maxMessages
  | replyTimeout
  | sessionTimeout
  | receiveBuffer
  deriving DecidableEq, Repr

namespace Setting

def all : List Setting :=
  [layoutPath, group, port, source, interface, rerequester, rerequesterPort, maxMessages,
    replyTimeout, sessionTimeout, receiveBuffer]

def variableName : Setting → String
  | layoutPath => "MOLDFEED_LAYOUT_PATH"
  | group => "MOLDFEED_FEED_CHANNELS__MCAST_IP"
  | port => "MOLDFEED_FEED_CHANNELS__MCAST_PORT"
  | source => "MOLDFEED_FEED_CHANNELS__MCAST_SOURCE_IP"
  | interface => "MOLDFEED_FEED_CHANNELS__INTERFACE_IP"
  | rerequester => "MOLDFEED_FEED_CHANNELS__MCAST_REREQUESTER_IP"
  | rerequesterPort => "MOLDFEED_FEED_CHANNELS__MCAST_REREQUESTER_PORT"
  | maxMessages => "MOLDFEED_RECOVERY_SETTINGS__MAX_RECOVERY_MESSAGE_COUNT"
  | replyTimeout => "MOLDFEED_RECOVERY_SETTINGS__REPLY_TIMEOUT_MS"
  | sessionTimeout => "MOLDFEED_RECOVERY_SETTINGS__SESSION_TIMEOUT_MS"
  | receiveBuffer => "MOLDFEED_RECOVERY_SETTINGS__RECEIVE_BUFFER_BYTES"

end Setting

namespace Settings

def withChannels (s : Settings) (update : Channels → Channels) : Settings :=
  { s with channels := update s.channels }

def withRecovery (s : Settings) (update : RecoverySettings → RecoverySettings) : Settings :=
  { s with recovery := update s.recovery }

def addressOf? (value : String) : Option Net.Address := Net.Address.read? (Text.trim value)

def u16Of? (value : String) : Option UInt16 :=
  (Text.number? 0xFFFF (Text.trim value)).map UInt16.ofNat

def u64Of? (value : String) : Option Nat := Text.number? 0xFFFFFFFFFFFFFFFF (Text.trim value)

/- Gives one setting the value that a variable holds. Blanks around the value do not count, except
in a path, which is taken as it stands. -/
def assign? (s : Settings) (setting : Setting) (value : String) : Option Settings :=
  match setting with
  | .layoutPath => some { s with layoutPath := value }
  | .group => (addressOf? value).map fun x => s.withChannels ({ · with group := some x })
  | .port => (u16Of? value).map fun n => s.withChannels ({ · with port := n })
  | .source => (addressOf? value).map fun x => s.withChannels ({ · with source := some x })
  | .interface => (addressOf? value).map fun x => s.withChannels ({ · with interface := some x })
  | .rerequester =>
    (addressOf? value).map fun x => s.withChannels ({ · with rerequester := some x })
  | .rerequesterPort => (u16Of? value).map fun n => s.withChannels ({ · with rerequesterPort := n })
  | .maxMessages => (u16Of? value).map fun n => s.withRecovery ({ · with maxMessages := n })
  | .replyTimeout => (u64Of? value).map fun n => s.withRecovery ({ · with replyTimeout := n })
  | .sessionTimeout => (u64Of? value).map fun n => s.withRecovery ({ · with sessionTimeout := n })
  | .receiveBuffer => (u64Of? value).map fun n => s.withRecovery ({ · with receiveBuffer := n })

def override (lookup : String → Option String) (s : Settings) (setting : Setting) :
    Except SettingsError Settings :=
  match lookup setting.variableName with
  | none => .ok s
  | some value =>
    match s.assign? setting value with
    | some s => .ok s
    | none => .error (.invalidOverride setting.variableName value)

def overrideAll (lookup : String → Option String) (s : Settings) : Except SettingsError Settings :=
  Setting.all.foldlM (override lookup) s

def load (path : String) (content : Except FileFault Bytes) (lookup : String → Option String) :
    Except SettingsError Settings :=
  match asText content with
  | .error fault => .error (.readFailed path fault)
  | .ok text =>
    match (Toml.parse? text).bind ofEntries? with
    | none => .error (.parseFailed path)
    | some s => s.overrideAll lookup

def pathVariable : String := "MOLDFEED_CONFIG"

def path (lookup : String → Option String) : String :=
  (lookup pathVariable).getD "config/config.toml"

end Settings
end MarketFeed
