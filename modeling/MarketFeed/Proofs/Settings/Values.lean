import MarketFeed.Settings.Load
import MarketFeed.Proofs.Net.Address
import MarketFeed.Proofs.Text.Typed

/-! Settings one by one, and what the text of a variable stands for as the value of each. A value is put in
one place, where it is found again, and the other values stay as they are. -/
namespace MarketFeed

def StandsForAddress (text : String) (value : Option Net.Address) : Prop :=
  ∃ x, value = some x ∧ Text.Trimmed text.toList (toString x).toList

def StandsForNumber (limit : Nat) (text : String) (n : Nat) : Prop :=
  ∃ core, Text.Trimmed text.toList core ∧ Text.Decimal core n ∧ n ≤ limit

def StandsForU16 (text : String) (n : UInt16) : Prop := StandsForNumber 0xFFFF text n.toNat

def StandsForU64 (text : String) (n : Nat) : Prop := StandsForNumber 0xFFFFFFFFFFFFFFFF text n

namespace Settings

theorem addressIff {text : String} {x : Net.Address} :
    addressOf? text = some x ↔ Text.Trimmed text.toList (toString x).toList := by
  rw [addressOf?, Net.Address.readIff, ← Text.trimIff, Text.trim, ← String.toList_inj,
    String.toList_ofList]

theorem addressStands {text : String} {x : Option Net.Address} :
    (addressOf? text).map some = some x ↔ StandsForAddress text x := by
  rw [Option.map_eq_some_iff]
  constructor
  · rintro ⟨y, read, rfl⟩
    exact ⟨y, rfl, addressIff.mp read⟩
  · rintro ⟨y, rfl, trimmed⟩
    exact ⟨y, addressIff.mpr trimmed, rfl⟩

theorem numberStands {limit n : Nat} {text : String} :
    Text.number? limit (Text.trim text) = some n ↔ StandsForNumber limit text n := by
  have read (core : List Char) :
      (Text.readNumber limit core).toOption = some n ↔ Text.Decimal core n ∧ n ≤ limit := by
    rw [← Text.decimalIff]
    cases Text.readNumber limit core <;> simp [Except.toOption]
  rw [Text.number?, Text.trim, String.toList_ofList, read]
  constructor
  · exact fun decimal => ⟨_, Text.trimmedTrim text.toList, decimal⟩
  · rintro ⟨core, trimmed, decimal⟩
    rwa [Text.trimTrimmed trimmed]

theorem u16Stands {text : String} {n : UInt16} : u16Of? text = some n ↔ StandsForU16 text n := by
  rw [u16Of?, Option.map_eq_some_iff, StandsForU16, ← numberStands]
  constructor
  · rintro ⟨m, read, rfl⟩
    obtain ⟨core, trimmed, decimal, small⟩ := numberStands.mp read
    rwa [UInt16.toNat_ofNat', Nat.mod_eq_of_lt (by omega)]
  · exact fun read => ⟨n.toNat, read, UInt16.ofNat_toNat⟩

theorem u64Stands {text : String} {n : Nat} : u64Of? text = some n ↔ StandsForU64 text n := by
  rw [u64Of?, numberStands, StandsForU64]

end Settings

namespace Setting

def Value : Setting → Type
  | layoutPath => String
  | group | source | interface | rerequester => Option Net.Address
  | port | rerequesterPort | maxMessages => UInt16
  | replyTimeout | sessionTimeout | receiveBuffer => Nat

def value : (k : Setting) → Settings → k.Value
  | layoutPath, s => s.layoutPath
  | group, s => s.channels.group
  | port, s => s.channels.port
  | source, s => s.channels.source
  | interface, s => s.channels.interface
  | rerequester, s => s.channels.rerequester
  | rerequesterPort, s => s.channels.rerequesterPort
  | maxMessages, s => s.recovery.maxMessages
  | replyTimeout, s => s.recovery.replyTimeout
  | sessionTimeout, s => s.recovery.sessionTimeout
  | receiveBuffer, s => s.recovery.receiveBuffer

def put (s : Settings) : (k : Setting) → k.Value → Settings
  | layoutPath, path => { s with layoutPath := path }
  | group, x => s.withChannels ({ · with group := x })
  | port, n => s.withChannels ({ · with port := n })
  | source, x => s.withChannels ({ · with source := x })
  | interface, x => s.withChannels ({ · with interface := x })
  | rerequester, x => s.withChannels ({ · with rerequester := x })
  | rerequesterPort, n => s.withChannels ({ · with rerequesterPort := n })
  | maxMessages, n => s.withRecovery ({ · with maxMessages := n })
  | replyTimeout, n => s.withRecovery ({ · with replyTimeout := n })
  | sessionTimeout, n => s.withRecovery ({ · with sessionTimeout := n })
  | receiveBuffer, n => s.withRecovery ({ · with receiveBuffer := n })

def read? (text : String) : (k : Setting) → Option k.Value
  | layoutPath => some text
  | group | source | interface | rerequester => (Settings.addressOf? text).map some
  | port | rerequesterPort | maxMessages => Settings.u16Of? text
  | replyTimeout | sessionTimeout | receiveBuffer => Settings.u64Of? text

def Stands (text : String) : (k : Setting) → k.Value → Prop
  | layoutPath, path => path = text
  | group, x | source, x | interface, x | rerequester, x => StandsForAddress text x
  | port, n | rerequesterPort, n | maxMessages, n => StandsForU16 text n
  | replyTimeout, n | sessionTimeout, n | receiveBuffer, n => StandsForU64 text n

theorem assignReads (s : Settings) (k : Setting) (text : String) :
    s.assign? k text = (k.read? text).map (k.put s) := by
  have address (f : Option Net.Address → Settings) :
      ((Settings.addressOf? text).map fun x => f (some x)) =
        ((Settings.addressOf? text).map some).map f := (Option.map_map ..).symm
  cases k with
  | group => exact address (put s group)
  | source => exact address (put s source)
  | interface => exact address (put s interface)
  | rerequester => exact address (put s rerequester)
  | _ => rfl

@[simp] theorem valuePut (s : Settings) (k : Setting) (v : k.Value) : k.value (k.put s v) = v := by
  cases k <;> rfl

theorem valuePutOther (s : Settings) {k other : Setting} (apart : other ≠ k) (v : k.Value) :
    other.value (k.put s v) = other.value s := by
  cases k <;> cases other <;> first | rfl | contradiction

@[simp] theorem putValue (s : Settings) (k : Setting) : k.put s (k.value s) = s := by
  cases k <;> rfl

theorem valuesDetermine {a b : Settings} (same : ∀ k : Setting, k.value a = k.value b) : a = b := by
  obtain ⟨_, ⟨_, _, _, _, _, _⟩, ⟨_, _, _, _⟩⟩ := a
  obtain ⟨_, ⟨_, _, _, _, _, _⟩, ⟨_, _, _, _⟩⟩ := b
  rw [Settings.mk.injEq, Channels.mk.injEq, RecoverySettings.mk.injEq]
  exact ⟨same layoutPath,
    ⟨same group, same port, same source, same interface, same rerequester, same rerequesterPort⟩,
    same maxMessages, same replyTimeout, same sessionTimeout, same receiveBuffer⟩

theorem readIff {text : String} {k : Setting} {v : k.Value} :
    k.read? text = some v ↔ k.Stands text v := by
  cases k with
  | layoutPath => exact Option.some_inj.trans eq_comm
  | group => exact @Settings.addressStands text v
  | source => exact @Settings.addressStands text v
  | interface => exact @Settings.addressStands text v
  | rerequester => exact @Settings.addressStands text v
  | port => exact @Settings.u16Stands text v
  | rerequesterPort => exact @Settings.u16Stands text v
  | maxMessages => exact @Settings.u16Stands text v
  | replyTimeout => exact @Settings.u64Stands text v
  | sessionTimeout => exact @Settings.u64Stands text v
  | receiveBuffer => exact @Settings.u64Stands text v

theorem putIff {s t : Settings} {k : Setting} {v : k.Value} :
    t = k.put s v ↔ k.value t = v ∧ ∀ other ≠ k, other.value t = other.value s := by
  constructor
  · rintro rfl
    exact ⟨valuePut s k v, fun other apart => valuePutOther s apart v⟩
  · intro ⟨here, elsewhere⟩
    refine valuesDetermine fun other => ?_
    by_cases same : other = k
    · subst same
      rw [here, valuePut]
    · rw [elsewhere other same, valuePutOther s same]

end Setting
end MarketFeed
