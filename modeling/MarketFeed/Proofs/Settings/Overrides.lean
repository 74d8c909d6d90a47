import MarketFeed.Proofs.Settings.Values

/-! What the environment makes of the settings of a file. A setting is what its own variable stands for, or
what the file says where there is none, and nothing else changes it. The first variable that stands for
nothing refuses all of them. -/
namespace MarketFeed

structure Variable where
  name : String
  stands : String → Prop

def Variable.Suits (lookup : String → Option String) (v : Variable) : Prop :=
  ∀ text, lookup v.name = some text → v.stands text

def FirstUnfit (lookup : String → Option String) (vs : List Variable) (e : SettingsError) : Prop :=
  ∃ front v back text, vs = front ++ v :: back ∧ (∀ u ∈ front, u.Suits lookup) ∧
    lookup v.name = some text ∧ ¬ v.stands text ∧ e = .invalidOverride v.name text

def GivenBy {α : Type} (given : Option String) (stands : String → α → Prop) (old new : α) : Prop :=
  match given with
  | none => new = old
  | some text => stands text new

section FirstUnfit

variable {lookup : String → Option String} {v : Variable} {vs : List Variable} {e : SettingsError}

theorem unfitFirst {text : String} (given : lookup v.name = some text) (unfit : ¬ v.stands text) :
    FirstUnfit lookup (v :: vs) (.invalidOverride v.name text) :=
  ⟨[], v, vs, text, rfl, by simp, given, unfit, rfl⟩

theorem unfitBehind (suits : v.Suits lookup) :
    FirstUnfit lookup (v :: vs) e ↔ FirstUnfit lookup vs e := by
  constructor
  · rintro ⟨front, u, back, text, split, suit, given, unfit, rfl⟩
    rcases List.cons_eq_append_iff.mp split with ⟨rfl, same⟩ | ⟨front, rfl, rfl⟩
    · cases same
      exact absurd (suits text given) unfit
    · exact ⟨front, u, back, text, rfl, fun w member => suit w (.tail v member), given, unfit, rfl⟩
  · rintro ⟨front, u, back, text, rfl, suit, given, unfit, rfl⟩
    exact ⟨v :: front, u, back, text, rfl, List.forall_mem_cons.mpr ⟨suits, suit⟩, given, unfit, rfl⟩

theorem suitOrUnfit (lookup : String → Option String) (vs : List Variable) :
    (∀ v ∈ vs, v.Suits lookup) ∨ ∃ e, FirstUnfit lookup vs e := by
  induction vs with
  | nil => exact .inl (by simp)
  | cons v vs ih =>
    by_cases suits : v.Suits lookup
    · rcases ih with suit | ⟨e, unfit⟩
      · exact .inl (List.forall_mem_cons.mpr ⟨suits, suit⟩)
      · exact .inr ⟨e, (unfitBehind suits).mpr unfit⟩
    · rw [Variable.Suits] at suits
      obtain ⟨text, unfit⟩ := Classical.not_forall.mp suits
      obtain ⟨given, unfit⟩ := Classical.not_imp.mp unfit
      exact .inr ⟨_, unfitFirst given unfit⟩

end FirstUnfit

namespace Setting

def Given (lookup : String → Option String) (k : Setting) (old new : k.Value) : Prop :=
  GivenBy (lookup k.variableName) k.Stands old new

def asVariable (k : Setting) : Variable := ⟨k.variableName, fun text => ∃ v, k.Stands text v⟩

end Setting

namespace Settings

variable {lookup : String → Option String}

theorem overrideUnset {k : Setting} (unset : lookup k.variableName = none) (s : Settings) :
    override lookup s k = .ok s := by
  rw [override, unset]

theorem overrideGiven {k : Setting} {text : String} (given : lookup k.variableName = some text)
    {v : k.Value} (stands : k.Stands text v) (s : Settings) :
    override lookup s k = .ok (k.put s v) := by
  simp only [override, given, Setting.assignReads, Setting.readIff.mpr stands, Option.map_some]

theorem overrideRefused {k : Setting} {text : String} (given : lookup k.variableName = some text)
    (unfit : ∀ v, ¬ k.Stands text v) (s : Settings) :
    override lookup s k = .error (.invalidOverride k.variableName text) := by
  have unread : k.read? text = none :=
    Option.eq_none_iff_forall_ne_some.mpr fun v read => unfit v (Setting.readIff.mp read)
  simp only [override, given, Setting.assignReads, unread, Option.map_none]

theorem overrideOk {s t : Settings} {k : Setting} :
    override lookup s k = .ok t ↔
      k.Given lookup (k.value s) (k.value t) ∧ ∀ other ≠ k, other.value t = other.value s := by
  cases given : lookup k.variableName with
  | none =>
    have unchanged := Setting.putIff (s := s) (t := t) (v := k.value s)
    rw [Setting.putValue] at unchanged
    rw [overrideUnset given, Setting.Given, given]
    exact ⟨fun same => unchanged.mp (Except.ok.inj same).symm,
      fun same => congrArg _ (unchanged.mpr same).symm⟩
  | some text =>
    rw [Setting.Given, given]
    by_cases fit : ∃ v, k.Stands text v
    · obtain ⟨v, stands⟩ := fit
      rw [overrideGiven given stands]
      constructor
      · intro same
        obtain ⟨here, elsewhere⟩ := Setting.putIff.mp (Except.ok.inj same).symm
        exact ⟨here ▸ stands, elsewhere⟩
      · intro ⟨here, elsewhere⟩
        have same : k.value t = v :=
          Option.some.inj ((Setting.readIff.mpr here).symm.trans (Setting.readIff.mpr stands))
        rw [Setting.putIff.mpr ⟨same, elsewhere⟩]
    · have unfit := not_exists.mp fit
      rw [overrideRefused given unfit]
      exact ⟨fun same => by contradiction, fun ⟨here, _⟩ => absurd here (unfit _)⟩

theorem suitsOk {k : Setting} (suits : k.asVariable.Suits lookup) (s : Settings) :
    ∃ t, override lookup s k = .ok t := by
  cases given : lookup k.variableName with
  | none => exact ⟨s, overrideUnset given s⟩
  | some text =>
    obtain ⟨v, stands⟩ := suits text given
    exact ⟨_, overrideGiven given stands s⟩

theorem overridesOk {ks : List Setting} (once : ks.Nodup) {s t : Settings} :
    ks.foldlM (override lookup) s = .ok t ↔
      (∀ k ∈ ks, k.Given lookup (k.value s) (k.value t)) ∧ ∀ k ∉ ks, k.value t = k.value s := by
  induction ks generalizing s with
  | nil =>
    constructor
    · intro done
      cases Except.ok.inj done
      exact ⟨by simp, fun _ _ => rfl⟩
    · intro ⟨_, elsewhere⟩
      rw [Setting.valuesDetermine fun k => elsewhere k (by simp)]
      rfl
  | cons k ks ih =>
    obtain ⟨fresh, once⟩ := List.nodup_cons.mp once
    have behind {j : Setting} (member : j ∈ ks) : j ≠ k := fun same => fresh (same ▸ member)
    rw [List.foldlM_cons]
    constructor
    · intro done
      cases first : override lookup s k with
      | error e =>
        rw [first] at done
        contradiction
      | ok u =>
        rw [first] at done
        obtain ⟨given, elsewhere⟩ := overrideOk.mp first
        obtain ⟨later, unchanged⟩ := (ih once).mp done
        refine ⟨List.forall_mem_cons.mpr ⟨?_, fun j member => ?_⟩, fun j outside => ?_⟩
        · rwa [unchanged k fresh]
        · rw [← elsewhere j (behind member)]
          exact later j member
        · rw [List.mem_cons, not_or] at outside
          obtain ⟨apart, absent⟩ := outside
          rw [unchanged j absent, elsewhere j apart]
    · intro ⟨given, unchanged⟩
      obtain ⟨first, later⟩ := List.forall_mem_cons.mp given
      let u := k.put s (k.value t)
      have here : k.value u = k.value t := Setting.valuePut s k _
      have elsewhere : ∀ j ≠ k, j.value u = j.value s := fun j apart =>
        Setting.valuePutOther s apart _
      have step : override lookup s k = .ok u := overrideOk.mpr ⟨here ▸ first, elsewhere⟩
      rw [step]
      refine (ih once).mpr ⟨fun j member => ?_, fun j absent => ?_⟩
      · rw [elsewhere j (behind member)]
        exact later j member
      · by_cases same : j = k
        · rw [same, here]
        · rw [elsewhere j same, unchanged j (by simp [same, absent])]

theorem suitAllOk {ks : List Setting} (suit : ∀ k ∈ ks, k.asVariable.Suits lookup) (s : Settings) :
    ∃ t, ks.foldlM (override lookup) s = .ok t := by
  induction ks generalizing s with
  | nil => exact ⟨s, rfl⟩
  | cons k ks ih =>
    obtain ⟨first, later⟩ := List.forall_mem_cons.mp suit
    obtain ⟨u, step⟩ := suitsOk first s
    obtain ⟨t, done⟩ := ih later u
    exact ⟨t, by rw [List.foldlM_cons, step]; exact done⟩

theorem unfitError {ks : List Setting} {e : SettingsError}
    (unfit : FirstUnfit lookup (ks.map Setting.asVariable) e) (s : Settings) :
    ks.foldlM (override lookup) s = .error e := by
  obtain ⟨front, v, back, text, split, suit, given, unfit, rfl⟩ := unfit
  obtain ⟨earlier, later, rfl, rfl, same⟩ := List.map_eq_append_iff.mp split
  obtain ⟨k, behind, rfl, rfl, rfl⟩ := List.map_eq_cons_iff.mp same
  obtain ⟨t, done⟩ := suitAllOk (List.forall_mem_map.mp suit) s
  rw [List.foldlM_append, done]
  show (k :: behind).foldlM (override lookup) t = _
  rw [List.foldlM_cons, overrideRefused given (not_exists.mp unfit)]
  rfl

end Settings

def typedVariables : List Variable := [
  ⟨"MOLDFEED_FEED_CHANNELS__MCAST_IP", fun text => ∃ x, StandsForAddress text x⟩,
  ⟨"MOLDFEED_FEED_CHANNELS__MCAST_PORT", fun text => ∃ n, StandsForU16 text n⟩,
  ⟨"MOLDFEED_FEED_CHANNELS__MCAST_SOURCE_IP", fun text => ∃ x, StandsForAddress text x⟩,
  ⟨"MOLDFEED_FEED_CHANNELS__INTERFACE_IP", fun text => ∃ x, StandsForAddress text x⟩,
  ⟨"MOLDFEED_FEED_CHANNELS__MCAST_REREQUESTER_IP", fun text => ∃ x, StandsForAddress text x⟩,
  ⟨"MOLDFEED_FEED_CHANNELS__MCAST_REREQUESTER_PORT", fun text => ∃ n, StandsForU16 text n⟩,
  ⟨"MOLDFEED_RECOVERY_SETTINGS__MAX_RECOVERY_MESSAGE_COUNT", fun text => ∃ n, StandsForU16 text n⟩,
  ⟨"MOLDFEED_RECOVERY_SETTINGS__REPLY_TIMEOUT_MS", fun text => ∃ n, StandsForU64 text n⟩,
  ⟨"MOLDFEED_RECOVERY_SETTINGS__SESSION_TIMEOUT_MS", fun text => ∃ n, StandsForU64 text n⟩,
  ⟨"MOLDFEED_RECOVERY_SETTINGS__RECEIVE_BUFFER_BYTES", fun text => ∃ n, StandsForU64 text n⟩]

def overrideNames : List String := "MOLDFEED_LAYOUT_PATH" :: typedVariables.map Variable.name

structure Overridden (lookup : String → Option String) (file final : Settings) : Prop where
  layoutPath : final.layoutPath = (lookup "MOLDFEED_LAYOUT_PATH").getD file.layoutPath
  group : GivenBy (lookup "MOLDFEED_FEED_CHANNELS__MCAST_IP") StandsForAddress
    file.channels.group final.channels.group
  port : GivenBy (lookup "MOLDFEED_FEED_CHANNELS__MCAST_PORT") StandsForU16
    file.channels.port final.channels.port
  source : GivenBy (lookup "MOLDFEED_FEED_CHANNELS__MCAST_SOURCE_IP") StandsForAddress
    file.channels.source final.channels.source
  interface : GivenBy (lookup "MOLDFEED_FEED_CHANNELS__INTERFACE_IP") StandsForAddress
    file.channels.interface final.channels.interface
  rerequester : GivenBy (lookup "MOLDFEED_FEED_CHANNELS__MCAST_REREQUESTER_IP") StandsForAddress
    file.channels.rerequester final.channels.rerequester
  rerequesterPort : GivenBy (lookup "MOLDFEED_FEED_CHANNELS__MCAST_REREQUESTER_PORT") StandsForU16
    file.channels.rerequesterPort final.channels.rerequesterPort
  maxMessages : GivenBy (lookup "MOLDFEED_RECOVERY_SETTINGS__MAX_RECOVERY_MESSAGE_COUNT") StandsForU16
    file.recovery.maxMessages final.recovery.maxMessages
  replyTimeout : GivenBy (lookup "MOLDFEED_RECOVERY_SETTINGS__REPLY_TIMEOUT_MS") StandsForU64
    file.recovery.replyTimeout final.recovery.replyTimeout
  sessionTimeout : GivenBy (lookup "MOLDFEED_RECOVERY_SETTINGS__SESSION_TIMEOUT_MS") StandsForU64
    file.recovery.sessionTimeout final.recovery.sessionTimeout
  receiveBuffer : GivenBy (lookup "MOLDFEED_RECOVERY_SETTINGS__RECEIVE_BUFFER_BYTES") StandsForU64
    file.recovery.receiveBuffer final.recovery.receiveBuffer

namespace Settings

variable {lookup : String → Option String} {file final : Settings}

theorem variablesTyped : typedVariables = Setting.all.tail.map Setting.asVariable := rfl

theorem allOnce : Setting.all.Nodup := by decide

theorem allMember (k : Setting) : k ∈ Setting.all := by cases k <;> decide

theorem pathSuits : Setting.layoutPath.asVariable.Suits lookup := fun text _ => ⟨text, rfl⟩

theorem overriddenIff :
    Overridden lookup file final ↔ ∀ k : Setting, k.Given lookup (k.value file) (k.value final) := by
  have path : Setting.layoutPath.Given lookup file.layoutPath final.layoutPath ↔
      final.layoutPath = (lookup "MOLDFEED_LAYOUT_PATH").getD file.layoutPath := by
    show GivenBy (lookup "MOLDFEED_LAYOUT_PATH") _ _ _ ↔ _
    cases lookup "MOLDFEED_LAYOUT_PATH" <;> exact Iff.rfl
  constructor
  · intro overridden k
    cases k with
    | layoutPath => exact path.mpr overridden.layoutPath
    | group => exact overridden.group
    | port => exact overridden.port
    | source => exact overridden.source
    | interface => exact overridden.interface
    | rerequester => exact overridden.rerequester
    | rerequesterPort => exact overridden.rerequesterPort
    | maxMessages => exact overridden.maxMessages
    | replyTimeout => exact overridden.replyTimeout
    | sessionTimeout => exact overridden.sessionTimeout
    | receiveBuffer => exact overridden.receiveBuffer
  · intro given
    exact ⟨path.mp (given .layoutPath), given .group, given .port, given .source, given .interface,
      given .rerequester, given .rerequesterPort, given .maxMessages, given .replyTimeout,
      given .sessionTimeout, given .receiveBuffer⟩

theorem overrideAllOk : overrideAll lookup file = .ok final ↔ Overridden lookup file final := by
  rw [overrideAll, overridesOk allOnce, overriddenIff]
  exact ⟨fun ⟨given, _⟩ k => given k (allMember k),
    fun given => ⟨fun k _ => given k, fun k absent => absurd (allMember k) absent⟩⟩

theorem overrideAllUnfit {e : SettingsError} (unfit : FirstUnfit lookup typedVariables e)
    (s : Settings) : overrideAll lookup s = .error e := by
  rw [variablesTyped] at unfit
  exact unfitError ((unfitBehind pathSuits).mpr unfit) s

theorem overrideAllSuit (suit : ∀ v ∈ typedVariables, v.Suits lookup) (s : Settings) :
    ∃ t, overrideAll lookup s = .ok t := by
  have all : ∀ v ∈ Setting.all.map Setting.asVariable, v.Suits lookup :=
    List.forall_mem_cons.mpr ⟨pathSuits, variablesTyped ▸ suit⟩
  exact suitAllOk (List.forall_mem_map.mp all) s

theorem overrideAllSuits :
    (∃ final, overrideAll lookup file = .ok final) ↔ ∀ v ∈ typedVariables, v.Suits lookup := by
  constructor
  · intro ⟨final, done⟩
    refine (suitOrUnfit lookup typedVariables).resolve_right fun ⟨e, unfit⟩ => ?_
    rw [overrideAllUnfit unfit] at done
    contradiction
  · exact fun suit => overrideAllSuit suit file

theorem overrideAllError {e : SettingsError} :
    overrideAll lookup file = .error e ↔ FirstUnfit lookup typedVariables e := by
  constructor
  · intro refused
    rcases suitOrUnfit lookup typedVariables with suit | ⟨first, unfit⟩
    · obtain ⟨final, done⟩ := overrideAllSuit suit file
      rw [refused] at done
      contradiction
    · rw [overrideAllUnfit unfit] at refused
      rwa [← Except.error.inj refused]
  · exact fun unfit => overrideAllUnfit unfit file

theorem overrideAllLookup {other : String → Option String}
    (same : ∀ name ∈ overrideNames, other name = lookup name) (s : Settings) :
    overrideAll other s = overrideAll lookup s := by
  have step : override other = override lookup := by
    funext s k
    have given : other k.variableName = lookup k.variableName :=
      same _ (List.mem_map_of_mem (allMember k))
    rw [override, override, given]
  rw [overrideAll, overrideAll, step]

theorem loadRead {path text : String} {content : Except FileFault Bytes}
    (read : asText content = .ok text) (parsed : (Toml.parse? text).bind ofEntries? = some file)
    (lookup : String → Option String) : load path content lookup = overrideAll lookup file := by
  simp only [load, read, parsed]

end Settings

theorem overridesExact (lookup : String → Option String) (file : Settings) :
    ((∃ final, Settings.overrideAll lookup file = .ok final) ↔
      ∀ v ∈ typedVariables, v.Suits lookup) ∧
    (∀ final, Settings.overrideAll lookup file = .ok final ↔ Overridden lookup file final) ∧
    (∀ e, Settings.overrideAll lookup file = .error e ↔ FirstUnfit lookup typedVariables e) ∧
    (∀ other, (∀ name ∈ overrideNames, other name = lookup name) →
      Settings.overrideAll other file = Settings.overrideAll lookup file) ∧
    ∀ path content text, asText content = .ok text →
      (Toml.parse? text).bind Settings.ofEntries? = some file →
        Settings.load path content lookup = Settings.overrideAll lookup file :=
  ⟨Settings.overrideAllSuits, fun _ => Settings.overrideAllOk, fun _ => Settings.overrideAllError,
    fun _ same => Settings.overrideAllLookup same file,
    fun _ _ _ read parsed => Settings.loadRead read parsed lookup⟩

/- Of three sections one variable each counts before the file: a path keeps its blanks, a port and a span
lose theirs. A source of three numbers is then refused before a span that is no number either. -/
theorem overridesExactSections :
    let text := "layout_path = 'feed.json'\n[feed_channels]\nmcast_port = 26400\n" ++
      "interface_ip = '10.0.0.1'\n[recovery_settings]\nsession_timeout_ms = 5"
    let file : Settings := {
      layoutPath := "feed.json"
      channels := { Channels.default with port := 26400, interface := some ⟨10, 0, 0, 1⟩ }
      recovery := { RecoverySettings.default with sessionTimeout := 5 } }
    let final : Settings := {
      layoutPath := " other.json"
      channels := { Channels.default with port := 30001, interface := some ⟨10, 0, 0, 1⟩ }
      recovery := { RecoverySettings.default with sessionTimeout := 250 } }
    let given : List (String × String) := [
      ("MOLDFEED_LAYOUT_PATH", " other.json"),
      ("MOLDFEED_FEED_CHANNELS__MCAST_PORT", " 30001\n"),
      ("MOLDFEED_RECOVERY_SETTINGS__SESSION_TIMEOUT_MS", "+250 ")]
    let unfit : List (String × String) := [
      ("MOLDFEED_RECOVERY_SETTINGS__REPLY_TIMEOUT_MS", "soon"),
      ("MOLDFEED_FEED_CHANNELS__MCAST_SOURCE_IP", " 10.1.1")]
    let named (set : List (String × String)) (name : String) : Option String := set.lookup name
    Settings.load "config.toml" (.ok (utf8 text)) (named given) = .ok final ∧
      Overridden (named given) file final ∧ FirstUnfit (named (unfit ++ given)) typedVariables
        (.invalidOverride "MOLDFEED_FEED_CHANNELS__MCAST_SOURCE_IP" " 10.1.1") := by
  intro text file final given unfit named
  have read : asText (.ok (utf8 text)) = .ok text := by rw [asText, readUtf8Written]
  have parsed : (Toml.parse? text).bind Settings.ofEntries? = some file := by decide +kernel
  have overridden : Settings.overrideAll (named given) file = .ok final := rfl
  have refused : Settings.overrideAll (named (unfit ++ given)) file = .error
      (.invalidOverride "MOLDFEED_FEED_CHANNELS__MCAST_SOURCE_IP" " 10.1.1") := rfl
  refine ⟨?_, ?_, ?_⟩
  · exact ((overridesExact (named given) file).2.2.2.2 _ _ _ read parsed).trans overridden
  · exact ((overridesExact (named given) file).2.1 final).mp overridden
  · exact ((overridesExact (named (unfit ++ given)) file).2.2.1 _).mp refused

end MarketFeed
