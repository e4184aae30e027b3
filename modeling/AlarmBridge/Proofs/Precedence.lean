import AlarmBridge.Config
import AlarmBridge.Proofs.Lossy
import AlarmBridge.Proofs.Roster

/-! The environment and the `.env` file together.  A variable that is seen to be set keeps its
value, any other has the value in the first line that sets it, and the configuration is the one for
these values: what cannot be read as a number in the environment leaves the default, whatever the
file says.  A variable whose value is no Unicode is not seen, so a line of the file takes its
place, and a file that is no UTF-8 counts as none. -/

set_option autoImplicit false

namespace AlarmBridge

namespace OsText

@[simp] theorem text?_ofString (s : String) : (ofString s).text? = some s := by
  rw [ofString, text?, Text.decode_encode, Option.map_some, String.ofList_toList]

theorem text?_eq_some_iff {t : OsText} {s : String} : t.text? = some s ↔ t = ofString s := by
  refine ⟨fun h => ?_, fun h => h ▸ text?_ofString s⟩
  obtain ⟨bytes⟩ := t
  obtain ⟨chars, hchars, rfl⟩ := Option.map_eq_some_iff.mp h
  rw [ofString, String.toList_ofList]
  exact congrArg mk (Text.decode_eq_some_iff.mp hchars)

theorem ne_ofString {t : OsText} (h : t.text? = none) (s : String) : t ≠ ofString s := by
  rintro rfl
  rw [text?_ofString] at h
  cases h

theorem ofString_inj {s s' : String} : ofString s = ofString s' ↔ s = s' := by
  rw [← text?_eq_some_iff, text?_ofString, Option.some.injEq, eq_comm]

end OsText

namespace Environment

theorem var?_eq_some_iff {env : Environment} {key value : String} :
    env.var? key = some value ↔ env.held? key = some (.ofString value) := by
  simp [var?, Option.bind_eq_some_iff, OsText.text?_eq_some_iff]

/-- What a variable holds when values stand behind those that are seen. -/
def behind? (env : Environment) (value? : String → Option String) (name : OsText) : Option OsText :=
  (name.text?.bind fun key => ((env.var? key).or (value? key)).map .ofString).or (env.get? name)

theorem behind?_ofString (env : Environment) (value? : String → Option String) (key : String) :
    env.behind? value? (.ofString key) =
      (((env.var? key).or (value? key)).map .ofString).or (env.held? key) := by
  rw [behind?, OsText.text?_ofString, Option.bind_some, held?]

theorem behind?_eq_get? {env : Environment} {value? : String → Option String} {name : OsText}
    (h : ∀ key, name = .ofString key → env.var? key = none → value? key = none) :
    env.behind? value? name = env.get? name := by
  unfold behind?
  cases hname : name.text? with
  | none => rfl
  | some key =>
    obtain rfl := OsText.text?_eq_some_iff.mp hname
    rw [Option.bind_some]
    cases hvalue : env.var? key with
    | none => simp [h key rfl hvalue]
    | some value =>
      have hheld : env.get? (.ofString key) = _ := var?_eq_some_iff.mp hvalue
      simp [hheld]

/-- A value behind the others takes the place of one that is no Unicode. -/
theorem behind?_ne_iff {env : Environment} {value? : String → Option String} {name old : OsText}
    (hold : env.get? name = some old) : env.behind? value? name ≠ some old ↔
      old.text? = none ∧ ∃ key, name = .ofString key ∧ (value? key).isSome := by
  cases hname : name.text? with
  | none => simp [behind?, hname, hold, OsText.ne_ofString hname]
  | some key =>
    obtain rfl := OsText.text?_eq_some_iff.mp hname
    have hheld : env.held? key = some old := hold
    have hseen : env.var? key = old.text? := by rw [var?, hheld, Option.bind_some]
    rw [behind?_ofString, hheld, hseen]
    cases htext : old.text? with
    | some value => simp [OsText.text?_eq_some_iff.mp htext]
    | none =>
      cases hvalue : value? key with
      | none => simp [OsText.ofString_inj, hvalue]
      | some value => simp [OsText.ofString_inj, hvalue, (OsText.ne_ofString htext value).symm]

theorem isSome_behind?_iff {env : Environment} {value? : String → Option String} {name : OsText} :
    (env.behind? value? name).isSome ↔
      (env.get? name).isSome ∨ ∃ key, name = .ofString key ∧ (value? key).isSome := by
  cases hold : env.get? name with
  | some old => simp [behind?, hold]
  | none =>
    cases hname : name.text? with
    | none => simp [behind?, hname, hold, OsText.ne_ofString hname]
    | some key =>
      obtain rfl := OsText.text?_eq_some_iff.mp hname
      have hheld : env.held? key = none := hold
      have hunseen : env.var? key = none := by rw [var?, hheld, Option.bind_none]
      simp [behind?_ofString, hheld, hunseen, OsText.ofString_inj]

section

variable {env next : Environment} {value? : String → Option String}

theorem var?_of_behind (h : ∀ name, next.get? name = env.behind? value? name) (key : String) :
    next.var? key = (env.var? key).or (value? key) := by
  rw [var?, held?, h, behind?_ofString]
  cases hvalue : (env.var? key).or (value? key) with
  | some value => simp
  | none => exact (Option.or_eq_none_iff.mp hvalue).1

/-- Values that stand behind those of an environment that has values behind it stand behind both. -/
theorem behind?_of_behind (h : ∀ name, next.get? name = env.behind? value? name)
    (more? : String → Option String) (name : OsText) :
    next.behind? more? name = env.behind? (fun key => (value? key).or (more? key)) name := by
  cases hname : name.text? with
  | none => simp [behind?, hname, h]
  | some key =>
    obtain rfl := OsText.text?_eq_some_iff.mp hname
    rw [behind?_ofString, behind?_ofString, var?_of_behind h, Option.or_assoc, held?, h,
      behind?_ofString]
    cases hvalue : (env.var? key).or ((value? key).or (more? key)) with
    | some value => rfl
    | none =>
      obtain ⟨hseen, hbehind⟩ := Option.or_eq_none_iff.mp hvalue
      rw [hseen, (Option.or_eq_none_iff.mp hbehind).1]
      rfl

end

end Environment

namespace Dotenv

/-- The value that an entry has for a variable. -/
def valueFor? (key : String) (e : String × String) : Option String :=
  if e.1 = key then some e.2 else none

/-- The value that a line has for a variable. -/
def valueIn? (key : String) (line : List Char) : Option String := entry? line >>= valueFor? key

/-- The value in the first line of a file that sets a variable. -/
def definition? (content : Option (List Char)) (key : String) : Option String :=
  content.bind fun text => (Text.lines text).findSome? (valueIn? key)

theorem valueFor?_eq_some_iff {key value : String} {e : String × String} :
    valueFor? key e = some value ↔ e = (key, value) := by
  obtain ⟨name, v⟩ := e
  by_cases h : name = key
  · simp [valueFor?, h]
  · simp [valueFor?, h]

/-- The variables with a value in a file are those that one of its lines sets. -/
theorem isSome_definition?_iff {content : Option (List Char)} {key : String} :
    (definition? content key).isSome ↔
      ∃ text ∈ content, ∃ line ∈ Text.lines text, ∃ value, entry? line = some (key, value) := by
  have hline : ∀ line, (valueIn? key line).isSome ↔ ∃ value, entry? line = some (key, value) := by
    simp [valueIn?, Option.isSome_iff_exists, Option.bind_eq_some_iff, valueFor?_eq_some_iff]
  cases content with
  | none => simp [definition?]
  | some text =>
    rw [definition?, Option.bind_some, List.findSome?_isSome_iff]
    simp only [hline, Option.mem_some_iff, exists_eq_left']

theorem findSome?_filterMap_entries (lines : List (List Char)) (key : String) :
    (lines.filterMap entry?).findSome? (valueFor? key) = lines.findSome? (valueIn? key) := by
  rw [← List.head?_filterMap, List.filterMap_filterMap, List.head?_filterMap]
  rfl

theorem findSome?_entries (text : List Char) (key : String) :
    (entries text).findSome? (valueFor? key) = definition? (some text) key :=
  findSome?_filterMap_entries _ key

/-- An entry sets its variable unless that is seen to be set, and leaves the others; if the
operating system does not take the variable, loading crashes. -/
theorem load_cons (env : Environment) (e : String × String) (es : List (String × String)) :
    (∃ next, load env (e :: es) = load next es ∧
      (∀ name, next.get? name = env.behind? (valueFor? · e) name) ∧
      (env.var? e.1 = none → isSettable e.1 e.2 = true)) ∨
    (load env (e :: es) = .crashed env ∧ env.var? e.1 = none ∧ isSettable e.1 e.2 = false) := by
  obtain ⟨key, value⟩ := e
  have hother : ∀ key', key' ≠ key → valueFor? key' (key, value) = none := fun key' hkey =>
    if_neg (Ne.symm hkey)
  cases hold : env.var? key with
  | some old =>
    refine .inl ⟨env, by rw [load, hold]; rfl, fun name => ?_, by simp⟩
    rw [Environment.behind?_eq_get?]
    rintro key' rfl hunseen
    refine hother key' fun hkey => ?_
    rw [hkey, hold] at hunseen
    cases hunseen
  | none =>
    cases hsettable : isSettable key value with
    | true =>
      refine .inl ⟨env.set key value, by rw [load, hold, hsettable]; rfl, fun name => ?_,
        fun _ => rfl⟩
      rw [Environment.set, Roster.get?_insert]
      split
      · next hname =>
        rw [hname, Environment.behind?_ofString, hold, valueFor?, if_pos rfl]
        rfl
      · next hname =>
        refine (Environment.behind?_eq_get? fun key' hkey' _ => hother key' ?_).symm
        rintro rfl
        exact hname hkey'
    | false => exact .inr ⟨by rw [load, hold, hsettable]; rfl, rfl, rfl⟩

theorem findSome?_cons (key : String) (e : String × String) (es : List (String × String)) :
    (e :: es).findSome? (valueFor? key) = (valueFor? key e).or (es.findSome? (valueFor? key)) := by
  rw [List.findSome?_cons]
  cases valueFor? key e <;> rfl

/-- The first entries for each variable stand behind the variables that are seen. -/
theorem get?_of_load {env loaded : Environment} {es : List (String × String)}
    (h : load env es = .complete loaded) (name : OsText) :
    loaded.get? name = env.behind? (fun key => es.findSome? (valueFor? key)) name := by
  -- an entry that comes later finds the variable set by the first one
  induction es generalizing env with
  | nil =>
    obtain rfl : env = loaded := Loaded.complete.inj h
    exact (Environment.behind?_eq_get? fun _ _ _ => rfl).symm
  | cons e es ih =>
    rcases load_cons env e es with ⟨next, hnext, hget, -⟩ | ⟨hcrash, -⟩
    · rw [ih (hnext.symm.trans h), Environment.behind?_of_behind hget]
      simp only [findSome?_cons]
    · cases hcrash.symm.trans h

/-- Loading comes to an end exactly if the operating system takes the variables that are not seen to
be set with the values in the first entries for them. -/
theorem load_complete_iff {env : Environment} {es : List (String × String)} :
    (∃ loaded, load env es = .complete loaded) ↔
      ∀ key value, env.var? key = none → es.findSome? (valueFor? key) = some value →
        isSettable key value = true := by
  induction es generalizing env with
  | nil =>
    constructor
    · rintro - key value - ⟨⟩
    · exact fun _ => ⟨env, rfl⟩
  | cons e es ih =>
    rcases load_cons env e es with ⟨next, hnext, hget, htaken⟩ | ⟨hcrash, hunset, hrefused⟩
    · rw [hnext, ih]
      refine forall_congr' fun key => forall_congr' fun value => ?_
      rw [Environment.var?_of_behind hget, findSome?_cons]
      cases hvalue : valueFor? key e with
      | none => rw [Option.or_none, Option.none_or]
      | some v =>
        -- the entry sets this variable, so the later ones do not, and this one is taken
        obtain rfl := valueFor?_eq_some_iff.mp hvalue
        constructor
        · rintro - hkey ⟨⟩
          exact htaken hkey
        · intro _ hkey
          simp at hkey
    · rw [hcrash]
      constructor
      · rintro ⟨loaded, ⟨⟩⟩
      · intro hall
        have htaken := hall e.1 e.2 hunset (by rw [findSome?_cons, valueFor?, if_pos rfl]; rfl)
        rw [hrefused] at htaken
        cases htaken

theorem get?_of_loadFile {env loaded : Environment} {content : Option (List Char)}
    (h : loadFile env content = .complete loaded) (name : OsText) :
    loaded.get? name = env.behind? (definition? content) name := by
  cases content with
  | none =>
    obtain rfl : env = loaded := Loaded.complete.inj h
    exact (Environment.behind?_eq_get? fun _ _ _ => rfl).symm
  | some text =>
    rw [get?_of_load h]
    simp only [findSome?_entries]

theorem loadFile_complete_iff {env : Environment} {content : Option (List Char)} :
    (∃ loaded, loadFile env content = .complete loaded) ↔
      ∀ key value, env.var? key = none → definition? content key = some value →
        isSettable key value = true := by
  cases content with
  | none =>
    constructor
    · rintro - key value - ⟨⟩
    · exact fun _ => ⟨env, rfl⟩
  | some text =>
    simp only [← findSome?_entries]
    exact load_complete_iff

end Dotenv

namespace Config

/-- A setting that is a number below a bound, and the variable that it is read from. -/
structure NumberSetting where
  key : String
  bound : Nat
  value : Config → Nat

def numberSettings : List NumberSetting := [
  ⟨"SIMPLISAFE_REFRESH_INTERVAL", UInt64.size, (·.account.refreshIntervalSecs.toNat)⟩,
  ⟨"FFMPEG_GRAB_TIMEOUT", UInt64.size, (·.ffmpeg.grabTimeoutSecs.toNat)⟩,
  ⟨"SENSOR_CLEAR_DELAY", UInt64.size, (·.sensors.clearDelaySecs.toNat)⟩,
  ⟨"MQTT_BROKER_PORT", UInt16.size, (·.mqtt.brokerPort.toNat)⟩]

theorem lt_of_numberBelow? {bound n : Nat} {value : Option String}
    (h : numberBelow? bound value = some n) : n < bound := by
  obtain ⟨s, -, hs⟩ := Option.bind_eq_some_iff.mp h
  exact of_decide_eq_true (Option.filter_eq_some_iff.mp hs).2

theorem toNat_uint64Or (value : Option String) (default : UInt64) :
    (uint64Or value default).toNat = (numberBelow? UInt64.size value).getD default.toNat := by
  unfold uint64Or
  cases hn : numberBelow? UInt64.size value with
  | none => rfl
  | some n => exact UInt64.toNat_ofNat_of_lt (lt_of_numberBelow? hn)

theorem toNat_uint16Or (value : Option String) (default : UInt16) :
    (uint16Or value default).toNat = (numberBelow? UInt16.size value).getD default.toNat := by
  unfold uint16Or
  cases hn : numberBelow? UInt16.size value with
  | none => rfl
  | some n => exact UInt16.toNat_ofNat_of_lt (lt_of_numberBelow? hn)

/-- A number is what its variable says, if it says a number that is not too great, and stays
else. -/
theorem NumberSetting.value_override {s : NumberSetting} (hs : s ∈ numberSettings) (c : Config)
    (lookup : String → Option String) :
    s.value (c.override lookup) = (numberBelow? s.bound (lookup s.key)).getD (s.value c) := by
  simp only [numberSettings, List.mem_cons, List.not_mem_nil, or_false] at hs
  rcases hs with rfl | rfl | rfl | rfl
  · exact toNat_uint64Or _ _
  · exact toNat_uint64Or _ _
  · exact toNat_uint64Or _ _
  · exact toNat_uint16Or _ _

/-- The numbers of the default configuration do not depend on the directory. -/
theorem NumberSetting.value_default {s : NumberSetting} (hs : s ∈ numberSettings)
    (dir dir' : Option OsText) : s.value (default dir) = s.value (default dir') := by
  simp only [numberSettings, List.mem_cons, List.not_mem_nil, or_false] at hs
  rcases hs with rfl | rfl | rfl | rfl <;> rfl

end Config

namespace Dotenv

/-- Of every environment and every file, byte by byte, and of none: loading ends without a crash
exactly if the operating system takes the variables that are not seen to be set with the values in
the first lines that set them.  Then a variable that was set loses its value exactly if this was no
Unicode and the file sets the variable; a variable that is not seen to be set has the value in the
first line that sets it; and no other variables are added, and none are removed.  A file that is no
text in UTF-8 has no lines.  The configuration is the one for the variables seen in the environment
with the file behind them, and what the others hold behind that; of a number that is seen in the
environment it has what is read there, or the default if none can be, whatever the file says. -/
theorem file_behind_seen_variables (env : Environment) (file : Option Bytes)
    (accountHome : Option OsText) :
    let content := file.bind Text.decode
    ((∃ loaded, loadFile env content = .complete loaded) ↔
      ∀ key value, env.var? key = none → definition? content key = some value →
        isSettable key value = true) ∧
    ∀ loaded, loadFile env content = .complete loaded →
      let config := Config.ofEnvironment loaded accountHome
      (∀ name old, env.get? name = some old → (loaded.get? name ≠ some old ↔
        old.text? = none ∧ ∃ key, name = .ofString key ∧ (definition? content key).isSome)) ∧
      (∀ key value, env.var? key = none → definition? content key = some value →
        loaded.held? key = some (.ofString value)) ∧
      (∀ name, name ∈ loaded.keys ↔ name ∈ env.keys ∨ ∃ key, name = .ofString key ∧
        ∃ text ∈ content, ∃ line ∈ Text.lines text, ∃ value, entry? line = some (key, value)) ∧
      config = Config.ofLookup (fun key =>
        (((env.var? key).or (definition? content key)).map .ofString).or (env.held? key))
          accountHome ∧
      ∀ s ∈ Config.numberSettings, ∀ dir,
        s.value config =
          (Config.numberBelow? s.bound ((env.var? s.key).or (definition? content s.key))).getD
            (s.value (.default dir)) := by
  intro content
  refine ⟨loadFile_complete_iff, fun loaded h => ?_⟩
  have hget := get?_of_loadFile h
  refine ⟨fun name old hold => ?_, fun key value hunseen hvalue => ?_, fun name => ?_, ?_,
    fun s hs dir => ?_⟩
  · rw [hget]
    exact Environment.behind?_ne_iff hold
  · rw [Environment.held?, hget, Environment.behind?_ofString, hunseen, hvalue]
    rfl
  · rw [← Roster.isSome_get?_iff, ← Roster.isSome_get?_iff, hget, Environment.isSome_behind?_iff]
    simp only [isSome_definition?_iff]
  · refine congrArg (Config.ofLookup · accountHome) (funext fun key => ?_)
    exact (hget _).trans (Environment.behind?_ofString _ _ key)
  · rw [← Environment.var?_of_behind hget,
      s.value_default hs dir (Config.directory? loaded.held? accountHome)]
    exact s.value_override hs _ loaded.var?

/-- An environment with a home directory, a path that is no Unicode and a delay that is no
number. -/
def staleEnvironment : Environment :=
  let home : Environment := Roster.empty.insert (.ofString "HOME") (.ofString "/home/user")
  (home.insert (.ofString "SIMPLISAFE_SNAPSHOT") ⟨[0xFF]⟩).insert (.ofString "SENSOR_CLEAR_DELAY")
    (.ofString "soon")

/-- A file that sets variables of the environment, and another one twice. -/
def busyFile : Bytes := Text.encode
  "SENSOR_CLEAR_DELAY=5\n# HOME=/root\nMQTT_BROKER_PORT = 1884\nMQTT_BROKER_PORT=\"1\"".toList

theorem file_behind_seen_variables_busyFile :
    let content := (some busyFile).bind Text.decode
    let loaded := staleEnvironment.set "MQTT_BROKER_PORT" "1884"
    let config := Config.ofEnvironment loaded none
    loadFile staleEnvironment content = .complete loaded ∧
      loaded.get? (.ofString "SIMPLISAFE_SNAPSHOT") = some ⟨[0xFF]⟩ ∧
      loaded.get? (.ofString "SENSOR_CLEAR_DELAY") = some (.ofString "soon") ∧
      config.sensors.clearDelaySecs.toNat = 30 ∧ config.mqtt.brokerPort.toNat = 1884 := by
  intro content loaded config
  have hload : loadFile staleEnvironment content = .complete loaded := by decide +kernel
  obtain ⟨hlost, -, -, -, hnumber⟩ :=
    (file_behind_seen_variables staleEnvironment (some busyFile) none).2 loaded hload
  have hpath : staleEnvironment.get? (.ofString "SIMPLISAFE_SNAPSHOT") = some ⟨[0xFF]⟩ := by
    decide +kernel
  have hdelay :
      staleEnvironment.get? (.ofString "SENSOR_CLEAR_DELAY") = some (.ofString "soon") := by
    decide +kernel
  refine ⟨hload, ?_, ?_, ?_, ?_⟩
  · by_contra h
    obtain ⟨-, key, hkey, hdefined⟩ := (hlost _ _ hpath).mp h
    obtain rfl := OsText.ofString_inj.mp hkey
    have hundefined : definition? content "SIMPLISAFE_SNAPSHOT" = none := by decide +kernel
    rw [hundefined] at hdefined
    cases hdefined
  · by_contra h
    exact OsText.ne_ofString ((hlost _ _ hdelay).mp h).1 "soon" rfl
  · have hunread : Config.numberBelow? UInt64.size ((staleEnvironment.var? "SENSOR_CLEAR_DELAY").or
        (definition? content "SENSOR_CLEAR_DELAY")) = none := by decide +kernel
    have hdefault := hnumber ⟨"SENSOR_CLEAR_DELAY", UInt64.size, (·.sensors.clearDelaySecs.toNat)⟩
      (by simp [Config.numberSettings]) none
    rw [hunread] at hdefault
    exact hdefault
  · have hread : Config.numberBelow? UInt16.size ((staleEnvironment.var? "MQTT_BROKER_PORT").or
        (definition? content "MQTT_BROKER_PORT")) = some 1884 := by decide +kernel
    have hport := hnumber ⟨"MQTT_BROKER_PORT", UInt16.size, (·.mqtt.brokerPort.toNat)⟩
      (by simp [Config.numberSettings]) none
    rw [hread] at hport
    exact hport

/-- What is no Unicode counts as not there.  A delay that is set in the environment to such a value
is replaced by the one of the file, and nothing is loaded of a file with such a byte in a comment,
though its first line sets a variable. -/
theorem unreadable_taken_for_absent :
    let env : Environment := Roster.empty.insert (.ofString "SENSOR_CLEAR_DELAY") ⟨[0xFF]⟩
    let loaded : Environment := env.set "SENSOR_CLEAR_DELAY" "5"
    let content := Text.decode (Text.encode "SENSOR_CLEAR_DELAY=5".toList)
    let commented := Text.encode "A=1\n#".toList ++ [0xFF]
    (loadFile env content = .complete loaded ∧
      env.held? "SENSOR_CLEAR_DELAY" = some ⟨[0xFF]⟩ ∧
      loaded.held? "SENSOR_CLEAR_DELAY" = some (.ofString "5") ∧
      (Config.ofEnvironment env none).sensors.clearDelaySecs = 30 ∧
      (Config.ofEnvironment loaded none).sensors.clearDelaySecs = 5) ∧
    entry? "A=1".toList = some ("A", "1") ∧
      loadFile Roster.empty (Text.decode commented) = .complete Roster.empty := by
  decide +kernel

end Dotenv

end AlarmBridge
