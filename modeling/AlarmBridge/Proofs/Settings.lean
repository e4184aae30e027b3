import AlarmBridge.Proofs.Precedence

/-! The configuration that an environment spells out.  Each setting has a variable of its own and
depends on no other; a configuration is read back from its settings, however its numbers are
written, and a variable that holds no number of the right size leaves the default. -/

set_option autoImplicit false

namespace AlarmBridge

namespace Decimal

/-- A plus sign or none, and digits that stand for a number. -/
def WholeText (n : Nat) (s : List Char) : Prop :=
  ∃ ds : List Char, (s = ds ∨ s = '+' :: ds) ∧ ds ≠ [] ∧ (∀ c ∈ ds, c.isDigit = true) ∧
    Nat.ofDigitChars 10 ds 0 = n

/-- A plus sign or none, zeros, and a number in decimal. -/
def Written (n : Nat) (s : List Char) : Prop :=
  ∃ zeros : Nat, let digits := List.replicate zeros '0' ++ Nat.toDigits 10 n
    s = digits ∨ s = '+' :: digits

theorem digitsValue_eq (ds : List Char) : digitsValue ds = Nat.ofDigitChars 10 ds 0 := by
  unfold digitsValue Nat.ofDigitChars
  simp only [Nat.mul_comm]

theorem ite_digits_eq_some_iff {ds : List Char} {n : Nat} :
    (if ds.isEmpty ∨ !ds.all Char.isDigit then none else some (digitsValue ds)) = some n ↔
      ds ≠ [] ∧ (∀ c ∈ ds, c.isDigit = true) ∧ Nat.ofDigitChars 10 ds 0 = n := by
  rw [digitsValue_eq]
  split
  · next h =>
    simp only [List.isEmpty_iff, Bool.not_eq_true', List.all_eq_false] at h
    grind
  · next h =>
    simp_all

theorem whole?_of_head?_ne {s : List Char} (h : s.head? ≠ some '+') :
    whole? s = if s.isEmpty ∨ !s.all Char.isDigit then none else some (digitsValue s) := by
  cases s with
  | nil => rfl
  | cons c s =>
    have hc : c ≠ '+' := fun hc => h (congrArg some hc)
    simp only [whole?]
    split
    · next hplus => exact absurd (List.cons.inj hplus).1 hc
    · rfl

theorem whole?_eq_some_iff {s : List Char} {n : Nat} : whole? s = some n ↔ WholeText n s := by
  -- a sign is no digit, so that only what follows it can be the digits
  by_cases hsign : s.head? = some '+'
  · obtain ⟨rest, rfl⟩ := List.head?_eq_some_iff.mp hsign
    refine ite_digits_eq_some_iff.trans ⟨fun h => ⟨rest, .inr rfl, h⟩, ?_⟩
    rintro ⟨ds, rfl | hrest, hne, hall, hn⟩
    · exact absurd (hall '+' List.mem_cons_self) (by decide)
    · exact (List.cons.inj hrest).2 ▸ ⟨hne, hall, hn⟩
  · rw [whole?_of_head?_ne hsign, ite_digits_eq_some_iff]
    refine ⟨fun h => ⟨s, .inl rfl, h⟩, ?_⟩
    rintro ⟨ds, rfl | rfl, h⟩
    · exact h
    · exact absurd rfl hsign

theorem Written.wholeText {s : List Char} {n : Nat} (h : Written n s) : WholeText n s := by
  obtain ⟨zeros, hs⟩ := h
  refine ⟨_, hs, by simp [Nat.toDigits_ne_nil], fun c hc => ?_, ?_⟩
  · rcases List.mem_append.mp hc with hc | hc
    · rw [List.eq_of_mem_replicate hc]
      rfl
    · exact Nat.isDigit_of_mem_toDigits (by decide) (by decide) hc
  · rw [Nat.ofDigitChars_append, Nat.ofDigitChars_replicate_zero, Nat.mul_zero,
      Nat.ofDigitChars_toDigits (by decide) (by decide)]

end Decimal

namespace Config

theorem numberBelow?_eq_some_iff {bound n : Nat} {value : Option String} :
    numberBelow? bound value = some n ↔
      ∃ text, value = some text ∧ Decimal.WholeText n text.toList ∧ n < bound := by
  simp [numberBelow?, Option.bind_eq_some_iff, Option.filter_eq_some_iff,
    Decimal.whole?_eq_some_iff]

theorem NumberSetting.value_lt {s : NumberSetting} (hs : s ∈ numberSettings) (c : Config) :
    s.value c < s.bound := by
  simp only [numberSettings, List.mem_cons, List.not_mem_nil, or_false] at hs
  rcases hs with rfl | rfl | rfl | rfl
  · exact UInt64.toNat_lt_size _
  · exact UInt64.toNat_lt_size _
  · exact UInt64.toNat_lt_size _
  · exact UInt16.toNat_lt_size _

/-- A setting and the variable that it is read from: a path, a text, a text that may be missing, or
a number. -/
inductive Setting
  | path (key : String) (value : Config → OsText)
  | text (key : String) (value : Config → String)
  | optional (key : String) (value : Config → Option String)
  | number (s : NumberSetting)

namespace Setting

def key : Setting → String
  | path key _ => key
  | text key _ => key
  | optional key _ => key
  | number s => s.key

/-- Two configurations have the setting in common. -/
def Same (c c' : Config) : Setting → Prop
  | path _ value => value c = value c'
  | text _ value => value c = value c'
  | optional _ value => value c = value c'
  | number s => s.value c = s.value c'

/-- What a variable holds, if it is set, spells out the setting of a configuration. -/
def Spelled (c : Config) (held : Option String) : Setting → Prop
  | path _ value => held.map .ofString = some (value c)
  | text _ value => held = some (value c)
  | optional _ value => held = value c
  | number s => ∃ text, held = some text ∧ Decimal.Written (s.value c) text.toList

end Setting

/-- The settings that are texts. -/
def textSettings : List Setting := [
  .path "SIMPLISAFE_SNAPSHOT" (·.account.snapshotPath),
  .optional "SIMPLISAFE_PUSH_URL" (·.account.pushUrl),
  .optional "SIMPLISAFE_ACCESS_TOKEN" (·.account.accessToken),
  .text "FFMPEG_BINARY" (·.ffmpeg.binary),
  .text "MQTT_BROKER_HOST" (·.mqtt.brokerHost),
  .text "MQTT_CLIENT_ID" (·.mqtt.clientId),
  .optional "MQTT_USERNAME" (·.mqtt.username),
  .optional "MQTT_PASSWORD" (·.mqtt.password),
  .text "MQTT_TOPIC_PREFIX" (·.mqtt.topicBase)]

def settings : List Setting := textSettings ++ numberSettings.map .number

theorem nodup_settings : (settings.map Setting.key).Nodup := by decide +kernel

/-- The settings are all that a configuration has, but for the content type of streams. -/
theorem eq_of_same {c c' : Config}
    (htype : c.ffmpeg.streamContentType = c'.ffmpeg.streamContentType)
    (h : ∀ s ∈ settings, s.Same c c') : c = c' := by
  obtain ⟨⟨_, _, _, _⟩, ⟨_, _, _⟩, ⟨_⟩, ⟨_, _, _, _, _, _⟩⟩ := c
  obtain ⟨⟨_, _, _, _⟩, ⟨_, _, _⟩, ⟨_⟩, ⟨_, _, _, _, _, _⟩⟩ := c'
  simp only [settings, textSettings, numberSettings, List.map_cons, List.map_nil, List.cons_append,
    List.nil_append, List.forall_mem_cons, Setting.Same, UInt64.toNat_inj, UInt16.toNat_inj,
    List.not_mem_nil, false_implies, implies_true, and_true] at h htype
  simp [h, htype]

theorem mem_settings_iff {s : Setting} :
    s ∈ settings ↔ s ∈ textSettings ∨ ∃ n ∈ numberSettings, .number n = s := by
  simp [settings]

/-- A setting depends on its variable only, and on the default. -/
theorem Setting.same_override {s : Setting} (hs : s ∈ settings)
    {lookup lookup' : String → Option String} (hkey : lookup s.key = lookup' s.key) (c : Config) :
    s.Same (c.override lookup) (c.override lookup') := by
  have htext : ∀ s ∈ textSettings, lookup s.key = lookup' s.key →
      s.Same (c.override lookup) (c.override lookup') := by
    simp +contextual [textSettings, Same, override, key]
  rcases mem_settings_iff.mp hs with hs | ⟨n, hn, rfl⟩
  · exact htext s hs hkey
  · have hkey : lookup n.key = lookup' n.key := hkey
    show n.value _ = n.value _
    rw [n.value_override hn, n.value_override hn, hkey]

theorem NumberSetting.value_of_text {s : NumberSetting} (hs : s ∈ numberSettings) {n : Nat}
    {text : String} (hn : Decimal.WholeText n text.toList) (hfits : n < s.bound) (c : Config)
    {lookup : String → Option String} (hkey : lookup s.key = some text) :
    s.value (c.override lookup) = n := by
  rw [s.value_override hs, numberBelow?_eq_some_iff.mpr ⟨text, hkey, hn, hfits⟩, Option.getD_some]

/-- A setting that its variable spells out is read so. -/
theorem Setting.Spelled.same {s : Setting} (hs : s ∈ settings) {lookup : String → Option String}
    {c : Config} (h : s.Spelled c (lookup s.key)) (dir : Option OsText) :
    s.Same ((default dir).override lookup) c := by
  have htext : ∀ s ∈ textSettings, s.Spelled c (lookup s.key) →
      s.Same ((default dir).override lookup) c := by
    simp +contextual [textSettings, Same, Spelled, override, default, key]
  rcases mem_settings_iff.mp hs with hs | ⟨n, hn, rfl⟩
  · exact htext s hs h
  · obtain ⟨text, hkey, hwritten⟩ := h
    exact n.value_of_text hn hwritten.wholeText (n.value_lt hn c) _ hkey

theorem directory?_congr {held? held?' : String → Option OsText} (home : Option OsText)
    (hconfig : held? "XDG_CONFIG_HOME" = held?' "XDG_CONFIG_HOME")
    (hhome : held? "HOME" = held?' "HOME") : directory? held? home = directory? held?' home := by
  simp only [directory?, home?, hconfig, hhome]

theorem Setting.key_ne {s : Setting} (hs : s ∈ settings) :
    s.key ≠ "XDG_CONFIG_HOME" ∧ s.key ≠ "HOME" := by
  have hall : ∀ key ∈ settings.map Setting.key, key ≠ "XDG_CONFIG_HOME" ∧ key ≠ "HOME" := by
    decide +kernel
  exact hall _ (List.mem_map_of_mem hs)

/-- A number that a variable holds, if it holds one of the right size. -/
def NumberSetting.Says (s : NumberSetting) (env : Environment) (n : Nat) : Prop :=
  ∃ text, env.var? s.key = some text ∧ Decimal.WholeText n text.toList ∧ n < s.bound

theorem NumberSetting.says_iff {s : NumberSetting} {env : Environment} {n : Nat} :
    s.Says env n ↔ numberBelow? s.bound (env.var? s.key) = some n :=
  numberBelow?_eq_some_iff.symm

/-- A number is what its variable says or, if it says none, the default. -/
theorem NumberSetting.value_eq_iff {s : NumberSetting} (hs : s ∈ numberSettings) {env : Environment}
    {home : Option OsText} {n : Nat} :
    s.value (ofEnvironment env home) = n ↔
      s.Says env n ∨ (∀ m, ¬s.Says env m) ∧ ∀ dir, n = s.value (default dir) := by
  have hvalue : s.value (ofEnvironment env home) = _ :=
    s.value_override hs (default (directory? env.held? home)) env.var?
  simp only [says_iff]
  rw [hvalue]
  cases numberBelow? s.bound (env.var? s.key) with
  | none =>
    simp only [Option.getD_none, s.value_default hs _ none]
    simp [eq_comm]
  | some m => simp

/-- Of every environment: if it spells out a configuration, its numbers with a plus sign or not and
with any zeros in front, it is read as that one.  A number is what its variable says, or the default
if that says none that fits, and each setting depends on its own variable only.  The settings are
all that a configuration has but for the content type of streams, which is the default. -/
theorem environment_spelled_out (env : Environment) (accountHome : Option OsText) :
    (settings.map Setting.key).Nodup ∧
    (∀ c c' : Config, c.ffmpeg.streamContentType = c'.ffmpeg.streamContentType →
      (∀ s ∈ settings, s.Same c c') → c = c') ∧
    (ofEnvironment env accountHome).ffmpeg.streamContentType = Ffmpeg.defaultContentType ∧
    (∀ c : Config, c.ffmpeg.streamContentType = Ffmpeg.defaultContentType →
      (∀ s ∈ settings, s.Spelled c (env.var? s.key)) → ofEnvironment env accountHome = c) ∧
    (∀ s ∈ numberSettings, ∀ n, s.value (ofEnvironment env accountHome) = n ↔
      s.Says env n ∨ (∀ m, ¬s.Says env m) ∧ ∀ dir, n = s.value (default dir)) ∧
    ∀ s ∈ settings, ∀ env' : Environment,
      (∀ name, name ≠ .ofString s.key → env'.get? name = env.get? name) →
        ∀ t ∈ settings, t.key ≠ s.key →
          t.Same (ofEnvironment env' accountHome) (ofEnvironment env accountHome) := by
  refine ⟨nodup_settings, fun c c' => eq_of_same, rfl, fun c htype hspelled => ?_, fun s hs n => ?_,
    fun s hs env' hothers t ht hne => ?_⟩
  · exact eq_of_same htype.symm fun s hs => (hspelled s hs).same hs _
  · exact NumberSetting.value_eq_iff hs
  · have hheld : ∀ key, key ≠ s.key → env'.held? key = env.held? key := fun key hkey =>
      hothers _ fun h => hkey (OsText.ofString_inj.mp h)
    obtain ⟨hconfig, hhome⟩ := Setting.key_ne hs
    have hdir := directory?_congr accountHome (hheld _ hconfig.symm) (hheld _ hhome.symm)
    have hseen : env'.var? t.key = env.var? t.key := congrArg (·.bind OsText.text?) (hheld _ hne)
    unfold ofEnvironment ofLookup
    rw [hdir]
    exact Setting.same_override ht hseen _

/-- A configuration with numbers at the ends of their ranges. -/
def wideConfig : Config where
  account := ⟨.ofString "/var/dump.json", some "wss://push", none, 18446744073709551615⟩
  ffmpeg := ⟨"ffmpeg 7", 0, Ffmpeg.defaultContentType⟩
  sensors := ⟨45⟩
  mqtt := ⟨"", 65535, "bridge", some "user", some "", "home"⟩

/-- An environment that spells it out. -/
def wideEnvironment : Environment := [
  ("SIMPLISAFE_SNAPSHOT", "/var/dump.json"), ("SIMPLISAFE_PUSH_URL", "wss://push"),
  ("SIMPLISAFE_REFRESH_INTERVAL", "18446744073709551615"), ("FFMPEG_BINARY", "ffmpeg 7"),
  ("FFMPEG_GRAB_TIMEOUT", "000"), ("SENSOR_CLEAR_DELAY", "+0045"), ("MQTT_BROKER_HOST", ""),
  ("MQTT_BROKER_PORT", "+65535"), ("MQTT_CLIENT_ID", "bridge"), ("MQTT_USERNAME", "user"),
  ("MQTT_PASSWORD", ""), ("MQTT_TOPIC_PREFIX", "home")].foldl (fun env e => env.set e.1 e.2) .empty

/-- It is read as that configuration, and with one digit more for the port only the port is
another. -/
theorem environment_spelled_out_wide :
    let other := wideEnvironment.set "MQTT_BROKER_PORT" "655350"
    ofEnvironment wideEnvironment none = wideConfig ∧
      (ofEnvironment other none).mqtt.brokerPort.toNat = 1883 ∧
      (ofEnvironment other none).mqtt.clientId = "bridge" := by
  intro other
  have hspelled : ∀ s ∈ settings, s.Spelled wideConfig (wideEnvironment.var? s.key) := by
    have htext : ∀ s ∈ textSettings, s.Spelled wideConfig (wideEnvironment.var? s.key) := by
      simp only [textSettings, List.forall_mem_cons, List.not_mem_nil, false_implies, implies_true,
        and_true, Setting.Spelled]
      decide +kernel
    intro s hs
    rcases mem_settings_iff.mp hs with hs | ⟨n, hn, rfl⟩
    · exact htext s hs
    · simp only [numberSettings, List.mem_cons, List.not_mem_nil, or_false] at hn
      rcases hn with rfl | rfl | rfl | rfl
      · exact ⟨"18446744073709551615", by decide +kernel, 0, .inl (by decide +kernel)⟩
      · exact ⟨"000", by decide +kernel, 2, .inl (by decide +kernel)⟩
      · exact ⟨"+0045", by decide +kernel, 2, .inr (by decide +kernel)⟩
      · exact ⟨"+65535", by decide +kernel, 0, .inr (by decide +kernel)⟩
  have hothers : ∀ name, name ≠ .ofString "MQTT_BROKER_PORT" →
      other.get? name = wideEnvironment.get? name := by
    intro name hname
    exact (Roster.get?_insert _ _ _ name).trans (if_neg hname)
  have hread := (environment_spelled_out wideEnvironment none).2.2.2.1 wideConfig rfl hspelled
  let port : NumberSetting := ⟨"MQTT_BROKER_PORT", UInt16.size, (·.mqtt.brokerPort.toNat)⟩
  have hport : port ∈ numberSettings := by simp [numberSettings, port]
  have hvalue : numberBelow? port.bound (other.var? port.key) = none := by decide +kernel
  have hnone : ∀ m, ¬port.Says other m := by
    intro m hm
    rw [NumberSetting.says_iff, hvalue] at hm
    cases hm
  have hclient := (environment_spelled_out wideEnvironment none).2.2.2.2.2 (.number port)
    (mem_settings_iff.mpr (.inr ⟨port, hport, rfl⟩)) other hothers
    (.text "MQTT_CLIENT_ID" (·.mqtt.clientId)) (by simp [settings, textSettings]) (by decide)
  refine ⟨hread, ?_, hclient.trans (congrArg (·.mqtt.clientId) hread)⟩
  exact ((environment_spelled_out other none).2.2.2.2.1 port hport 1883).mpr
    (.inr ⟨hnone, fun _ => rfl⟩)

end Config

end AlarmBridge
