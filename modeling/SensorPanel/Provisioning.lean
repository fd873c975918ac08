import SensorPanel.Library.Overwrite
import SensorPanel.Panel

/-!
# Provisioning a panel over its lives

`panel set` saves a setting and then prints whether it did, and a boot starts `main`
over again on the same flash, also between the two. What was saved last tells what
the next boot connects to and asks for. For each field this is the value of the last
`panel set` that was acknowledged, and the compile-time default where there was none
or that value is empty, unless a later one was cut off before its line. A worker that
runs keeps the values of its own boot.
-/

namespace SensorPanel

open Library

structure ShellLine where
  error : Bool
  text : Bytes
  deriving DecidableEq, Repr

def setAnswer (err : ℤ) : ShellLine :=
  if err ≠ 0 then ⟨true, ascii "Setting rejected: " ++ decimalSigned err⟩
  else ⟨false, ascii "Saved. Reboot to apply."⟩

/-- `set_config`: its result, the line it prints and the panel it leaves. -/
def setConfig (d : Device) (key : Option Bytes) (value : Option CString) (saved : ℤ) :
    Option (ℤ × ShellLine × Device) :=
  (configStoreSet d key value saved).map fun r => (r.1, setAnswer r.1, r.2)

/-- A line with the command it answers. -/
structure ShellAnswer where
  key : Option Bytes
  value : Option CString
  line : ShellLine
  deriving DecidableEq

def SetCommand.answer (command : SetCommand) : ShellAnswer :=
  ⟨command.key, command.value, setAnswer command.err⟩

/-- A boot from the flash as it is, or a step of the running panel. A boot is a
`panel reboot` or a power cycle, which may come at any moment. -/
inductive LifeAction
  | reboot (env : BootSurroundings) (uptime : ℕ)
  | act (a : PanelAction)

namespace LifeAction

def reboots : LifeAction → Bool
  | reboot _ _ => true
  | act _ => false

/-- Neither a boot nor a step of a `panel set`. -/
def quiet : LifeAction → Bool
  | reboot _ _ | act (.set _ _ _) | act .print => false
  | act _ => true

end LifeAction

/-- A step with what the shell prints. -/
abbrev LifeEvent := LifeAction × Option ShellAnswer

namespace Panel

def new : Panel := start ⟨Device.blank, 0, none, none, SensorState.boot, false⟩ 0

variable (parser : JsonParser) (arith : DoubleArith)

def live (p : Panel) : LifeAction → Option Panel
  | .reboot env uptime => (Boot.main p.device env).map fun b => start b uptime
  | .act a => step parser arith p a

def printed (p : Panel) : LifeAction → Option ShellAnswer
  | .act .print => p.shell.map SetCommand.answer
  | _ => none

def lives : Machine Panel LifeEvent := (Machine.ofFn (live parser arith)).observe printed

/-- A `panel set` that nothing comes between is `set_config`. -/
theorem setConfig_steps {p : Panel} (hidle : p.shell = none) {key : Option Bytes}
    {value : Option CString} {saved : ℤ} {r : ℤ × ShellLine × Device}
    (h : setConfig p.device key value saved = some r) : ∃ q,
      step parser arith p (.set key value saved) = some q ∧
      printed q (.act .print) = some ⟨key, value, r.2.1⟩ ∧
      step parser arith q .print = some { p with device := r.2.2 } := by
  obtain ⟨result, hresult, rfl⟩ := Option.map_eq_some_iff.mp h
  refine ⟨{ p with device := result.2, shell := some ⟨key, value, result.1⟩ }, ?_, rfl, ?_⟩
  · rw [step, if_pos hidle, hresult, Option.map_some]
  · simp only [step, Option.map_some, hidle]

end Panel

def saves : LifeEvent → Field → Option Bytes
  | (.act (.set key value saved), _), f =>
    match configStoreSetCheck key value with
    | .ok w => if saved = 0 ∧ w.dst = f then some w.value else none
    | .error _ => none
  | _, _ => none

/-- The value of a field that the shell acknowledges. -/
def acknowledges : LifeEvent → Field → Option Bytes
  | (.act .print, some answer), f =>
    if answer.line.text = ascii "Saved. Reboot to apply." ∧ answer.key = some f.key then
      answer.value.map CString.bytes
    else none
  | _, _ => none

/-- What a saved value comes back as. -/
def orDefault (f : Field) (value : Bytes) : Bytes :=
  if value = [] then (Settings.defaults f).value else value

/-- The values a boot takes if these were the writes to the flash. -/
def bootValues (writes : LifeEvent → Field → Option Bytes) (seen : List LifeEvent) (f : Field) :
    Bytes :=
  orDefault f (overwrite writes (fun _ => []) seen f)

/-- The values the next boot takes. -/
def inFlash : List LifeEvent → Field → Bytes := bootValues saves

/-- The values the next boot takes, as far as the shell tells. -/
def inForce : List LifeEvent → Field → Bytes := bootValues acknowledges

section BootValues

variable {writes : LifeEvent → Field → Option Bytes} {seen later : List LifeEvent} {f : Field}

theorem bootValues_concat (e : LifeEvent) : bootValues writes (seen ++ [e]) f =
    ((writes e f).map (orDefault f)).getD (bootValues writes seen f) := by
  rw [bootValues, overwrite_concat]
  cases writes e f <;> rfl

theorem bootValues_append (h : ∀ e ∈ later, writes e f = none) :
    bootValues writes (seen ++ later) f = bootValues writes seen f := by
  rw [bootValues, overwrite_append_of_none h]
  rfl

end BootValues

theorem LifeAction.quiet_saves {e : LifeEvent} (h : e.1.quiet = true) (f : Field) :
    saves e f = none ∧ acknowledges e f = none := by
  obtain ⟨a, answer⟩ := e
  cases a with
  | reboot env uptime => cases h
  | act a => cases a <;> first | exact ⟨rfl, rfl⟩ | cases h

/-- No error reads like an acknowledgement. -/
theorem rejection_ne (err : ℤ) :
    ascii "Setting rejected: " ++ decimalSigned err ≠ ascii "Saved. Reboot to apply." := by
  intro h
  have hstart := congrArg (List.take 2) h
  rw [List.take_append_of_le_length (by decide)] at hstart
  exact absurd hstart (by decide)

theorem acknowledges_rejected (key : Option Bytes) (value : Option CString) {err : ℤ}
    (herr : err ≠ 0) (f : Field) :
    acknowledges (.act .print, some (SetCommand.answer ⟨key, value, err⟩)) f = none := by
  simp [acknowledges, SetCommand.answer, setAnswer, herr, rejection_ne]

/-- What a `panel set` saves is what its line acknowledges. -/
theorem saves_eq_acknowledges {settings : Settings} {store : SettingsStore} {key : Option Bytes}
    {value : Option CString} {saved : ℤ} {r : ℤ × Device}
    (h : configStoreSet ⟨settings.config, store⟩ key value saved = some r) (f : Field) :
    saves (.act (.set key value saved), none) f =
      acknowledges (.act .print, some (SetCommand.answer ⟨key, value, r.1⟩)) f := by
  rcases configStoreSet_config settings store key value saved with
    ⟨hcheck, hstore⟩ | ⟨w, hw, hcheck, hstore⟩
  · obtain rfl := Option.some.inj (hstore.symm.trans h)
    rw [acknowledges_rejected key value (show -EINVAL ≠ 0 by decide)]
    simp only [saves, hcheck]
  · by_cases hsaved : saved = 0
    · rw [if_pos hsaved] at hstore
      obtain rfl := Option.some.inj (hstore.symm.trans h)
      obtain ⟨g, v, rfl, rfl, -, -, rfl⟩ := configStoreSetCheck_eq_ok_iff.mp hcheck
      simp [saves, acknowledges, SetCommand.answer, setAnswer, hcheck, hsaved,
        Field.key_injective.eq_iff]
    · rw [if_neg hsaved] at hstore
      obtain rfl := Option.some.inj (hstore.symm.trans h)
      rw [acknowledges_rejected key value hsaved]
      simp only [saves, hcheck, hsaved, false_and, if_false]

/-- The flash brings back what was saved. -/
structure Remembers (d : Device) (seen : List LifeEvent) : Prop where
  config_eq : ∃ settings : Settings, d.config = settings.config
  loaded : ∃ kept, Holds d.store kept ∧ kept.Obeys ∧
    ∀ f, (kept.loaded Settings.defaults f).value = inFlash seen f

theorem new_remembers : Remembers Panel.new.device [] where
  config_eq := ⟨_, Settings.defaults_config.symm⟩
  loaded := ⟨fun _ => none, holds_empty, Session.start_models.obeys, fun f => by
    simp [Kept.loaded, inFlash, bootValues, orDefault]⟩

namespace Remembers

variable {d : Device} {seen : List LifeEvent}

theorem concat (h : Remembers d seen) {e : LifeEvent} (he : ∀ f, saves e f = none) :
    Remembers d (seen ++ [e]) := by
  obtain ⟨hconfig, kept, hholds, hobeys, hloaded⟩ := h
  refine ⟨hconfig, kept, hholds, hobeys, fun f => ?_⟩
  rw [inFlash, bootValues_concat, he, hloaded]
  rfl

theorem set (h : Remembers d seen) {key : Option Bytes} {value : Option CString} {saved : ℤ}
    {r : ℤ × Device} (hset : configStoreSet d key value saved = some r) :
    Remembers r.2 (seen ++ [(.act (.set key value saved), none)]) := by
  obtain ⟨config, store⟩ := d
  obtain ⟨settings, rfl : config = settings.config⟩ := h.config_eq
  rcases configStoreSet_config settings store key value saved with
    ⟨hcheck, hstore⟩ | ⟨w, hw, hcheck, hstore⟩
  · obtain rfl := Option.some.inj (hstore.symm.trans hset)
    exact h.concat fun f => by simp only [saves, hcheck]
  · by_cases hsaved : saved = 0
    · rw [if_pos hsaved] at hstore
      obtain rfl := Option.some.inj (hstore.symm.trans hset)
      obtain ⟨f, v, rfl, rfl, hlen, hrule, rfl⟩ := configStoreSetCheck_eq_ok_iff.mp hcheck
      obtain ⟨kept, hholds, hobeys, hloaded⟩ := h.loaded
      refine ⟨⟨_, rfl⟩, kept.save hw.setting, hholds.save hw.setting, hobeys.save hrule,
        fun g => ?_⟩
      rw [inFlash, bootValues_concat]
      by_cases hg : g = f
      · subst hg
        by_cases hnil : v.bytes = [] <;>
          simp [saves, hcheck, hsaved, orDefault, Kept.loaded, Kept.save,
            FieldWrite.Fits.setting, hnil]
      · simpa [saves, hcheck, Ne.symm hg, Kept.loaded, Kept.save, hg, inFlash] using hloaded g
    · rw [if_neg hsaved] at hstore
      obtain rfl := Option.some.inj (hstore.symm.trans hset)
      exact h.concat fun f => by simp only [saves, hcheck, hsaved, false_and, if_false]

end Remembers

/-- A boot has cut off a `panel set` of this field between its save and its line, and
nothing was acknowledged for the field since. -/
def CutOff (seen : List LifeEvent) (f : Field) : Prop :=
  ∃ past command between env uptime rest,
    seen = past ++ command :: between ++ (.reboot env uptime, none) :: rest ∧
    (saves command f).isSome = true ∧ (∀ e ∈ between, e.1.quiet = true) ∧
    ∀ e ∈ rest, acknowledges e f = none

/-- Each value that a boot after `seen` takes was acknowledged, or its command cut off. -/
def Explained (seen : List LifeEvent) (boot : LifeEvent) : Prop :=
  ∀ f, inFlash seen f = inForce seen f ∨ CutOff (seen ++ [boot]) f

/-- What is in flash between two commands of the shell. -/
def Settled (seen : List LifeEvent) : Prop := ∀ f, inFlash seen f = inForce seen f ∨ CutOff seen f

/-- The command whose line is to come was the last of the shell. -/
def UnderWay (seen : List LifeEvent) (command : SetCommand) : Prop :=
  ∃ past saved between,
    seen = past ++ (.act (.set command.key command.value saved), none) :: between ∧
    (∀ e ∈ between, e.1.quiet = true) ∧ Settled past ∧
    ∀ f, saves (.act (.set command.key command.value saved), none) f =
      acknowledges (.act .print, some command.answer) f

section Told

variable {seen later : List LifeEvent} {command : SetCommand} {f : Field}

theorem CutOff.append (h : CutOff seen f) (hlater : ∀ e ∈ later, acknowledges e f = none) :
    CutOff (seen ++ later) f := by
  obtain ⟨past, command, between, env, uptime, rest, rfl, hsaves, hquiet, hrest⟩ := h
  refine ⟨past, command, between, env, uptime, rest ++ later, by simp, hsaves, hquiet,
    fun e he => ?_⟩
  exact (List.mem_append.mp he).elim (hrest e) (hlater e)

theorem Settled.concat (h : Settled seen) {e : LifeEvent}
    (he : ∀ f, saves e f = none ∧ acknowledges e f = none) : Settled (seen ++ [e]) := by
  intro f
  rcases h f with heq | hcut
  · left
    rw [inFlash, inForce, bootValues_concat, bootValues_concat, (he f).1, (he f).2]
    exact heq
  · exact Or.inr (hcut.append (by simpa using (he f).2))

theorem UnderWay.concat (h : UnderWay seen command) {e : LifeEvent} (he : e.1.quiet = true) :
    UnderWay (seen ++ [e]) command := by
  obtain ⟨past, saved, between, rfl, hquiet, hsettled, hanswer⟩ := h
  refine ⟨past, saved, between ++ [e], by simp, fun x hx => ?_, hsettled, hanswer⟩
  rcases List.mem_append.mp hx with hx | hx
  · exact hquiet x hx
  · rw [List.mem_singleton.mp hx]
    exact he

theorem UnderWay.unwritten (h : UnderWay seen command)
    (hf : acknowledges (.act .print, some command.answer) f = none) :
    inFlash seen f = inForce seen f ∨ CutOff seen f := by
  obtain ⟨past, saved, between, rfl, hquiet, hsettled, hanswer⟩ := h
  have hnone : ∀ e ∈ (.act (.set command.key command.value saved), none) :: between,
      saves e f = none ∧ acknowledges e f = none := by
    intro e he
    rcases List.mem_cons.mp he with rfl | he
    · exact ⟨(hanswer f).trans hf, rfl⟩
    · exact LifeAction.quiet_saves (hquiet e he) f
  rcases hsettled f with heq | hcut
  · left
    rw [inFlash, inForce, bootValues_append fun e he => (hnone e he).1,
      bootValues_append fun e he => (hnone e he).2]
    exact heq
  · exact Or.inr (hcut.append fun e he => (hnone e he).2)

theorem UnderWay.written (h : UnderWay seen command) {v : Bytes}
    (hf : acknowledges (.act .print, some command.answer) f = some v) :
    inFlash seen f = orDefault f v := by
  obtain ⟨past, saved, between, rfl, hquiet, -, hanswer⟩ := h
  rw [List.append_cons, inFlash, bootValues_append fun e he => (LifeAction.quiet_saves
    (hquiet e he) f).1, bootValues_concat, hanswer, hf]
  rfl

/-- The line tells what was saved. -/
theorem UnderWay.print (h : UnderWay seen command) :
    Settled (seen ++ [(.act .print, some command.answer)]) := by
  intro f
  have hflash : inFlash (seen ++ [(.act .print, some command.answer)]) f = inFlash seen f :=
    bootValues_append (by simp [saves])
  cases hf : acknowledges (.act .print, some command.answer) f with
  | none =>
    rcases h.unwritten hf with heq | hcut
    · left
      rw [hflash, heq, inForce, bootValues_concat, hf]
      rfl
    · exact Or.inr (hcut.append (by simpa using hf))
  | some v =>
    left
    rw [hflash, h.written hf, inForce, bootValues_concat, hf]
    rfl

/-- A boot in front of the line cuts the command off. -/
theorem UnderWay.reboot (h : UnderWay seen command) (env : BootSurroundings) (uptime : ℕ) :
    Settled (seen ++ [(.reboot env uptime, none)]) := by
  intro f
  cases hf : acknowledges (.act .print, some command.answer) f with
  | none =>
    rcases h.unwritten hf with heq | hcut
    · left
      rw [inFlash, inForce, bootValues_append (by simp [saves]),
        bootValues_append (by simp [acknowledges])]
      exact heq
    · exact Or.inr (hcut.append (by simp [acknowledges]))
  | some v =>
    obtain ⟨past, saved, between, rfl, hquiet, -, hanswer⟩ := h
    exact Or.inr ⟨past, _, between, env, uptime, [], rfl, by simp [hanswer, hf], hquiet, by simp⟩

end Told

namespace Boot

/-- `main` gets as far as its settings. -/
def Loads (env : BootSurroundings) : Prop := supports env.display = true ∧ env.subsysInit = 0

/-- A connection is asked for with these strings. -/
structure Joins (w : WifiManager) (ssid password : Bytes) : Prop where
  params : ∃ params, w.params = some params ∧
    params.ssid.str = ssid ∧ params.ssidLength = ssid.length ∧
    params.psk.str = password ∧ params.pskLength = password.length

/-- `main` starts Wi-Fi and the API client with these values, where it can. -/
structure Uses (env : BootSurroundings) (b : Boot) (values : Field → Bytes) : Prop where
  config : ∀ f, (b.device.config.get f).str = values f
  wifi : b.wifiInit.isSome = true ↔ values .ssid ≠ []
  station : env.sta.isSome = true → values .ssid ≠ [] →
    Joins b.manager (values .ssid) (values .password)
  worker : b.worker.isSome = true ↔ values .ssid ≠ [] ∧ values .apiHost ≠ [] ∧
    env.sta.isSome = true ∧ 1 < env.caCertificateSize ∧ env.tlsCredentialAdd = 0

theorem startApi_device (d : Device) (wifi : WifiInitCall) (env : BootSurroundings) :
    (startApi d wifi env).device = d ∧ (startApi d wifi env).wifiInit = some wifi := by
  unfold startApi
  dsimp only
  split_ifs <;> exact ⟨rfl, rfl⟩

theorem startApi_worker {s : Settings} (hs : s.Valid) (store : SettingsStore) (wifi : WifiInitCall)
    (env : BootSurroundings) : (startApi ⟨s.config, store⟩ wifi env).worker.isSome = true ↔
      wifi.result = 0 ∧ (s .apiHost).value ≠ [] ∧ 1 < env.caCertificateSize ∧
        env.tlsCredentialAdd = 0 := by
  have hhost : s.config.apiHost.bytes.head? ≠ some 0 ↔ (s .apiHost).value ≠ [] :=
    (s .apiHost).head_buffer_eq_zero_iff.not
  unfold startApi
  dsimp only [configStoreGet]
  split_ifs with hstart
  · obtain ⟨hresult, hset⟩ := hstart
    have haccepts := startAccepts_of_valid hs (hhost.mp hset)
    have hstarted : (ApiClient.start (some s.config) env.caCertificateSize
        env.tlsCredentialAdd).2.isSome = true ↔
        1 < env.caCertificateSize ∧ env.tlsCredentialAdd = 0 := by
      simp only [ApiClient.start, haccepts, not_true_eq_false, if_false]
      split_ifs with hsize hadded
      · simp [hsize]
      · simp [hadded]
      · simp [not_le.mp hsize, not_not.mp hadded]
    simp only [worker, enterLoop, Option.bind_some, hstarted, hresult, hhost.mp hset, true_and,
      ne_eq, not_false_eq_true]
  · rw [hhost] at hstart
    simp only [worker, enterLoop, Option.bind_none, Option.isSome_none, Bool.false_eq_true,
      false_iff]
    exact fun h => hstart ⟨h.1, h.2.1⟩

theorem wifiInit_station {ssid password : CString} (env : BootSurroundings)
    (h : WifiManager.initAccepts ssid password = true) : ∃ err w,
      WifiManager.boot.init (some ssid) (some password) env.sta = some (err, w) ∧
        (err = 0 ↔ env.sta.isSome = true) ∧
        (env.sta.isSome = true → Joins w ssid.bytes password.bytes) := by
  cases hsta : env.sta with
  | none =>
    refine ⟨-ENODEV, { WifiManager.boot with iface := none }, ?_, by simp [ENODEV], by simp⟩
    simp [WifiManager.init, h]
  | some iface =>
    obtain ⟨⟨-, hssid⟩, hpassword⟩ := WifiManager.initAccepts_iff.mp h
    refine ⟨0, _, WifiManager.boot_init h iface, by simp, fun _ => ⟨_, rfl, ?_, rfl, ?_, rfl⟩⟩
    · exact Buffer.str_padded (by omega) ssid.noNul
    · exact Buffer.str_padded (by omega) password.noNul

theorem bringUp_uses {s : Settings} (hs : s.Valid) (store : SettingsStore)
    (env : BootSurroundings) : ∃ b, bringUp ⟨s.config, store⟩ env = some b ∧
      b.device = ⟨s.config, store⟩ ∧ Uses env b fun f => (s f).value := by
  have hhead : s.config.ssid.bytes.head? ≠ some 0 ↔ (s .ssid).value ≠ [] :=
    (s .ssid).head_buffer_eq_zero_iff.not
  unfold bringUp
  dsimp only [configStoreGet]
  split_ifs with hset
  · have hssid := hhead.mp hset
    obtain ⟨err, w, hinit, herr, hstation⟩ :=
      wifiInit_station env (initAccepts_of_valid hs hssid)
    rw [hinit, Option.map_some]
    obtain ⟨hdevice, hwifi⟩ := startApi_device ⟨s.config, store⟩
      ⟨s.config.ssid.cstring, s.config.password.cstring, err, w⟩ env
    refine ⟨_, rfl, hdevice, fun f => by simp [hdevice], ?_, fun hiface _ => ?_, ?_⟩
    · simp [hwifi, hssid]
    · rw [manager, hwifi, ← s.ssid_str, ← s.password_str]
      exact hstation hiface
    · rw [startApi_worker hs]
      simp [herr, hssid]
      tauto
  · have hssid := not_not.mp (hhead.not.mp hset)
    refine ⟨_, rfl, rfl, fun f => by simp [enterLoop], ?_, fun _ h => absurd hssid h, ?_⟩
    · simp [enterLoop, hssid]
    · simp [worker, enterLoop, hssid]

end Boot

/-- A boot brings back what was saved, if it loads, and starts nothing else. -/
theorem Remembers.boot {d : Device} {seen : List LifeEvent} (h : Remembers d seen)
    (env : BootSurroundings) : ∃ b, Boot.main d env = some b ∧
      (∃ settings : Settings, b.device = ⟨settings.config, d.store⟩) ∧
      (Boot.Loads env → b.Uses env (inFlash seen)) ∧
      (¬ Boot.Loads env → b.wifiInit = none ∧ b.apiStart = none) := by
  obtain ⟨kept, hholds, hobeys, hloaded⟩ := h.loaded
  have hreset : d.reset = ⟨Settings.defaults.config, d.store⟩ := by
    rw [Settings.defaults_config]
    rfl
  unfold Boot.main Boot.Loads
  by_cases hdisplay : Boot.supports env.display = true
  · rw [if_neg (not_not.mpr hdisplay)]
    by_cases hsubsys : env.subsysInit = 0
    · rw [hsubsys, hreset, hholds.init Settings.defaults env.order, Option.bind_some, if_pos rfl]
      obtain ⟨b, hb, hdevice, huses⟩ :=
        Boot.bringUp_uses (hobeys.loaded Settings.defaults_valid) d.store env
      rw [funext hloaded] at huses
      exact ⟨b, hb, ⟨_, hdevice⟩, fun _ => huses, fun hnot => absurd ⟨hdisplay, rfl⟩ hnot⟩
    · rw [configStoreInit, if_pos hsubsys, Option.bind_some, if_neg hsubsys]
      exact ⟨_, rfl, ⟨_, hreset⟩, fun hloads => absurd hloads.2 hsubsys, fun _ => ⟨rfl, rfl⟩⟩
  · rw [if_pos hdisplay]
    exact ⟨_, rfl, ⟨_, hreset⟩, fun hloads => absurd hloads.1 hdisplay, fun _ => ⟨rfl, rfl⟩⟩

/-- What the worker asks for with its copy of the configuration. -/
structure AppConfig.Asks (config : AppConfig) (values : Field → Bytes) : Prop where
  url : (httpRequest config).url = values .apiPath
  host : (httpRequest config).host = values .apiHost
  payload : (httpRequest config).payload.take (httpRequest config).payloadLen = values .apiBody
  ntpHost : config.ntpHost.str = values .ntpHost

theorem AppConfig.Asks.of_str {config : AppConfig} {values : Field → Bytes}
    (h : ∀ f, (config.get f).str = values f) : config.Asks values where
  url := h .apiPath
  host := h .apiHost
  payload := (List.prefix_iff_eq_take.mp (List.takeWhile_prefix _)).symm.trans (h .apiBody)
  ntpHost := h .ntpHost

/-- The requests carry the values of the last boot before `es` ended. -/
def AsksAsBooted (config : AppConfig) (es : List LifeEvent) : Prop :=
  ∃ past env uptime later, es = past ++ (.reboot env uptime, none) :: later ∧
    (∀ e ∈ later, e.1.reboots = false) ∧ config.Asks (inFlash past) ∧
    Explained past (.reboot env uptime, none)

theorem AsksAsBooted.concat {config : AppConfig} {es : List LifeEvent}
    (h : AsksAsBooted config es) {e : LifeEvent} (he : e.1.reboots = false) :
    AsksAsBooted config (es ++ [e]) := by
  obtain ⟨past, env, uptime, later, rfl, hlater, hasks⟩ := h
  refine ⟨past, env, uptime, later ++ [e], by simp, fun x hx => ?_, hasks⟩
  rcases List.mem_append.mp hx with hx | hx
  · exact hlater x hx
  · rw [List.mem_singleton.mp hx]
    exact he

namespace Panel

variable {parser : JsonParser} {arith : DoubleArith} {p : Panel} {es : List LifeEvent}

/-- The flash and the shell of a panel, against its lives so far. -/
structure Recalls (es : List LifeEvent) (p : Panel) : Prop where
  remembers : Remembers p.device es
  settled : p.shell = none → Settled es
  underWay : ∀ command, p.shell = some command → UnderWay es command

theorem Recalls.quiet (h : Recalls es p) {e : LifeEvent} (he : e.1.quiet = true) {q : Panel}
    (hdevice : q.device = p.device) (hshell : q.shell = p.shell) : Recalls (es ++ [e]) q where
  remembers := hdevice ▸ h.remembers.concat fun f => (LifeAction.quiet_saves he f).1
  settled hidle := (h.settled (hshell ▸ hidle)).concat (LifeAction.quiet_saves he)
  underWay command hcommand := (h.underWay command (hshell ▸ hcommand)).concat he

/-- A boot takes the values in flash, and forgets the command under way. -/
theorem Recalls.reboot (h : Recalls es p) (env : BootSurroundings) (uptime : ℕ) :
    Settled (es ++ [(.reboot env uptime, none)]) := by
  cases hshell : p.shell with
  | none => exact (h.settled hshell).concat fun _ => ⟨rfl, rfl⟩
  | some command => exact (h.underWay command hshell).reboot env uptime

/-- A boot that starts a worker has loaded the values in flash. -/
theorem Recalls.boot_asks (h : Recalls es p) {env : BootSurroundings} {b : Boot}
    (hb : Boot.main p.device env = some b) :
    b.worker = none ∨ b.device.config.Asks (inFlash es) := by
  obtain ⟨b', hb', -, huses, hidle⟩ := h.remembers.boot env
  obtain rfl := Option.some.inj (hb.symm.trans hb')
  by_cases hloads : Boot.Loads env
  · exact Or.inr (.of_str (huses hloads).config)
  · left
    rw [Boot.worker, (hidle hloads).2, Option.bind_none]

theorem Recalls.explained (h : Recalls es p) (env : BootSurroundings) (uptime : ℕ) :
    Explained es (.reboot env uptime, none) := by
  intro f
  have hsettled := h.reboot env uptime f
  rwa [inFlash, inForce, bootValues_append (by simp [saves]),
    bootValues_append (by simp [acknowledges])] at hsettled

theorem lives_recall (h : (lives parser arith).Run new es p) : Recalls es p := by
  refine h.history_invariant (I := Recalls) ⟨new_remembers, fun _ _ => Or.inl rfl, nofun⟩ ?_
  rintro es p ⟨a, line⟩ q ih ⟨hstep, hline⟩
  dsimp only at hstep hline
  cases a with
  | reboot env uptime =>
    obtain ⟨b, hb, rfl⟩ := Option.map_eq_some_iff.mp hstep
    obtain rfl : line = none := hline
    obtain ⟨b', hb', ⟨settings, hdevice⟩, -⟩ := ih.remembers.boot env
    obtain rfl := Option.some.inj (hb.symm.trans hb')
    have hdevice : (start b uptime).device = ⟨settings.config, p.device.store⟩ := hdevice
    refine ⟨?_, fun _ => ih.reboot env uptime, nofun⟩
    rw [hdevice]
    have hremembers : Remembers ⟨settings.config, p.device.store⟩ es :=
      ⟨⟨settings, rfl⟩, ih.remembers.loaded⟩
    exact hremembers.concat fun _ => rfl
  | act a =>
    cases step_moves hstep with
    | @set key value saved r place h =>
      obtain rfl : line = none := hline
      refine ⟨ih.remembers.set h, nofun, ?_⟩
      rintro command ⟨⟩
      obtain ⟨settings, hconfig⟩ := ih.remembers.config_eq
      rw [show p.device = ⟨settings.config, p.device.store⟩ by rw [← hconfig]] at h
      exact ⟨es, saved, [], rfl, by simp, ih.settled place, saves_eq_acknowledges h⟩
    | @print command place =>
      obtain rfl : line = some command.answer := by rw [hline, printed, place]; rfl
      exact ⟨ih.remembers.concat fun _ => rfl, fun _ => (ih.underWay command place).print, nofun⟩
    | wifi | wait | poll | tick | get | online | render => exact ih.quiet rfl rfl rfl

theorem lives_ask (h : (lives parser arith).Run new es p) (hstarted : p.started = true) :
    AsksAsBooted p.poll.client.config es := by
  induction h with
  | nil => cases hstarted
  | @snoc p q es e hrun hstep ih =>
    obtain ⟨a, line⟩ := e
    obtain ⟨hlive, hline⟩ := hstep
    dsimp only at hlive hline
    have hrecalls := lives_recall hrun
    cases a with
    | reboot env uptime =>
      obtain ⟨b, hb, rfl⟩ := Option.map_eq_some_iff.mp hlive
      obtain rfl : line = none := hline
      obtain ⟨cfg, hcfg⟩ := Option.isSome_iff_exists.mp hstarted
      obtain rfl := (Boot.main_made hb).worker_eq cfg hcfg
      have hasks := (hrecalls.boot_asks hb).resolve_left (by simp [hcfg])
      refine ⟨es, env, uptime, [], rfl, by simp, ?_, hrecalls.explained env uptime⟩
      rw [start, hcfg]
      exact hasks
    | act a =>
      cases step_moves hlive with
      | @poll e poll allowed h =>
        rw [(PollLoop.step_effect h).config_eq]
        exact (ih hstarted).concat rfl
      | wifi | wait | set | print | tick | get | online | render => exact (ih hstarted).concat rfl

/-- What the shell acknowledges is what the panel uses. In every sequence of boots
and of steps of the panel, a boot that loads its settings connects to the network
and asks the host that the values in flash name, and any other starts neither Wi-Fi
nor the API client; each of these values was acknowledged last, or its `panel set`
was cut off by a boot before its line; and while a worker runs, its requests carry
the values of its own boot. -/
theorem acknowledged_settings_used (h : (lives parser arith).Run new es p) :
    (∀ env, ∃ b, Boot.main p.device env = some b ∧
      (Boot.Loads env → b.Uses env (inFlash es)) ∧
      (¬ Boot.Loads env → b.wifiInit = none ∧ b.apiStart = none)) ∧
    (∀ env uptime, Explained es (.reboot env uptime, none)) ∧
    (p.started = true → AsksAsBooted p.poll.client.config es) := by
  have hrecalls := lives_recall h
  refine ⟨fun env => ?_, hrecalls.explained, lives_ask h⟩
  obtain ⟨b, hb, -, huses⟩ := hrecalls.remembers.boot env
  exact ⟨b, hb, huses⟩

/-- A network and a host are set and a path is refused; another network is saved, and
the boot comes before its line. -/
def provisionedLife : List LifeEvent :=
  [(.reboot Boot.supportedBoard 0, none),
    (.act (.set (some (ascii "ssid")) (some (.literal "home")) 0), none),
    (.act .print, some ⟨some (ascii "ssid"), some (.literal "home"), setAnswer 0⟩),
    (.act (.set (some (ascii "api_host")) (some (.literal "example.com")) 0), none),
    (.act .print, some ⟨some (ascii "api_host"), some (.literal "example.com"), setAnswer 0⟩),
    (.act (.set (some (ascii "api_path")) (some (.literal "sensor")) 0), none),
    (.act .print, some ⟨some (ascii "api_path"), some (.literal "sensor"), setAnswer (-EINVAL)⟩),
    (.act (.set (some (ascii "ssid")) (some (.literal "attic")) 0), none),
    (.reboot Boot.supportedBoard 0, none)]

theorem provisioned_life_used : ∃ p b,
    (lives ApiClient.sampleParser .exact).Run new provisionedLife p ∧
    inForce provisionedLife .ssid = ascii "home" ∧ CutOff provisionedLife .ssid ∧
    Boot.main p.device Boot.supportedBoard = some b ∧
    b.Uses Boot.supportedBoard (inFlash provisionedLife) ∧
    inFlash provisionedLife .ssid = ascii "attic" ∧
    p.started = true ∧ AsksAsBooted p.poll.client.config provisionedLife := by
  have hlife : (provisionedLife.foldlM (fun p (e : LifeEvent) =>
      if e.2 = printed p e.1 then live ApiClient.sampleParser .exact p e.1 else none)
      new).map Panel.started = some true := by
    decide +kernel
  obtain ⟨p, hp, hstarted⟩ := Option.map_eq_some_iff.mp hlife
  have hrun : (lives ApiClient.sampleParser .exact).Run new provisionedLife p := by
    refine (Machine.Run.of_guarded hp).mono ?_
    rintro p e q ⟨hprinted, hstep⟩
    exact ⟨hstep, hprinted⟩
  obtain ⟨hboot, -, hasks⟩ := acknowledged_settings_used hrun
  obtain ⟨b, hb, huses, -⟩ := hboot Boot.supportedBoard
  refine ⟨p, b, hrun, by decide, ?_, hb, huses ⟨by decide, rfl⟩, by decide, hstarted,
    hasks hstarted⟩
  exact ⟨provisionedLife.take 7, _, [], Boot.supportedBoard, 0, [], rfl, by decide, by simp,
    by simp⟩

end Panel

end SensorPanel
