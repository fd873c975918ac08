import SensorPanel.Library.Unwinding
import SensorPanel.Network.StationCredentials
import SensorPanel.Provisioning
import SensorPanel.Sensor.WorkerCredentials
import SensorPanel.Traffic

/-!
# Where the credentials go

The name and the password of the network enter through the shell, are kept in
flash and reach the Wi-Fi manager at a boot. Two panels that were given different
ones, and otherwise the same steps, answer the shell alike, make the same calls to
the network, publish the same and show the same labels.
-/

namespace SensorPanel

open Library

/-- Values that look alike from outside: of the name of the network it shows whether
there is one, of the password nothing, and everything of the other fields. -/
def Field.Alike : Field → Bytes → Bytes → Prop
  | .ssid, v, w => v = [] ↔ w = []
  | .password, _, _ => True
  | _, v, w => w = v

theorem Field.Alike.refl (f : Field) (v : Bytes) : f.Alike v v := by
  cases f <;> simp [Alike]

theorem Field.Alike.orDefault {f : Field} {v w : Bytes} (h : f.Alike v w) :
    f.Alike (orDefault f v) (orDefault f w) := by
  cases f with
  | ssid =>
    have hdefault : (Settings.defaults .ssid).value = [] := rfl
    simp only [Alike, SensorPanel.orDefault, hdefault] at h ⊢
    split_ifs with hv hw <;> simp_all
  | password => trivial
  | apiHost | apiPath | apiBody | ntpHost =>
    obtain rfl : w = v := h
    exact .refl _ _

namespace Settings

/-- Settings that differ at most in the credentials. -/
def Alike (s t : Settings) : Prop := ∀ f : Field, f.Alike (s f).value (t f).value

theorem Alike.config {s t : Settings} (h : s.Alike t) :
    t.config = s.config.withCredentials t.config := by
  have hbuffer (f : Field) (heq : (t f).value = (s f).value) : (t f).buffer = (s f).buffer :=
    Setting.buffer_inj.mpr (Setting.ext heq)
  ext1
  · rfl
  · rfl
  · exact hbuffer .apiHost (h .apiHost)
  · exact hbuffer .apiPath (h .apiPath)
  · exact hbuffer .apiBody (h .apiBody)
  · exact hbuffer .ntpHost (h .ntpHost)

end Settings

structure Device.Has (d : Device) (settings : Settings) (kept : Kept) : Prop where
  config_eq : d.config = settings.config
  holds : Holds d.store kept
  obeys : kept.Obeys

/-- Panels that load settings which differ at most in the credentials. -/
def Device.Alike (d e : Device) : Prop :=
  ∃ s t kept kept', d.Has s kept ∧ e.Has t kept' ∧
    (kept.loaded Settings.defaults).Alike (kept'.loaded Settings.defaults)

theorem Device.Has.set {d : Device} {s : Settings} {kept : Kept} (h : d.Has s kept) {f : Field}
    {v : CString} (hlen : v.bytes.length < f.capacity) (hrule : f.Rule v.bytes) (saved : ℤ) :
    ∃ d' s', configStoreSet d (some f.key) (some v) saved = some (saved, d') ∧
      d'.Has s' (if saved = 0 then kept.save ⟨v.bytes, hlen, v.noNul⟩ else kept) := by
  obtain ⟨config, store⟩ := d
  obtain rfl : config = s.config := h.config_eq
  have hcheck := configStoreSetCheck_eq_ok_iff.mpr ⟨f, v, rfl, rfl, hlen, hrule, rfl⟩
  have hfits := configStoreSetCheck_fits hcheck
  by_cases hsaved : saved = 0
  · subst hsaved
    refine ⟨⟨Settings.config (Function.update s f hfits.setting),
      settingsSaveOne store (settingsPath f.key) v.bytes⟩, Function.update s f hfits.setting, ?_,
      rfl, h.holds.save hfits.setting, h.obeys.save hrule⟩
    simp [configStoreSet, hcheck, s.store_config hfits]
  · refine ⟨⟨s.config, store⟩, s, ?_, ?_⟩
    · simp [configStoreSet, hcheck, hsaved]
    · rw [if_neg hsaved]
      exact h

theorem Kept.value_loaded_save {kept : Kept} {f : Field} (v : Setting f) (g : Field) :
    ((kept.save v).loaded Settings.defaults g).value =
      if g = f then orDefault f v.value else (kept.loaded Settings.defaults g).value := by
  by_cases hg : g = f
  · subst hg
    by_cases hnil : v.value = [] <;> simp [Kept.loaded, Kept.save, orDefault, hnil]
  · simp [Kept.loaded, Kept.save, hg]

def Rejected (key : Option Bytes) (value : Option CString) : Prop :=
  configStoreSetCheck key value = .error (-EINVAL)

theorem Rejected.set {key : Option Bytes} {value : Option CString} (h : Rejected key value)
    (d : Device) (saved : ℤ) : configStoreSet d key value saved = some (-EINVAL, d) := by
  rw [configStoreSet, show configStoreSetCheck key value = .error (-EINVAL) from h]

/-- A step of the other panel: the same, or a `panel set` of an accepted value that
looks alike, or one of rejected values. -/
inductive PanelAction.Alike : PanelAction → PanelAction → Prop
  | same (a : PanelAction) : Alike a a
  | accepted {f : Field} {v w : CString} {saved : ℤ} (hv : v.bytes.length < f.capacity)
      (hw : w.bytes.length < f.capacity) (ruleV : f.Rule v.bytes) (ruleW : f.Rule w.bytes)
      (alike : f.Alike v.bytes w.bytes) :
      Alike (.set (some f.key) (some v) saved) (.set (some f.key) (some w) saved)
  | rejected {key key' : Option Bytes} {value value' : Option CString} {saved saved' : ℤ}
      (h : Rejected key value) (h' : Rejected key' value') :
      Alike (.set key value saved) (.set key' value' saved')

/-- Boots are the same, and so are the steps but for what `panel set` is given. -/
inductive LifeAction.Alike : LifeAction → LifeAction → Prop
  | reboot (env : BootSurroundings) (uptime : ℕ) : Alike (.reboot env uptime) (.reboot env uptime)
  | act {a a' : PanelAction} (alike : a.Alike a') : Alike (.act a) (.act a')

theorem LifeAction.Alike.refl (a : LifeAction) : a.Alike a := by
  cases a with
  | reboot env uptime => exact .reboot env uptime
  | act a => exact .act (.same a)

/-- A `panel set` that looks alike is answered alike. -/
theorem Device.Alike.set {d e : Device} (h : d.Alike e) {key key' : Option Bytes}
    {value value' : Option CString} {saved saved' : ℤ}
    (ha : (PanelAction.set key value saved).Alike (.set key' value' saved')) :
    ∃ r r', configStoreSet d key value saved = some r ∧
      configStoreSet e key' value' saved' = some r' ∧ r'.1 = r.1 ∧ r.2.Alike r'.2 := by
  obtain ⟨s, t, kept, kept', hd, he, hloaded⟩ := id h
  have haccepted {f : Field} {v w : CString} {saved : ℤ} (hv : v.bytes.length < f.capacity)
      (hw : w.bytes.length < f.capacity) (ruleV : f.Rule v.bytes) (ruleW : f.Rule w.bytes)
      (alike : f.Alike v.bytes w.bytes) :
      ∃ r r', configStoreSet d (some f.key) (some v) saved = some r ∧
        configStoreSet e (some f.key) (some w) saved = some r' ∧ r'.1 = r.1 ∧ r.2.Alike r'.2 := by
    obtain ⟨d', s', hset, hd'⟩ := hd.set hv ruleV saved
    obtain ⟨e', t', hset', he'⟩ := he.set hw ruleW saved
    refine ⟨_, _, hset, hset', rfl, s', t', _, _, hd', he', fun g => ?_⟩
    by_cases hsaved : saved = 0
    · simp only [if_pos hsaved, Kept.value_loaded_save]
      split_ifs with hg
      · subst hg
        exact alike.orDefault
      · exact hloaded g
    · simp only [if_neg hsaved]
      exact hloaded g
  have hrejected {key key' : Option Bytes} {value value' : Option CString} {saved saved' : ℤ}
      (hr : Rejected key value) (hr' : Rejected key' value') :
      ∃ r r', configStoreSet d key value saved = some r ∧
        configStoreSet e key' value' saved' = some r' ∧ r'.1 = r.1 ∧ r.2.Alike r'.2 :=
    ⟨_, _, hr.set d saved, hr'.set e saved', rfl, h⟩
  cases ha with
  | same =>
    cases hcheck : configStoreSetCheck key value with
    | error err =>
      obtain rfl := configStoreSetCheck_error hcheck
      exact hrejected hcheck hcheck
    | ok w =>
      obtain ⟨f, v, rfl, rfl, hlen, hrule, -⟩ := configStoreSetCheck_eq_ok_iff.mp hcheck
      exact haccepted hlen hlen hrule hrule (.refl f _)
  | accepted hv hw ruleV ruleW alike => exact haccepted hv hw ruleV ruleW alike
  | rejected hr hr' => exact hrejected hr hr'

theorem Device.Has.reset {d : Device} {s : Settings} {kept : Kept} (h : d.Has s kept) :
    d.reset.Has Settings.defaults kept where
  config_eq := Settings.defaults_config.symm
  holds := h.holds
  obeys := h.obeys

theorem Device.Alike.reset {d e : Device} (h : d.Alike e) : d.reset.Alike e.reset := by
  obtain ⟨s, t, kept, kept', hd, he, hloaded⟩ := h
  exact ⟨_, _, kept, kept', hd.reset, he.reset, hloaded⟩

namespace Boot

/-- Boots that differ at most in the credentials. -/
structure Alike (b b' : Boot) : Prop where
  device : b.device.Alike b'.device
  manager : ∃ v, b'.manager = b.manager.withCredentials v
  worker : ∃ c, b'.worker = b.worker.map fun config => config.withCredentials c
  sensor : b'.sensor = b.sensor

theorem enterLoop_alike {d e : Device} (h : d.Alike e) (err : ℤ) :
    (enterLoop d err none none).Alike (enterLoop e err none none) where
  device := h
  manager := ⟨WifiManager.boot, rfl⟩
  worker := ⟨AppConfig.zero, rfl⟩
  sensor := rfl

theorem wifiInit_alike {ssid password ssid' password' : CString}
    (h : WifiManager.initAccepts ssid password = true)
    (h' : WifiManager.initAccepts ssid' password' = true) (sta : Option NetIf) : ∃ err w v,
      WifiManager.boot.init (some ssid) (some password) sta = some (err, w) ∧
      WifiManager.boot.init (some ssid') (some password') sta =
        some (err, w.withCredentials v) := by
  cases sta with
  | none =>
    refine ⟨-ENODEV, { WifiManager.boot with iface := none }, WifiManager.boot, ?_, ?_⟩
    · simp [WifiManager.init, h]
    · simp only [WifiManager.init, h', not_true_eq_false, if_false]
      rfl
  | some iface =>
    exact ⟨0, _, WifiManager.started ssid' password' iface, WifiManager.boot_init h iface,
      WifiManager.boot_init h' iface⟩

theorem apiStart_alike (config c : AppConfig) (size : ℕ) (added : ℤ) :
    ApiClient.start (some (config.withCredentials c)) size added =
      ((ApiClient.start (some config) size added).1,
        (ApiClient.start (some config) size added).2.map fun d => d.withCredentials c) := by
  have hcheck : ApiClient.startAccepts (config.withCredentials c) =
      ApiClient.startAccepts config := rfl
  simp only [ApiClient.start, hcheck]
  split_ifs <;> rfl

theorem startApi_alike {d e : Device} (h : d.Alike e) {c : AppConfig}
    (hc : e.config = d.config.withCredentials c) {wifi wifi' : WifiInitCall}
    (hresult : wifi'.result = wifi.result)
    (hmanager : ∃ v, wifi'.manager = wifi.manager.withCredentials v) (env : BootSurroundings) :
    (startApi d wifi env).Alike (startApi e wifi' env) := by
  have hhost : (d.config.withCredentials c).apiHost = d.config.apiHost := rfl
  unfold startApi
  dsimp only [configStoreGet]
  simp only [hc, hresult, hhost, apiStart_alike]
  by_cases hstart : wifi.result = 0 ∧ d.config.apiHost.bytes.head? ≠ some 0
  · rw [if_pos hstart, if_pos hstart]
    exact ⟨h, hmanager, ⟨c, rfl⟩, rfl⟩
  · rw [if_neg hstart, if_neg hstart]
    exact ⟨h, hmanager, ⟨c, rfl⟩, rfl⟩

theorem bringUp_alike {s t : Settings} (hs : s.Valid) (ht : t.Valid) (halike : s.Alike t)
    {store store' : SettingsStore} (h : Device.Alike ⟨s.config, store⟩ ⟨t.config, store'⟩)
    (env : BootSurroundings) : ∃ b b', bringUp ⟨s.config, store⟩ env = some b ∧
      bringUp ⟨t.config, store'⟩ env = some b' ∧ b.Alike b' := by
  have hhead (s : Settings) : s.config.ssid.bytes.head? ≠ some 0 ↔ (s .ssid).value ≠ [] :=
    (s .ssid).head_buffer_eq_zero_iff.not
  have hname : (s .ssid).value = [] ↔ (t .ssid).value = [] := halike .ssid
  unfold bringUp
  simp only [configStoreGet, hhead]
  by_cases hempty : (s .ssid).value = []
  · rw [if_neg (not_not.mpr hempty), if_neg (not_not.mpr (hname.mp hempty))]
    exact ⟨_, _, rfl, rfl, enterLoop_alike h 0⟩
  · have hempty' := hname.not.mp hempty
    rw [if_pos hempty, if_pos hempty']
    obtain ⟨err, w, v, hinit, hinit'⟩ := wifiInit_alike (initAccepts_of_valid hs hempty)
      (initAccepts_of_valid ht hempty') env.sta
    rw [hinit, hinit']
    refine ⟨_, _, rfl, rfl, ?_⟩
    apply startApi_alike h halike.config
    · rfl
    · exact ⟨v, rfl⟩

/-- Panels that look alike boot alike. -/
theorem main_alike {d e : Device} (h : d.Alike e) (env : BootSurroundings) :
    ∃ b b', main d env = some b ∧ main e env = some b' ∧ b.Alike b' := by
  unfold main
  by_cases hdisplay : supports env.display = true
  · rw [if_neg (not_not.mpr hdisplay), if_neg (not_not.mpr hdisplay)]
    by_cases hsubsys : env.subsysInit = 0
    · obtain ⟨s, t, kept, kept', hd, he, hloaded⟩ := h
      have hinit := hd.holds.init Settings.defaults env.order
      have hinit' := he.holds.init Settings.defaults env.order
      rw [Settings.defaults_config] at hinit hinit'
      rw [hsubsys, Device.reset, Device.reset, hinit, hinit', Option.bind_some, Option.bind_some,
        if_pos rfl, if_pos rfl]
      exact bringUp_alike (hd.obeys.loaded Settings.defaults_valid)
        (he.obeys.loaded Settings.defaults_valid) hloaded
        ⟨_, _, kept, kept', ⟨rfl, hd.holds, hd.obeys⟩, ⟨rfl, he.holds, he.obeys⟩, hloaded⟩ env
    · simp only [configStoreInit, hsubsys, ne_eq, not_false_eq_true, if_true, Option.bind_some,
        if_false]
      exact ⟨_, _, rfl, rfl, enterLoop_alike h.reset _⟩
  · rw [if_pos hdisplay, if_pos hdisplay]
    exact ⟨_, _, rfl, rfl, h.reset, ⟨WifiManager.boot, rfl⟩, ⟨AppConfig.zero, rfl⟩, rfl⟩

end Boot

/-- What a step shows to those who use the shell, the network or the screen. -/
structure Shown where
  line : Option ShellLine
  publication : Option Publication
  calls : List NetworkCall
  labels : Labels

namespace Panel

/-- The panel as it would be with another flash, another command under way and the
credentials of others. -/
def withCredentials (p : Panel) (e : Device) (k : Option SetCommand) (v : WifiManager)
    (c : AppConfig) : Panel :=
  { p with
    device := e
    ready := p.ready.withCredentials v
    poll := p.poll.withCredentials c
    shell := k }

/-- Panels that differ at most in the credentials. -/
def Alike (p q : Panel) : Prop := ∃ e k v c, p.device.Alike e ∧
  k.map SetCommand.err = p.shell.map SetCommand.err ∧ q = p.withCredentials e k v c

variable (parser : JsonParser) (arith : DoubleArith)

def shown (p : Panel) : LifeAction → Shown
  | .reboot _ _ => ⟨none, none, [], p.labels⟩
  | .act a => ⟨(printed p (.act a)).map ShellAnswer.line, published parser arith p a, asks p a,
      p.labels⟩

def watching : Machine Panel (LifeAction × Shown) :=
  (Machine.ofFn (live parser arith)).observe (shown parser arith)

variable {parser : JsonParser} {arith : DoubleArith} {p q : Panel}

theorem start_alike {b b' : Boot} (h : b.Alike b') (uptime : ℕ) :
    (start b uptime).Alike (start b' uptime) := by
  obtain ⟨hdevice, ⟨v, hmanager⟩, ⟨c, hworker⟩, hsensor⟩ := h
  cases hconfig : b.worker with
  | none =>
    refine ⟨b'.device, none, v, AppConfig.zero, hdevice, rfl, ?_⟩
    simp only [start, hmanager, hworker, hsensor, hconfig, Option.map_none]
    rfl
  | some config =>
    refine ⟨b'.device, none, v, c, hdevice, rfl, ?_⟩
    simp only [start, hmanager, hworker, hsensor, hconfig, Option.map_some]
    rfl

@[simp] theorem withCredentials_ready (e : Device) (k : Option SetCommand) (v : WifiManager)
    (c : AppConfig) : (p.withCredentials e k v c).ready = p.ready.withCredentials v := rfl

@[simp] theorem withCredentials_poll (e : Device) (k : Option SetCommand) (v : WifiManager)
    (c : AppConfig) : (p.withCredentials e k v c).poll = p.poll.withCredentials c := rfl

@[simp] theorem withCredentials_main (e : Device) (k : Option SetCommand) (v : WifiManager)
    (c : AppConfig) : (p.withCredentials e k v c).main = p.main := rfl

/-- Apart from `panel set`, a step does the same whatever the credentials are. -/
theorem step_withCredentials (e : Device) (k : Option SetCommand) (v : WifiManager) (c : AppConfig)
    {a : PanelAction} (ha : (LifeAction.act a).quiet = true) :
    step parser arith (p.withCredentials e k v c) a =
      (step parser arith p a).map fun q => q.withCredentials e k v c := by
  cases a with
  | wifi e =>
    simp only [step, withCredentials_ready, WifiManager.ReadySystem.step_withCredentials,
      Option.map_map]
    rfl
  | wait e =>
    simp only [step, withCredentials_ready, WifiManager.ReadySystem.step_withCredentials,
      apply_ite (Option.map _), Option.map_map, Option.map_none]
    rfl
  | poll d =>
    have hallows : (p.withCredentials e k v c).Allows d ↔ p.Allows d := by
      cases d <;> exact Iff.rfl
    have hafter : (p.withCredentials e k v c).readyAfter d =
        (p.readyAfter d).withCredentials v := by
      cases d <;> rfl
    simp only [step, hallows, withCredentials_poll, hafter, PollLoop.step_withCredentials,
      apply_ite (Option.map _), Option.map_map, Option.map_none]
    rfl
  | set key value saved => cases ha
  | print => cases ha
  | tick ms => rfl
  | get =>
    simp only [step, apply_ite (Option.map _), Option.map_some, Option.map_none]
    rfl
  | online =>
    simp only [step, withCredentials_main]
    cases p.main <;> rfl
  | render =>
    simp only [step, withCredentials_main]
    cases p.main <;> rfl

theorem shown_withCredentials (e : Device) (k : Option SetCommand) (v : WifiManager)
    (c : AppConfig) {a : PanelAction} (ha : (LifeAction.act a).quiet = true) :
    shown parser arith (p.withCredentials e k v c) (.act a) = shown parser arith p (.act a) := by
  cases a with
  | poll d =>
    simp only [shown, published, asks, withCredentials_poll, PollLoop.published_withCredentials,
      PollLoop.asks_withCredentials]
    rfl
  | set key value saved => cases ha
  | print => cases ha
  | wifi | wait | tick | get | online | render => rfl

theorem set_alike (h : p.Alike q) {key key' : Option Bytes} {value value' : Option CString}
    {saved saved' : ℤ} (ha : (PanelAction.set key value saved).Alike (.set key' value' saved'))
    {p' : Panel} (hstep : step parser arith p (.set key value saved) = some p') :
    shown parser arith q (.act (.set key' value' saved')) =
        shown parser arith p (.act (.set key value saved)) ∧
      ∃ q', step parser arith q (.set key' value' saved') = some q' ∧ p'.Alike q' := by
  obtain ⟨e, k, v, c, hdevice, hshell, rfl⟩ := h
  cases step_moves hstep with
  | @set key value saved r place hr =>
    obtain ⟨r₁, r', hr₁, hr', hanswer, hresult⟩ := hdevice.set ha
    obtain rfl := Option.some.inj (hr.symm.trans hr₁)
    obtain rfl : k = none := by simpa [place] using hshell
    have hidle : (p.withCredentials e none v c).shell = none := rfl
    refine ⟨rfl, p.withCredentials r'.2 (some ⟨key', value', r'.1⟩) v c, ?_, r'.2,
      some ⟨key', value', r'.1⟩, v, c, hresult, congrArg some hanswer, rfl⟩
    rw [step, if_pos hidle]
    exact congrArg (Option.map _) hr'

theorem print_alike (h : p.Alike q) {p' : Panel} (hstep : step parser arith p .print = some p') :
    shown parser arith q (.act .print) = shown parser arith p (.act .print) ∧
      ∃ q', step parser arith q .print = some q' ∧ p'.Alike q' := by
  obtain ⟨e, k, v, c, hdevice, hshell, rfl⟩ := h
  cases step_moves hstep with
  | @print command place =>
    rw [place, Option.map_some] at hshell
    obtain ⟨other, rfl, herr⟩ := Option.map_eq_some_iff.mp hshell
    refine ⟨?_, _, rfl, e, none, v, c, hdevice, rfl, rfl⟩
    simp only [shown, printed, withCredentials, place, Option.map_some, SetCommand.answer, herr]
    rfl

theorem act_alike (h : p.Alike q) {a a' : PanelAction} (ha : a.Alike a') {p' : Panel}
    (hstep : step parser arith p a = some p') :
    shown parser arith q (.act a') = shown parser arith p (.act a) ∧
      ∃ q', step parser arith q a' = some q' ∧ p'.Alike q' := by
  cases ha with
  | same =>
    by_cases hquiet : (LifeAction.act a).quiet = true
    · have hkept : p'.device = p.device ∧ p'.shell = p.shell := by
        cases step_moves hstep with
        | set | print => cases hquiet
        | wifi | wait | poll | tick | get | online | render => exact ⟨rfl, rfl⟩
      obtain ⟨e, k, v, c, hdevice, hshell, rfl⟩ := h
      refine ⟨shown_withCredentials e k v c hquiet, p'.withCredentials e k v c, ?_, e, k, v, c,
        ?_, ?_, rfl⟩
      · rw [step_withCredentials e k v c hquiet, hstep, Option.map_some]
      · rw [hkept.1]
        exact hdevice
      · rw [hkept.2]
        exact hshell
    · cases a with
      | set key value saved => exact set_alike h (.same _) hstep
      | print => exact print_alike h hstep
      | _ => exact absurd rfl hquiet
  | accepted hv hw ruleV ruleW alike =>
    exact set_alike h (.accepted hv hw ruleV ruleW alike) hstep
  | rejected hr hr' => exact set_alike h (.rejected hr hr') hstep

/-- The lives of panels that look alike go together. -/
theorem watching_unwinds : (Machine.ofFn (live parser arith)).Unwinds (shown parser arith)
    Alike LifeAction.Alike where
  step p q a a' p' h ha hstep := by
    cases ha with
    | reboot env uptime =>
      obtain ⟨e, k, v, c, hdevice, -, rfl⟩ := h
      obtain ⟨b, hb, rfl⟩ := Option.map_eq_some_iff.mp hstep
      obtain ⟨b₁, b', hb₁, hb', halike⟩ := Boot.main_alike hdevice env
      obtain rfl := Option.some.inj (hb.symm.trans hb₁)
      exact ⟨start b' uptime, Option.map_eq_some_iff.mpr ⟨b', hb', rfl⟩, start_alike halike uptime⟩
    | act ha => exact (act_alike h ha hstep).2
  tells p q a a' p' h ha hstep := by
    cases ha with
    | reboot env uptime =>
      obtain ⟨e, k, v, c, -, -, rfl⟩ := h
      rfl
    | act ha => exact (act_alike h ha hstep).1

theorem new_alike : new.Alike new := by
  have hblank : Device.blank.Has Settings.defaults fun _ => none :=
    ⟨Settings.defaults_config.symm, holds_empty, Session.start_models.obeys⟩
  exact ⟨Device.blank, none, WifiManager.boot, AppConfig.zero,
    ⟨_, _, _, _, hblank, hblank, fun f => .refl f _⟩, rfl, rfl⟩

/-- The credentials stay inside. In every sequence of boots and of steps of a panel,
other names of a network and other passwords, and other values that are rejected,
in the place of those which the shell was given make another such sequence, in
which the shell prints the same lines, the worker makes the same calls to the
network and publishes the same, and the same labels are shown all along. -/
theorem credentials_stay_inside {es : List (LifeAction × Shown)}
    (h : (watching parser arith).Run new es p) {actions : List LifeAction}
    (halike : List.Forall₂ LifeAction.Alike (es.map Prod.fst) actions) :
    ∃ es' q, (watching parser arith).Run new es' q ∧ es'.map Prod.fst = actions ∧
      es'.map Prod.snd = es.map Prod.snd ∧ q.labels = p.labels := by
  obtain ⟨es', q, hrun, hactions, hshown, e, k, v, c, -, -, rfl⟩ :=
    watching_unwinds.run new_alike h halike
  exact ⟨es', _, hrun, hactions, hshown, rfl⟩

def failedFrame : List PanelAction := failedAttempt ++ [.poll .report, .get, .tick 20, .online]

/-- The panel is provisioned with these credentials, one password is rejected, and after
a boot its first attempt fails and is shown. -/
def joinedLife (ssid password rejected : CString) : List LifeAction :=
  [.reboot Boot.supportedBoard 0, .act (.set (some (ascii "ssid")) (some ssid) 0),
    .act .print, .act (.set (some (ascii "password")) (some password) 0), .act .print,
    .act (.set (some (ascii "password")) (some rejected) 0)] ++
  ([.act .print, .act (.set (some (ascii "api_host")) (some (.literal "example.com")) 0),
    .reboot Boot.supportedBoard 0] ++ (failedFrame ++ [PanelAction.render]).map .act)

theorem other_credentials_unseen : ∃ es p es' q,
    (watching ApiClient.sampleParser .exact).Run new es p ∧
    es.map Prod.fst =
      joinedLife (.literal "home") (.literal "secret-pass") (.literal "short") ∧
    (watching ApiClient.sampleParser .exact).Run new es' q ∧
    es'.map Prod.fst = joinedLife (.literal "cabin") (.literal "") (.literal "secret") ∧
    es'.map Prod.snd = es.map Prod.snd ∧
    q.labels = ⟨ascii "--.--", ascii "No data", ascii "API error"⟩ := by
  have hlabels :
      ((joinedLife (.literal "home") (.literal "secret-pass") (.literal "short")).foldlM
        (live ApiClient.sampleParser .exact) new).map Panel.labels =
      some ⟨ascii "--.--", ascii "No data", ascii "API error"⟩ := by
    decide +kernel
  obtain ⟨p, hp, hshows⟩ := Option.map_eq_some_iff.mp hlabels
  obtain ⟨es, hrun, hes⟩ := (Machine.run_ofFn_iff.mpr hp).observe
    (shown ApiClient.sampleParser .exact)
  have halike : List.Forall₂ LifeAction.Alike (es.map Prod.fst)
      (joinedLife (.literal "cabin") (.literal "") (.literal "secret")) := by
    rw [hes]
    refine .cons (.refl _) (.cons (.act ?_) (.cons (.refl _) (.cons (.act ?_) (.cons (.refl _)
      (.cons (.act ?_) (List.forall₂_same.mpr fun a _ => .refl a))))))
    · exact .accepted (f := .ssid) (by decide) (by decide) trivial trivial
        (iff_of_false (by decide) (by decide))
    · exact .accepted (f := .password) (by decide) (by decide) (by decide) (by decide) trivial
    · exact .rejected rfl rfl
  obtain ⟨es', q, hrun', hactions, hshown, hq⟩ := credentials_stay_inside hrun halike
  exact ⟨es, p, es', q, hrun, hes, hrun', hactions, hshown, hq.trans hshows⟩

end Panel

end SensorPanel
