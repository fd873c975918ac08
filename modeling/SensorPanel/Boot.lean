import SensorPanel.Config.Persistence
import SensorPanel.Network.WifiManager
import SensorPanel.Sensor.ApiClient

/-!
# Booting a provisioned panel

`main` loads the settings, starts Wi-Fi if there is a network name and the API
client if there is a host, and publishes the first error. The checks it meets on
the way are not those of `config_store_set`, but whatever was set before, they
accept what the store brings back.
-/

namespace SensorPanel

open Library

/-- The part of `struct display_capabilities` that `main` checks. -/
structure DisplayCapabilities where
  xResolution : ℕ
  yResolution : ℕ
  deriving DecidableEq, Repr

/-- What the calls of one boot answer; there are no capabilities of a display
that is not ready. -/
structure BootSurroundings where
  display : Option DisplayCapabilities
  subsysInit : ℤ
  order : LoadOrder
  sta : Option NetIf
  caCertificateSize : ℕ
  tlsCredentialAdd : ℤ

structure WifiInitCall where
  ssid : CString
  password : CString
  result : ℤ
  manager : WifiManager

/-- A call of `api_client_start`, its result and the worker's configuration. -/
structure ApiStartCall where
  cfg : AppConfig
  result : ℤ
  worker : Option AppConfig

/-- What `main` has done by its first frame; it has none on a display it does
not support. -/
structure Boot where
  device : Device
  err : ℤ
  wifiInit : Option WifiInitCall
  apiStart : Option ApiStartCall
  sensor : SensorState
  loops : Bool

namespace Boot

/-- The first error is published, and the loop begins. -/
def enterLoop (device : Device) (err : ℤ) (wifiInit : Option WifiInitCall)
    (apiStart : Option ApiStartCall) : Boot where
  device := device
  err := err
  wifiInit := wifiInit
  apiStart := apiStart
  sensor := if err ≠ 0 then SensorState.boot.setError err else SensorState.boot
  loops := true

/-- `main` after its call of `wifi_manager_init`. -/
def startApi (d : Device) (wifi : WifiInitCall) (env : BootSurroundings) : Boot :=
  let config := configStoreGet d
  if wifi.result = 0 ∧ config.apiHost.bytes.head? ≠ some 0 then
    let r := ApiClient.start (some config) env.caCertificateSize env.tlsCredentialAdd
    enterLoop d r.1 (some wifi) (some ⟨config, r.1, r.2⟩)
  else enterLoop d wifi.result (some wifi) none

/-- `main` from `config_store_get` on. -/
def bringUp (d : Device) (env : BootSurroundings) : Option Boot :=
  let config := configStoreGet d
  if config.ssid.bytes.head? ≠ some 0 then
    let ssid := config.ssid.cstring
    let password := config.password.cstring
    (WifiManager.boot.init (some ssid) (some password) env.sta).map fun r =>
      startApi d ⟨ssid, password, r.1, r.2⟩ env
  else some (enterLoop d 0 none none)

def supports (display : Option DisplayCapabilities) : Bool :=
  match display with
  | none => false
  | some caps => ¬ (caps.xResolution ≠ 128 ∨ caps.yResolution ≠ 128)

/-- `main` up to its loop, after a reset. -/
def main (d : Device) (env : BootSurroundings) : Option Boot :=
  if ¬ supports env.display then some ⟨d.reset, 0, none, none, SensorState.boot, false⟩
  else
    (configStoreInit d.reset env.subsysInit env.order).bind fun r =>
      if r.1 = 0 then bringUp r.2 env else some (enterLoop r.2 r.1 none none)

/-- The call's arguments pass the check of `wifi_manager_init`, both copies fit,
and on a station interface the connection is asked for with these strings. -/
structure WifiAccepts (env : BootSurroundings) (call : WifiInitCall) : Prop where
  check : WifiManager.initAccepts call.ssid call.password = true
  ssid_copied : ∃ b, WifiManager.strcpy WifiManager.boot.stationSsid call.ssid = some b ∧
    b.str = call.ssid.bytes
  password_copied : ∃ b,
    WifiManager.strcpy WifiManager.boot.stationPassword call.password = some b ∧
      b.str = call.password.bytes
  no_station : env.sta = none → call.result = -ENODEV
  station : ∀ iface, env.sta = some iface → call.result = 0 ∧
    ∃ params, call.manager.params = some params ∧
      1 ≤ params.ssidLength ∧ params.ssidLength ≤ 32 ∧
      (params.security = .psk ↔ 8 ≤ params.pskLength ∧ params.pskLength ≤ 63)

/-- No call of this boot is rejected for its arguments. -/
structure Accepts (env : BootSurroundings) (b : Boot) : Prop where
  wifi : ∀ call, b.wifiInit = some call → call.ssid = b.device.config.ssid.cstring ∧
    call.password = b.device.config.password.cstring ∧ WifiAccepts env call
  api : ∀ call, b.apiStart = some call →
    call.cfg = b.device.config ∧ ApiClient.startAccepts call.cfg = true
  error : b.err = -EINVAL → env.subsysInit = -EINVAL ∨
    b.apiStart.isSome = true ∧ env.tlsCredentialAdd = -EINVAL

theorem initAccepts_of_valid {s : Settings} (h : s.Valid) (hssid : (s .ssid).value ≠ []) :
    WifiManager.initAccepts s.config.ssid.cstring s.config.password.cstring = true := by
  have hlen := (s .ssid).lt_capacity
  have hpos := List.length_pos_iff.mpr hssid
  have hpass : (s .password).value = [] ∨
      (8 ≤ (s .password).value.length ∧ (s .password).value.length ≤ 63) := h .password
  rw [WifiManager.initAccepts_iff]
  simp only [Buffer.cstring, Settings.ssid_str, Settings.password_str, List.length_eq_zero_iff]
  exact ⟨⟨hpos, Nat.le_of_lt_succ hlen⟩, hpass⟩

theorem strcpy_fits {n : ℕ} {src : CString} (h : src.bytes.length < n) :
    ∃ b, WifiManager.strcpy (Buffer.zero n) src = some b ∧ b.str = src.bytes :=
  ⟨_, WifiManager.strcpy_zero h, Buffer.str_padded h.le src.noNul⟩

/-- An accepted call fails only where there is no station interface. -/
theorem wifiAccepts {ssid password : CString} (env : BootSurroundings)
    (h : WifiManager.initAccepts ssid password = true) : ∃ err w,
      WifiManager.boot.init (some ssid) (some password) env.sta = some (err, w) ∧
        WifiAccepts env ⟨ssid, password, err, w⟩ ∧ (err = 0 ∨ err = -ENODEV) := by
  obtain ⟨⟨hpos, hssid⟩, hpassword⟩ := WifiManager.initAccepts_iff.mp h
  have hssid' := strcpy_fits (show ssid.bytes.length < 33 by omega)
  have hpassword' := strcpy_fits (show password.bytes.length < 65 by omega)
  cases hsta : env.sta with
  | none =>
    refine ⟨-ENODEV, { WifiManager.boot with iface := none }, ?_,
      ⟨h, hssid', hpassword', fun _ => rfl, fun iface hiface => ?_⟩, Or.inr rfl⟩
    · simp [WifiManager.init, h]
    · simp [hsta] at hiface
  | some iface =>
    refine ⟨0, WifiManager.started ssid password iface, WifiManager.boot_init h iface,
      ⟨h, hssid', hpassword', fun hnone => ?_, fun _ _ => ⟨rfl, _, rfl, hpos, hssid, ?_⟩⟩,
      Or.inl rfl⟩
    · simp [hsta] at hnone
    · by_cases hempty : password.bytes.length = 0
      · simp [hempty]
      · simp only [hempty, ne_eq, not_false_eq_true, if_true, true_iff]
        omega

theorem startAccepts_of_valid {s : Settings} (h : s.Valid) (hhost : (s .apiHost).value ≠ []) :
    ApiClient.startAccepts s.config = true := by
  have hslash : (s .apiPath).value.head? = some slash := (h .apiPath).1
  have hpath : s.config.apiPath.bytes.head? = (ascii "/").head? := by
    rw [show s.config.apiPath = (s .apiPath).buffer from rfl, Setting.head_buffer, hslash]
    rfl
  have hhead : s.config.apiHost.bytes.head? ≠ some 0 := fun hzero =>
    hhost ((s .apiHost).head_buffer_eq_zero_iff.mp hzero)
  simp [ApiClient.startAccepts, hpath, hhead]

theorem start_error {cfg : AppConfig} (h : ApiClient.startAccepts cfg = true)
    {caCertificateSize : ℕ} {tlsCredentialAdd : ℤ}
    (herr : (ApiClient.start (some cfg) caCertificateSize tlsCredentialAdd).1 = -EINVAL) :
    tlsCredentialAdd = -EINVAL := by
  simp only [ApiClient.start, h, not_true_eq_false, if_false] at herr
  split_ifs at herr
  · exact absurd herr (by decide)
  · exact herr
  · exact absurd (show (0 : ℤ) = -EINVAL from herr) (by decide)

theorem startApi_accepts {s : Settings} (h : s.Valid) (store : SettingsStore)
    {env : BootSurroundings} {wifi : WifiInitCall} (hssid : wifi.ssid = s.config.ssid.cstring)
    (hpassword : wifi.password = s.config.password.cstring) (hwifi : WifiAccepts env wifi)
    (hresult : wifi.result = 0 ∨ wifi.result = -ENODEV) :
    Accepts env (startApi ⟨s.config, store⟩ wifi env) := by
  unfold startApi
  dsimp only [configStoreGet]
  split_ifs with hstart
  · have hhost : (s .apiHost).value ≠ [] := fun hnil =>
      hstart.2 ((s .apiHost).head_buffer_eq_zero_iff.mpr hnil)
    have hapi := startAccepts_of_valid h hhost
    refine ⟨?_, ?_, fun herr => Or.inr ⟨rfl, start_error hapi herr⟩⟩
    · rintro call ⟨rfl⟩
      exact ⟨hssid, hpassword, hwifi⟩
    · rintro call ⟨rfl⟩
      exact ⟨rfl, hapi⟩
  · refine ⟨?_, by simp [enterLoop], ?_⟩
    · rintro call ⟨rfl⟩
      exact ⟨hssid, hpassword, hwifi⟩
    · intro herr
      have hne : wifi.result ≠ -EINVAL := by
        rcases hresult with hresult | hresult <;> rw [hresult] <;> decide
      exact absurd herr hne

theorem accepts_of_no_call {env : BootSurroundings} {b : Boot} (hwifi : b.wifiInit = none)
    (hapi : b.apiStart = none) (herr : b.err = 0 ∨ b.err = env.subsysInit) : Accepts env b where
  wifi := by simp [hwifi]
  api := by simp [hapi]
  error hinval := by
    rcases herr with herr | herr
    · exact absurd (herr.symm.trans hinval) (by decide)
    · exact Or.inl (herr.symm.trans hinval)

theorem bringUp_accepts {s : Settings} (h : s.Valid) (store : SettingsStore)
    (env : BootSurroundings) :
    ∃ b, bringUp ⟨s.config, store⟩ env = some b ∧ Accepts env b := by
  unfold bringUp
  dsimp only [configStoreGet]
  split_ifs with hhead
  · have hssid : (s .ssid).value ≠ [] := fun hnil =>
      hhead ((s .ssid).head_buffer_eq_zero_iff.mpr hnil)
    obtain ⟨err, w, hinit, haccepts, herr⟩ := wifiAccepts env (initAccepts_of_valid h hssid)
    refine ⟨_, by rw [hinit]; rfl, startApi_accepts h store rfl rfl haccepts herr⟩
  · exact ⟨_, rfl, accepts_of_no_call rfl rfl (Or.inl rfl)⟩

/-- What provisioning accepts, boot accepts: after any sets, saves and reboots
the next boot calls nothing with arguments that are rejected. -/
theorem boot_accepts_provisioned {events : List SessionEvent} {t : Session}
    (h : sessionMachine.Run Session.start events t) (env : BootSurroundings) :
    ∃ b, main t.device env = some b ∧ Accepts env b := by
  obtain ⟨settings, kept, ht⟩ := sessionMachine_models h
  unfold main
  by_cases hdisplay : supports env.display = true
  · rw [if_neg (not_not.mpr hdisplay)]
    by_cases hsubsys : env.subsysInit = 0
    · have hinit := ht.holds.init Settings.defaults env.order
      rw [Settings.defaults_config, ← hsubsys] at hinit
      rw [Device.reset, hinit, Option.bind_some, if_pos hsubsys]
      exact bringUp_accepts (ht.obeys.loaded Settings.defaults_valid) _ env
    · rw [configStoreInit, if_pos hsubsys, Option.bind_some, if_neg hsubsys]
      exact ⟨_, rfl, accepts_of_no_call rfl rfl (Or.inr rfl)⟩
  · rw [if_pos hdisplay]
    exact ⟨_, rfl, accepts_of_no_call rfl rfl (Or.inl rfl)⟩

def provisioning : List SessionEvent :=
  [.set (some (ascii "ssid")) (some (.literal "home")) 0,
    .set (some (ascii "password")) (some (.literal "secret-pass")) 0,
    .set (some (ascii "api_host")) (some (.literal "example.com")) 0]

def supportedBoard : BootSurroundings where
  display := some ⟨128, 128⟩
  subsysInit := 0
  order := .asStored
  sta := some ⟨1⟩
  caCertificateSize := 1200
  tlsCredentialAdd := 0

theorem provisioned_panel_starts : ∃ t b,
    sessionMachine.Run Session.start provisioning t ∧ main t.device supportedBoard = some b ∧
      Accepts supportedBoard b ∧ b.err = 0 ∧ b.wifiInit.isSome = true ∧
      b.apiStart.isSome = true := by
  have hboot : ((provisioning.foldlM sessionStep Session.start).bind fun t =>
      main t.device supportedBoard).map
        (fun b => (b.err, b.wifiInit.isSome, b.apiStart.isSome)) = some (0, true, true) := by
    decide +kernel
  obtain ⟨b, hb, hcalls⟩ := Option.map_eq_some_iff.mp hboot
  obtain ⟨t, ht, hmain⟩ := Option.bind_eq_some_iff.mp hb
  obtain ⟨herr, hwifi, hapi⟩ := by simpa only [Prod.mk.injEq] using hcalls
  have hrun : sessionMachine.Run Session.start provisioning t := Machine.run_ofFn_iff.mpr ht
  obtain ⟨b', hmain', haccepts⟩ := boot_accepts_provisioned hrun supportedBoard
  obtain rfl := Option.some.inj (hmain.symm.trans hmain')
  exact ⟨t, b, hrun, hmain, haccepts, herr, hwifi, hapi⟩

end Boot

end SensorPanel
