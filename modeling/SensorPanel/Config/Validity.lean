import SensorPanel.Library.Machine
import SensorPanel.Config.Settings

/-!
# One validity rule for both writers

`config_store_set` checks what the Wi-Fi request, the HTTP request line and the
TLS host name rely on. `load_setting` checks the length and the terminator
only, so the configuration stays valid exactly as long as every value that
passes those checks obeys the rule of its field by itself.
-/

namespace SensorPanel

open Library

/-- The calls by which a setting enters the configuration. -/
inductive StoreCall
  | set (key : Option Bytes) (value : Option CString) (saved : ℤ)
  | load (call : LoadCall)

def storeStep (d : Device) : StoreCall → Option Device
  | .set key value saved => (configStoreSet d key value saved).map Prod.snd
  | .load call =>
    (loadSetting d.config call.key call.len call.readCb).map fun r => { d with config := r.2 }

def storeMachine : Machine Device StoreCall := Machine.ofFn storeStep

/-- The password is empty or has 8 to 63 bytes, the path starts with a slash and
stays on its line, and the host names have no byte that ends them early. -/
def AppConfig.Valid (c : AppConfig) : Prop := ∀ f : Field, f.Rule (c.get f).str

theorem Settings.config_valid_iff {s : Settings} : s.config.Valid ↔ s.Valid := by
  simp [AppConfig.Valid, Settings.Valid]

/-- A value that `load_setting` would accept obeys the rule of its field. -/
def LoadCall.Obeys (call : LoadCall) : Prop :=
  ∀ f : Field, call.key = some f.key → call.len < f.capacity →
    (call.readCb.read call.len).1 = call.len → 0 ∉ call.readCb.delivered call.len →
      f.Rule (call.readCb.delivered call.len)

def StoreCall.Obeys : StoreCall → Prop
  | .set _ _ _ => True
  | .load call => call.Obeys

/-- One call on a well-formed configuration; it keeps a valid one valid if it obeys. -/
theorem storeStep_config (s : Settings) (store : SettingsStore) (e : StoreCall) :
    ∃ s' : Settings, ∃ store', storeStep ⟨s.config, store⟩ e = some ⟨s'.config, store'⟩ ∧
      (e.Obeys → s.Valid → s'.Valid) := by
  cases e with
  | set key value saved =>
    rcases configStoreSet_config s store key value saved with ⟨-, h⟩ | ⟨w, hw, hcheck, h⟩
    · exact ⟨s, store, by simp [storeStep, h], fun _ hs => hs⟩
    · obtain ⟨f, v, -, -, -, hrule, rfl⟩ := configStoreSetCheck_eq_ok_iff.mp hcheck
      by_cases hsaved : saved = 0
      · rw [if_pos hsaved] at h
        exact ⟨_, _, by simp only [storeStep, h]; rfl, fun _ hs => hs.update hrule⟩
      · rw [if_neg hsaved] at h
        exact ⟨s, store, by simp [storeStep, h], fun _ hs => hs⟩
  | load call =>
    rcases loadSetting_config s call.key call.len call.readCb with
      ⟨err, -, h⟩ | ⟨w, hw, hcheck, h⟩
    · exact ⟨s, store, by simp [storeStep, h], fun _ hs => hs⟩
    · refine ⟨_, store, by simp only [storeStep, h]; rfl, fun he hs => hs.update ?_⟩
      obtain ⟨f, hkey, hlen, hcount, hnul, rfl⟩ := loadSettingCheck_eq_ok_iff.mp hcheck
      exact he f hkey hlen hcount hnul

theorem storeMachine_run (store : SettingsStore) (events : List StoreCall) :
    ∃ d, storeMachine.Run ⟨AppConfig.defaults, store⟩ events d := by
  have htotal : ∀ (d : Device) (e : StoreCall), (∃ s : Settings, d.config = s.config) →
      ∃ d', storeMachine.Step d e d' ∧ ∃ s : Settings, d'.config = s.config := by
    rintro ⟨c, store⟩ e ⟨s, rfl⟩
    obtain ⟨s', store', h, -⟩ := storeStep_config s store e
    exact ⟨_, h, s', rfl⟩
  obtain ⟨d, hrun, -⟩ := Machine.exists_run_of_total htotal
    (s := ⟨AppConfig.defaults, store⟩) ⟨_, Settings.defaults_config.symm⟩ events
  exact ⟨d, hrun⟩

/-- The invariant of the runs: values in every field, valid ones if all calls obeyed. -/
theorem storeMachine_settings {store : SettingsStore} {events : List StoreCall} {d : Device}
    (h : storeMachine.Run ⟨AppConfig.defaults, store⟩ events d) :
    ∃ s : Settings, d.config = s.config ∧ ((∀ e ∈ events, e.Obeys) → s.Valid) := by
  refine Machine.Run.history_invariant
    (I := fun es d => ∃ s : Settings, d.config = s.config ∧ ((∀ e ∈ es, e.Obeys) → s.Valid)) h
    ⟨_, Settings.defaults_config.symm, fun _ => Settings.defaults_valid⟩ ?_
  rintro es ⟨c, store⟩ e d' ⟨s, rfl, hs⟩ hstep
  obtain ⟨s', store', hnext, hvalid⟩ := storeStep_config s store e
  obtain rfl := Option.some.inj (hnext.symm.trans hstep)
  refine ⟨s', rfl, fun hall => hvalid (hall e (by simp)) (hs fun x hx => hall x ?_)⟩
  simp [hx]

theorem storeStep_set (s : Settings) (store : SettingsStore) (f : Field) (v : CString)
    (hlen : v.bytes.length < f.capacity) (hrule : f.Rule v.bytes) :
    ∃ store', storeStep ⟨s.config, store⟩ (.set (some f.key) (some v) 0) =
      some ⟨Settings.config (Function.update s f ⟨v.bytes, hlen, v.noNul⟩), store'⟩ := by
  have hcheck := configStoreSetCheck_eq_ok_iff.mpr ⟨f, v, rfl, rfl, hlen, hrule, rfl⟩
  have hfits := configStoreSetCheck_fits hcheck
  exact ⟨settingsSaveOne store (settingsPath f.key) v.bytes, by
    simp [storeStep, configStoreSet, hcheck, s.store_config hfits, FieldWrite.Fits.setting]⟩

theorem loaded_value (store : SettingsStore) (c : AppConfig) (call : LoadCall) {f : Field}
    (hkey : call.key = some f.key) (hlen : call.len < f.capacity)
    (hcount : (call.readCb.read call.len).1 = call.len)
    (hnul : 0 ∉ call.readCb.delivered call.len) :
    ∃ d, storeStep ⟨c, store⟩ (.load call) = some d ∧
      (d.config.get f).str = call.readCb.delivered call.len := by
  have hcheck := loadSettingCheck_eq_ok_iff.mpr ⟨f, hkey, hlen, hcount, hnul, rfl⟩
  have hfits := loadSettingCheck_fits hcheck
  refine ⟨⟨c.put f hfits.setting.buffer, store⟩, ?_, ?_⟩
  · simp [storeStep, loadSetting, hcheck, c.store_eq hfits]
  · simp [FieldWrite.Fits.setting]

def LoadAccepts (c : AppConfig) (key : Option Bytes) (value : CString) : Prop :=
  ∃ c', loadSetting c key value.bytes.length (ReadCb.deliver value.bytes) = some (0, c')

/-- `config_store_set` returns 0 for this value under this key when the save succeeds. -/
def SetAccepts (d : Device) (key : Option Bytes) (value : CString) : Prop :=
  ∃ d', configStoreSet d key (some value) 0 = some (0, d')

theorem loadAccepts_iff {c : AppConfig} {key : Option Bytes} {value : CString} :
    LoadAccepts c key value ↔
      ∃ f, key = some (Field.key f) ∧ value.bytes.length < f.capacity := by
  constructor
  · rintro ⟨c', h⟩
    cases hcheck : loadSettingCheck key value.bytes.length (ReadCb.deliver value.bytes) with
    | none => simp [loadSetting, hcheck] at h
    | some r =>
      cases r with
      | error err =>
        have hneg := loadSettingCheck_error_neg hcheck
        simp only [loadSetting, hcheck, Option.bind_some, Option.some.injEq, Prod.mk.injEq] at h
        omega
      | ok w =>
        obtain ⟨f, hkey, hlen, -⟩ := loadSettingCheck_eq_ok_iff.mp hcheck
        exact ⟨f, hkey, hlen⟩
  · rintro ⟨f, hkey, hlen⟩
    have hcheck := loadSettingCheck_eq_ok_iff.mpr ⟨f, hkey, hlen,
      show ((ReadCb.deliver value.bytes).read value.bytes.length).1 = _ by simp [ReadCb.deliver],
      by simpa using value.noNul, rfl⟩
    exact ⟨_, by simp only [loadSetting, hcheck, Option.bind_some,
      c.store_eq (loadSettingCheck_fits hcheck), Option.map_some]; rfl⟩

theorem setAccepts_iff {d : Device} {key : Option Bytes} {value : CString} :
    SetAccepts d key value ↔ ∃ f, key = some (Field.key f) ∧ value.bytes.length < f.capacity ∧
      f.Rule value.bytes := by
  constructor
  · rintro ⟨d', h⟩
    cases hcheck : configStoreSetCheck key (some value) with
    | error err =>
      obtain rfl := configStoreSetCheck_error hcheck
      simp [configStoreSet, hcheck, EINVAL] at h
    | ok w =>
      obtain ⟨f, v, hkey, hv, hlen, hrule, -⟩ := configStoreSetCheck_eq_ok_iff.mp hcheck
      obtain rfl := Option.some.inj hv
      exact ⟨f, hkey, hlen, hrule⟩
  · rintro ⟨f, hkey, hlen, hrule⟩
    have hcheck := configStoreSetCheck_eq_ok_iff.mpr ⟨f, value, hkey, rfl, hlen, hrule, rfl⟩
    exact ⟨_, by simp only [configStoreSet, hcheck, if_true,
      d.config.store_eq (configStoreSetCheck_fits hcheck), Option.map_some]; rfl⟩

/-- When the two writers agree. In every run the configuration is valid after
every call exactly if each value that passes the checks of `load_setting` obeys
the rule of its field; and what `load_setting` accepts for a key,
`config_store_set` accepts too, exactly if it obeys that rule. -/
theorem stored_settings_valid_iff (store : SettingsStore) (events : List StoreCall) (d : Device)
    (key : Option Bytes) (value : CString) :
    ((∃ t, storeMachine.Run ⟨AppConfig.defaults, store⟩ events t) ∧
      ((∀ past later t, events = past ++ later →
          storeMachine.Run ⟨AppConfig.defaults, store⟩ past t → t.config.Valid) ↔
        ∀ e ∈ events, e.Obeys)) ∧
    ((LoadAccepts d.config key value → SetAccepts d key value) ↔
      ∀ f : Field, key = some f.key → value.bytes.length < f.capacity → f.Rule value.bytes) := by
  constructor
  · refine ⟨storeMachine_run store events, ?_, ?_⟩
    · intro hvalid e he
      cases e with
      | set key value saved => trivial
      | load call =>
        intro f hkey hlen hcount hnul
        obtain ⟨past, later, rfl⟩ := List.append_of_mem he
        obtain ⟨t, hrun⟩ := storeMachine_run store past
        obtain ⟨t', hstep, hstr⟩ := loaded_value t.store t.config call hkey hlen hcount hnul
        have hstep' : storeMachine.Step t (.load call) t' := hstep
        have ht' := hvalid (past ++ [.load call]) later t' (by simp) (hrun.snoc hstep')
        exact hstr ▸ ht' f
    · rintro hobeys past later t rfl hrun
      obtain ⟨s, hs, hvalid⟩ := storeMachine_settings hrun
      rw [hs, Settings.config_valid_iff]
      exact hvalid fun e he => hobeys e (List.mem_append_left _ he)
  · rw [loadAccepts_iff, setAccepts_iff]
    constructor
    · intro h f hkey hlen
      obtain ⟨g, hg, -, hrule⟩ := h ⟨f, hkey, hlen⟩
      rw [hkey, Option.some.injEq, Field.key_injective.eq_iff] at hg
      exact hg ▸ hrule
    · rintro h ⟨f, hkey, hlen⟩
      exact ⟨f, hkey, hlen, h f hkey hlen⟩

theorem stored_password_loaded :
    ∃ d, storeMachine.Run ⟨AppConfig.defaults, ∅⟩
        [.load ⟨some (ascii "password"), 11, ReadCb.deliver (ascii "secret-pass")⟩] d ∧
      d.config.Valid := by
  obtain ⟨⟨⟨d, hrun⟩, hvalid⟩, -⟩ := stored_settings_valid_iff ∅
    [.load ⟨some (ascii "password"), 11, ReadCb.deliver (ascii "secret-pass")⟩]
    Device.blank none (.literal "")
  refine ⟨d, hrun, hvalid.mpr ?_ _ [] d (List.append_nil _).symm hrun⟩
  intro e he
  obtain rfl := List.mem_singleton.mp he
  intro f hkey hlen hcount hnul
  obtain rfl : Field.password = f := Field.key_injective (Option.some.inj hkey)
  decide

/-- A stored password of five bytes is loaded at boot, although the shell could
never have stored it. -/
theorem stored_short_password_loaded :
    ∃ d, storeMachine.Run ⟨AppConfig.defaults, ∅⟩
        [.load ⟨some (ascii "password"), 5, ReadCb.deliver (ascii "short")⟩] d ∧
      ¬ d.config.Valid ∧
      LoadAccepts AppConfig.defaults (some (ascii "password")) (.literal "short") ∧
      ¬ SetAccepts Device.blank (some (ascii "password")) (.literal "short") := by
  obtain ⟨d, hstep, hstr⟩ := loaded_value ∅ AppConfig.defaults
    ⟨some (ascii "password"), 5, ReadCb.deliver (ascii "short")⟩ (f := .password)
    rfl (by decide) (by decide) (by decide)
  refine ⟨d, Machine.Run.single hstep, ?_, ?_, ?_⟩
  · intro hvalid
    have hrule := hvalid .password
    rw [hstr] at hrule
    exact absurd hrule (by decide)
  · exact loadAccepts_iff.mpr ⟨.password, rfl, by decide⟩
  · rw [setAccepts_iff]
    rintro ⟨f, hkey, -, hrule⟩
    obtain rfl : Field.password = f := Field.key_injective (Option.some.inj hkey)
    exact absurd hrule (by decide)

end SensorPanel
