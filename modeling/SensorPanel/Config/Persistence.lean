import SensorPanel.Library.Machine
import SensorPanel.Config.Settings

/-!
# Settings across a reboot

The store holds at most one value for each field. Loading it in any order
replaces exactly the fields it holds; a successful `config_store_set` updates
RAM and store together, except that an empty value leaves no entry behind. Such
a field comes back as its compile-time default, which only `api_body` and
`ntp_host` can be told apart from the empty string.
-/

namespace SensorPanel

open Library

/-- What the store holds for each field. -/
abbrev Kept := (f : Field) → Option (Setting f)

namespace Kept

def loaded (kept : Kept) (s : Settings) : Settings := fun f => (kept f).getD (s f)

def save (kept : Kept) {f : Field} (v : Setting f) : Kept :=
  Function.update kept f (if v.value = [] then none else some v)

def Obeys (kept : Kept) : Prop := ∀ f v, kept f = some v → Field.Rule f v.value

theorem Obeys.save {kept : Kept} (h : kept.Obeys) {f : Field} {v : Setting f}
    (hv : f.Rule v.value) : (kept.save v).Obeys := by
  intro g w hw
  by_cases hg : g = f
  · subst hg
    by_cases hnil : v.value = []
    · simp [Kept.save, hnil] at hw
    · obtain rfl : v = w := by simpa [Kept.save, hnil] using hw
      exact hv
  · exact h g w (by simpa [Kept.save, hg] using hw)

theorem Obeys.loaded {kept : Kept} (h : kept.Obeys) {s : Settings} (hs : s.Valid) :
    (kept.loaded s).Valid := by
  intro f
  cases hf : kept f with
  | none => simpa [Kept.loaded, hf] using hs f
  | some v => simpa [Kept.loaded, hf] using h f v hf

end Kept

theorem settingsPath_injective {f g : Field} (h : settingsPath f.key = settingsPath g.key) :
    f = g := by
  cases f <;> cases g <;> first | rfl | exact absurd h (by decide)

/-- The store has one entry for each kept value and no others. -/
structure Holds (store : SettingsStore) (kept : Kept) : Prop where
  lookup_key : ∀ f : Field, store.lookup (settingsPath f.key) = (kept f).map Setting.value
  only_keys : ∀ path, (∀ f : Field, path ≠ settingsPath f.key) → store.lookup path = none

theorem holds_empty : Holds ∅ fun _ => none :=
  ⟨fun _ => rfl, fun _ _ => rfl⟩

theorem Holds.save {store : SettingsStore} {kept : Kept} (h : Holds store kept) {f : Field}
    (v : Setting f) : Holds (settingsSaveOne store (settingsPath f.key) v.value) (kept.save v) := by
  constructor
  · intro g
    by_cases hg : g = f
    · subst hg
      by_cases hnil : v.value = [] <;> simp [settingsSaveOne, Kept.save, hnil]
    · have hpath : settingsPath g.key ≠ settingsPath f.key :=
        fun he => hg (settingsPath_injective he)
      by_cases hnil : v.value = [] <;>
        simp [settingsSaveOne, Kept.save, hnil, hg, AList.lookup_erase_ne hpath,
          AList.lookup_insert_ne hpath, h.lookup_key g]
  · intro path hpath
    by_cases hnil : v.value = [] <;>
      simp [settingsSaveOne, hnil, AList.lookup_erase_ne (hpath f),
        AList.lookup_insert_ne (hpath f), h.only_keys path hpath]

theorem Holds.mem_entries {store : SettingsStore} {kept : Kept} (h : Holds store kept)
    {e : Entry} : e ∈ store.entries ↔
      ∃ f v, kept f = some v ∧ e = ⟨settingsPath (Field.key f), v.value⟩ := by
  have hmem : e ∈ store.entries ↔ store.lookup e.1 = some e.2 := AList.mem_lookup_iff.symm
  rw [hmem]
  constructor
  · intro he
    by_cases hkey : ∃ f : Field, e.1 = settingsPath f.key
    · obtain ⟨f, hf⟩ := hkey
      rw [hf, h.lookup_key, Option.map_eq_some_iff] at he
      obtain ⟨v, hv, hval⟩ := he
      exact ⟨f, v, hv, Sigma.ext hf (heq_of_eq hval.symm)⟩
    · push Not at hkey
      rw [h.only_keys _ hkey] at he
      exact absurd he (by simp)
  · rintro ⟨f, v, hv, rfl⟩
    rw [h.lookup_key, hv]
    rfl

theorem handlerCall_path (f : Field) (value : Bytes) :
    handlerCall ⟨settingsPath f.key, value⟩ =
      some ⟨some f.key, value.length, ReadCb.deliver value⟩ := by
  have hname : subtreeName (settingsPath f.key) = some f.key := by cases f <;> decide
  simp [handlerCall, hname]

/-- A stored value is accepted and replaces one field. -/
theorem loadSetting_deliver (s : Settings) {f : Field} (v : Setting f) :
    loadSetting s.config (some f.key) v.value.length (ReadCb.deliver v.value) =
      some (0, Settings.config (Function.update s f v)) := by
  have hcheck := loadSettingCheck_eq_ok_iff.mpr ⟨f, rfl, v.lt_capacity,
    show ((ReadCb.deliver v.value).read v.value.length).1 = _ by simp [ReadCb.deliver],
    by simpa using v.noNul, rfl⟩
  simp only [loadSetting, hcheck, Option.bind_some, s.store_config (loadSettingCheck_fits hcheck)]
  simp [FieldWrite.Fits.setting]

theorem loadSettings_entries (kept : Kept) (entries : List Entry)
    (h : ∀ e ∈ entries, ∃ f v, kept f = some v ∧ e = ⟨settingsPath (Field.key f), v.value⟩)
    (s : Settings) : ∃ t : Settings,
      loadSettings s.config (entries.filterMap handlerCall) = some t.config ∧
      ∀ f : Field, t f =
        if settingsPath f.key ∈ entries.map Sigma.fst then kept.loaded s f else s f := by
  induction entries generalizing s with
  | nil => exact ⟨s, rfl, fun f => by simp⟩
  | cons e entries ih =>
    obtain ⟨g, v, hv, rfl⟩ := h e (by simp)
    obtain ⟨t, hload, ht⟩ := ih (fun e he => h e (by simp [he])) (Function.update s g v)
    refine ⟨t, ?_, fun f => ?_⟩
    · rw [List.filterMap_cons_some (handlerCall_path g v.value), loadSettings, List.foldlM_cons,
        loadSetting_deliver]
      exact hload
    · rw [ht f]
      by_cases hf : f = g
      · subst hf
        simp [Kept.loaded, hv]
      · have hpath : settingsPath f.key ≠ settingsPath g.key :=
          fun he => hf (settingsPath_injective he)
        simp only [List.map_cons, List.mem_cons, hpath, false_or, Kept.loaded, ne_eq, hf,
          not_false_eq_true, Function.update_of_ne]

/-- A successful `config_store_init`, whatever the order of the entries. -/
theorem Holds.init {store : SettingsStore} {kept : Kept} (h : Holds store kept) (s : Settings)
    (order : LoadOrder) : configStoreInit ⟨s.config, store⟩ 0 order =
      some (0, ⟨(kept.loaded s).config, store⟩) := by
  have hperm := order.perm store.entries
  obtain ⟨t, hload, ht⟩ := loadSettings_entries kept (order.order store.entries)
    (fun e he => h.mem_entries.mp (hperm.mem_iff.mp he)) s
  have hloaded : t = kept.loaded s := by
    funext f
    rw [ht f]
    split_ifs with hmem
    · rfl
    · cases hf : kept f with
      | none => simp [Kept.loaded, hf]
      | some v =>
        have he : (⟨settingsPath f.key, v.value⟩ : Entry) ∈ store.entries :=
          h.mem_entries.mpr ⟨f, v, hf, rfl⟩
        exact absurd (List.mem_map_of_mem (f := Sigma.fst) (hperm.mem_iff.mpr he)) hmem
  simp [configStoreInit, hload, hloaded]

/-- The panel and whether the current boot has loaded its settings. -/
structure Session where
  device : Device
  loaded : Bool

inductive SessionEvent
  | set (key : Option Bytes) (value : Option CString) (saved : ℤ)
  | reboot (subsysInit : ℤ) (order : LoadOrder)

def sessionStep (s : Session) : SessionEvent → Option Session
  | .set key value saved =>
    (configStoreSet s.device key value saved).map fun r => { s with device := r.2 }
  | .reboot subsysInit order =>
    (configStoreInit s.device.reset subsysInit order).map fun r => ⟨r.2, r.1 = 0⟩

def sessionMachine : Machine Session SessionEvent := Machine.ofFn sessionStep

def Session.start : Session := ⟨Device.blank, false⟩

/-- A reboot that loads the store brings back the configuration of now. -/
def Survives (d : Device) : Prop :=
  ∀ order, ∃ d', configStoreInit d.reset 0 order = some (0, d') ∧
    configStoreGet d' = configStoreGet d

/-- A saved empty value for a setting whose compile-time default is not empty. -/
def SessionEvent.Empties : SessionEvent → Prop
  | .set key value saved => saved = 0 ∧ value.map CString.bytes = some [] ∧
      (key = some (ascii "api_body") ∨ key = some (ascii "ntp_host"))
  | .reboot _ _ => False

/-- The steps that keep every setting of a loaded panel reproducible. -/
def KeepsDefaults (s : Session) (e : SessionEvent) : Prop := s.loaded = true → ¬ e.Empties

/-- The values in RAM and in the store, whatever has happened. -/
structure Session.Models (s : Session) (settings : Settings) (kept : Kept) : Prop where
  config_eq : s.device.config = settings.config
  holds : Holds s.device.store kept
  obeys : kept.Obeys

/-- RAM holds what the store holds, and defaults elsewhere. -/
def Session.Synced (s : Session) (settings : Settings) (kept : Kept) : Prop :=
  s.loaded = true → settings = kept.loaded Settings.defaults

theorem Session.start_models : Session.start.Models Settings.defaults fun _ => none where
  config_eq := Settings.defaults_config.symm
  holds := holds_empty
  obeys := by simp [Kept.Obeys]

theorem Session.start_synced (settings : Settings) (kept : Kept) :
    Session.start.Synced settings kept := by
  intro h
  exact absurd h (by decide)

theorem Session.Models.set {s : Session} {settings : Settings} {kept : Kept}
    (h : s.Models settings kept) {f : Field} {v : CString} (hlen : v.bytes.length < f.capacity)
    (hrule : f.Rule v.bytes) :
    ∃ s', sessionStep s (.set (some f.key) (some v) 0) = some s' ∧ s'.loaded = s.loaded ∧
      s'.Models (Function.update settings f ⟨v.bytes, hlen, v.noNul⟩)
        (kept.save ⟨v.bytes, hlen, v.noNul⟩) := by
  obtain ⟨⟨config, store⟩, loaded⟩ := s
  obtain rfl : config = settings.config := h.config_eq
  have hcheck := configStoreSetCheck_eq_ok_iff.mpr ⟨f, v, rfl, rfl, hlen, hrule, rfl⟩
  have hfits := configStoreSetCheck_fits hcheck
  refine ⟨⟨⟨Settings.config (Function.update settings f hfits.setting),
    settingsSaveOne store (settingsPath f.key) v.bytes⟩, loaded⟩, ?_, rfl,
    rfl, h.holds.save hfits.setting, h.obeys.save hrule⟩
  simp [sessionStep, configStoreSet, hcheck, settings.store_config hfits]

/-- A save and the load that undoes it differ only in the defaults they fall back on. -/
theorem Kept.loaded_save {kept : Kept} {s : Settings} {f : Field} {v : Setting f}
    (h : v.value = [] → s f = v) :
    (kept.save v).loaded s = Function.update (kept.loaded s) f v := by
  funext g
  by_cases hg : g = f
  · subst hg
    by_cases hnil : v.value = []
    · simp [Kept.save, Kept.loaded, hnil, h hnil]
    · simp [Kept.save, Kept.loaded, hnil]
  · simp [Kept.save, Kept.loaded, hg]

/-- The fields an accepted empty value can be told apart from their default. -/
theorem default_of_empty {f : Field} {v : Setting f} (hrule : f.Rule v.value)
    (hnil : v.value = []) (hf : f ≠ .apiBody ∧ f ≠ .ntpHost) : Settings.defaults f = v := by
  ext1
  rw [hnil] at hrule ⊢
  cases f with
  | ssid | password | apiHost => rfl
  | apiPath => simp [Field.Rule] at hrule
  | apiBody => exact absurd rfl hf.1
  | ntpHost => exact absurd rfl hf.2

theorem sessionStep_models {s : Session} {settings : Settings} {kept : Kept}
    (h : s.Models settings kept) (e : SessionEvent) :
    ∃ s' settings' kept', sessionStep s e = some s' ∧ s'.Models settings' kept' ∧
      (KeepsDefaults s e → s.Synced settings kept → s'.Synced settings' kept') := by
  cases e with
  | set key value saved =>
    have hstep : sessionStep s (.set key value saved) =
        (configStoreSet ⟨settings.config, s.device.store⟩ key value saved).map
          fun r => { s with device := r.2 } := by rw [← h.config_eq, sessionStep]
    have hself : { s with device := ⟨settings.config, s.device.store⟩ } = s := by rw [← h.config_eq]
    rcases configStoreSet_config settings s.device.store key value saved with
      ⟨-, hset⟩ | ⟨w, hw, hcheck, hset⟩
    · refine ⟨s, settings, kept, ?_, h, fun _ hs => hs⟩
      rw [hstep, hset, Option.map_some, hself]
    · obtain ⟨f, v, rfl, rfl, hlen, hrule, rfl⟩ := configStoreSetCheck_eq_ok_iff.mp hcheck
      by_cases hsaved : saved = 0
      · subst hsaved
        obtain ⟨s', hs', hloaded, hmodels⟩ := h.set hlen hrule
        refine ⟨s', _, _, hs', hmodels, ?_⟩
        intro hkeeps hsynced hl
        rw [hloaded] at hl
        obtain rfl := hsynced hl
        have hne := hkeeps hl
        refine (Kept.loaded_save fun hnil => default_of_empty hrule hnil ?_).symm
        have hbytes : v.bytes = [] := hnil
        constructor <;> rintro rfl
        · exact hne ⟨rfl, by simp [hbytes], Or.inl rfl⟩
        · exact hne ⟨rfl, by simp [hbytes], Or.inr rfl⟩
      · refine ⟨s, settings, kept, ?_, h, fun _ hs => hs⟩
        rw [hstep, hset, if_neg hsaved, Option.map_some, hself]
  | reboot subsysInit order =>
    by_cases hinit : subsysInit = 0
    · subst hinit
      have hload := h.holds.init Settings.defaults order
      rw [Settings.defaults_config] at hload
      refine ⟨⟨⟨(kept.loaded Settings.defaults).config, s.device.store⟩, true⟩,
        kept.loaded Settings.defaults, kept, ?_, ⟨rfl, h.holds, h.obeys⟩, fun _ _ _ => rfl⟩
      simp [sessionStep, Device.reset, hload]
    · refine ⟨⟨s.device.reset, false⟩, Settings.defaults, kept, ?_,
        ⟨Settings.defaults_config.symm, h.holds, h.obeys⟩, fun _ _ hl => by simp at hl⟩
      simp [sessionStep, configStoreInit, hinit]

theorem sessionMachine_models {events : List SessionEvent} {t : Session}
    (h : sessionMachine.Run Session.start events t) : ∃ settings kept, t.Models settings kept := by
  refine Machine.Run.invariant (I := fun s => ∃ settings kept, Session.Models s settings kept) h
    ⟨_, _, Session.start_models⟩ ?_
  rintro s e t ⟨settings, kept, hs⟩ hstep
  obtain ⟨s', settings', kept', hnext, hs', -⟩ := sessionStep_models hs e
  obtain rfl := Option.some.inj (hnext.symm.trans hstep)
  exact ⟨settings', kept', hs'⟩

theorem sessionMachine_run (events : List SessionEvent) :
    ∃ t, sessionMachine.Run Session.start events t := by
  have hstart : ∃ settings kept, Session.start.Models settings kept :=
    ⟨_, _, Session.start_models⟩
  have htotal : ∀ s e, (∃ settings kept, Session.Models s settings kept) →
      ∃ t, sessionMachine.Step s e t ∧ ∃ settings kept, t.Models settings kept := by
    rintro s e ⟨settings, kept, hs⟩
    obtain ⟨s', settings', kept', hnext, hs', -⟩ := sessionStep_models hs e
    exact ⟨s', hnext, settings', kept', hs'⟩
  obtain ⟨t, hrun, -⟩ := Machine.exists_run_of_total htotal hstart events
  exact ⟨t, hrun⟩

theorem Session.Models.survives_iff {s : Session} {settings : Settings} {kept : Kept}
    (h : s.Models settings kept) :
    Survives s.device ↔ settings = kept.loaded Settings.defaults := by
  have hload := fun order => h.holds.init Settings.defaults order
  rw [Settings.defaults_config] at hload
  constructor
  · intro hsurvives
    obtain ⟨d', hinit, hget⟩ := hsurvives .asStored
    rw [Device.reset, hload] at hinit
    obtain rfl := (Prod.ext_iff.mp (Option.some.inj hinit)).2
    rw [configStoreGet, configStoreGet, h.config_eq] at hget
    exact (Settings.config_injective hget).symm
  · rintro rfl order
    refine ⟨_, hload order, ?_⟩
    rw [configStoreGet, configStoreGet, h.config_eq]

theorem sessionMachine_synced {events : List SessionEvent} {t : Session}
    (h : (sessionMachine.restrict KeepsDefaults).Run Session.start events t) :
    ∃ settings kept, t.Models settings kept ∧ t.Synced settings kept := by
  refine Machine.Run.invariant
    (I := fun s => ∃ settings kept, Session.Models s settings kept ∧ s.Synced settings kept) h
    ⟨_, _, Session.start_models, Session.start_synced _ _⟩ ?_
  rintro s e t ⟨settings, kept, hs, hsynced⟩ ⟨hkeeps, hstep⟩
  obtain ⟨s', settings', kept', hnext, hs', hsynced'⟩ := sessionStep_models hs e
  obtain rfl := Option.some.inj (hnext.symm.trans hstep)
  exact ⟨settings', kept', hs', hsynced' hkeeps hsynced⟩

/-- A saved empty `api_body` or `ntp_host` is in RAM and nowhere else. -/
theorem emptied_not_survives {s t : Session} {e : SessionEvent} {settings : Settings} {kept : Kept}
    (hs : s.Models settings kept) (hstep : sessionMachine.Step s e t) (he : e.Empties) :
    t.loaded = s.loaded ∧ ¬ Survives t.device := by
  cases e with
  | reboot subsysInit order => exact he.elim
  | set key value saved =>
    obtain ⟨rfl, hvalue, hkey⟩ := he
    obtain ⟨v, rfl, hv⟩ := Option.map_eq_some_iff.mp hvalue
    obtain ⟨f, rfl, hdefault⟩ : ∃ f, key = some (Field.key f) ∧ f.Rule [] ∧
        (Settings.defaults f).value ≠ [] := by
      rcases hkey with rfl | rfl
      · exact ⟨.apiBody, rfl, by decide, by decide⟩
      · exact ⟨.ntpHost, rfl, by decide, by decide⟩
    have hrule : f.Rule v.bytes := by
      rw [hv]
      exact hdefault.1
    obtain ⟨s', hs', hloaded, hmodels⟩ :=
      hs.set (v := v) (by rw [hv]; exact f.capacity_pos) hrule
    obtain rfl := Option.some.inj (hs'.symm.trans hstep)
    refine ⟨hloaded, ?_⟩
    rw [hmodels.survives_iff]
    intro heq
    have hfield := congrArg Setting.value (congrFun heq f)
    simp only [Function.update_self, Kept.loaded, Kept.save, hv, if_true,
      Option.getD_none] at hfield
    exact hdefault.2 hfield.symm

/-- When settings survive a reboot. In every run in which no successful save of
a loaded panel empties `api_body` or `ntp_host`, a reboot taken at any point at
which the boot has loaded its settings brings back the configuration of that
point; right after such a save it never does. The points of a boot whose
`config_store_init` has failed are left out: RAM holds the defaults there and what
was set since, whatever is in flash. -/
theorem settings_survive_reboot (events : List SessionEvent) :
    (∃ t, sessionMachine.Run Session.start events t) ∧
    (∀ t, (sessionMachine.restrict KeepsDefaults).Run Session.start events t →
      t.loaded = true → Survives t.device) ∧
    ∀ s e t, sessionMachine.Run Session.start events s → sessionMachine.Step s e t →
      ¬ KeepsDefaults s e → t.loaded = true ∧ ¬ Survives t.device := by
  refine ⟨sessionMachine_run events, ?_, ?_⟩
  · intro t hrun hloaded
    obtain ⟨settings, kept, ht, hsynced⟩ := sessionMachine_synced hrun
    exact ht.survives_iff.mpr (hsynced hloaded)
  · intro s e t hrun hstep hkeeps
    obtain ⟨settings, kept, hs⟩ := sessionMachine_models hrun
    simp only [KeepsDefaults, Classical.not_imp, not_not] at hkeeps
    obtain ⟨hloaded, hnot⟩ := emptied_not_survives hs hstep hkeeps.2
    exact ⟨hloaded.trans hkeeps.1, hnot⟩

def firstBoot : SessionEvent := .reboot 0 .asStored

theorem firstBoot_step : ∃ s, sessionMachine.Step Session.start firstBoot s ∧ s.loaded = true ∧
    ∃ settings kept, s.Models settings kept := by
  have hload := holds_empty.init Settings.defaults .asStored
  rw [Settings.defaults_config] at hload
  refine ⟨⟨⟨(Kept.loaded (fun _ => none) Settings.defaults).config, ∅⟩, true⟩, ?_, rfl, _, _,
    ⟨rfl, holds_empty, Session.start_models.obeys⟩⟩
  simp [sessionMachine, sessionStep, firstBoot, Session.start, Device.blank, Device.reset, hload]

theorem named_network_survives : ∃ t, sessionMachine.Run Session.start
    [firstBoot, .set (some (ascii "ssid")) (some (.literal "home")) 0] t ∧
      t.loaded = true ∧ Survives t.device := by
  obtain ⟨s, hboot, hloaded, settings, kept, hs⟩ := firstBoot_step
  obtain ⟨t, hset, ht, -⟩ :=
    hs.set (f := .ssid) (v := .literal "home") (by decide) trivial
  have hkeeps : KeepsDefaults s
      (.set (some (ascii "ssid")) (some (.literal "home")) 0) := by
    rintro - ⟨-, hvalue, -⟩
    exact absurd (Option.some.inj hvalue) (by decide)
  have hrun := (Machine.Run.single (M := sessionMachine.restrict KeepsDefaults)
    ⟨fun _ => id, hboot⟩).snoc ⟨hkeeps, hset⟩
  rw [hloaded] at ht
  exact ⟨t, hrun.of_restrict, ht, (settings_survive_reboot _).2.1 t hrun ht⟩

/-- After a first boot, `panel set ntp_host ""` is answered with success and is
undone by the next boot. -/
theorem emptied_ntp_host_returns : ∃ t, sessionMachine.Run Session.start
    [firstBoot, .set (some (ascii "ntp_host")) (some (.literal "")) 0] t ∧
      t.loaded = true ∧ ¬ Survives t.device := by
  obtain ⟨s, hboot, hloaded, settings, kept, hs⟩ := firstBoot_step
  obtain ⟨t, hset, -, -⟩ := hs.set (f := .ntpHost) (v := .literal "") (by decide) (by decide)
  obtain ⟨ht, hnot⟩ := emptied_not_survives hs hset ⟨rfl, rfl, Or.inr rfl⟩
  exact ⟨t, (Machine.Run.single hboot).snoc hset, ht.trans hloaded, hnot⟩

end SensorPanel
