import SensorPanel.Config.Writers
import SensorPanel.Library.Sections

/-!
# The calls of the store, one after another

A set, a get and the part of `load_setting` behind its checks are sections under
`config_lock`. Between its save and the end of its RAM write a set owes the store
the rest of its code, and so does a load between its lock and its copy. Run to their
ends, the sections are the functions of the store called alone.
-/

namespace SensorPanel

open Library

/-- What a call does to the store at one moment: a set, with its result, a get, with
what it fills, and a value that `load_setting` brings. -/
inductive StoreOp
  | set (key : Option Bytes) (value : Option CString) (err : ℤ)
  | get (out : AppConfig)
  | load (w : FieldWrite)

namespace StoreOp

/-- The functions of the store with nobody beside them. -/
def step (d : Device) : StoreOp → Option Device
  | set key value err =>
    (configStoreSet d key value err).bind fun r => if r.1 = err then some r.2 else none
  | get out => if configStoreGet d = out then some d else none
  | load w => (d.config.store w).map fun config => { d with config := config }

def alone : Machine Device StoreOp := Machine.ofFn step

def saves : StoreOp → Prop
  | set _ _ err => err = 0
  | _ => False

def loads : StoreOp → Prop
  | load _ => True
  | _ => False

instance : DecidablePred loads := fun op => by
  cases op <;> unfold loads <;> infer_instance

variable {d d' : Device} {op : StoreOp}

theorem step_rejected {key : Option Bytes} {value : Option CString} {err : ℤ}
    (h : configStoreSetCheck key value = .error err) : step d (set key value err) = some d := by
  simp [step, configStoreSet, h]

theorem step_notSaved (r : SetRequest) {err : ℤ} (h : err ≠ 0) :
    step d (set r.key r.value err) = some d := by
  simp [step, configStoreSet, r.accepted, h]

theorem step_saved {config config' : AppConfig} {store : SettingsStore} (r : SetRequest)
    (h : config.store r.write = some config') : step ⟨config, store⟩ (set r.key r.value 0) =
      some ⟨config', settingsSaveOne store (settingsPath (r.key.getD [])) r.write.value⟩ := by
  simp [step, configStoreSet, r.accepted, h]

theorem step_eq (h : step d op = some d') (hsaves : ¬ op.saves) (hloads : ¬ op.loads) :
    d' = d := by
  cases op with
  | set key value err =>
    obtain ⟨⟨err', d''⟩, hset, hresult⟩ := Option.bind_eq_some_iff.mp h
    dsimp only at hresult
    split_ifs at hresult with herr
    subst herr
    obtain rfl := Option.some.inj hresult
    unfold configStoreSet at hset
    cases hcheck : configStoreSetCheck key value with
    | error err =>
      simp only [hcheck, Option.some.injEq, Prod.mk.injEq] at hset
      exact hset.2.symm
    | ok w =>
      have hfailed : err' ≠ 0 := hsaves
      simp only [hcheck, hfailed, if_false, Option.some.injEq, Prod.mk.injEq, true_and] at hset
      exact hset.symm
  | get out =>
    simp only [step, Option.ite_none_right_eq_some, Option.some.injEq] at h
    exact h.2.symm
  | load w => exact absurd trivial hloads

end StoreOp

open StoreOp (alone)

namespace Caller

/-- What a step does to the store, once its thread is run to the end of its section. -/
def effect : Caller → Act StoreLock StoreEvent → Option StoreOp
  | idle, .emit (.call (.set key value)) =>
    match configStoreSetCheck key value with
    | .error err => some (.set key value err)
    | .ok _ => none
  | setSave r, .emit (.save _ err) => some (.set r.key r.value err)
  | getCopy out [], .unlock _ => some (.get out)
  | loadLock w _ _, .lock _ => some (.load w)
  | _, _ => none

/-- Run to the end of its section on this RAM, the thread leaves this configuration.
A copy agrees with the RAM where it has been made. -/
def Owes (ram config : AppConfig) : Caller → Prop
  | setSaveUnlock r err => if err = 0 then ram.store r.write = some config else config = ram
  | setClear r => ram.store r.write = some config
  | setCopy r => ram.memcpy r.write.dst r.write.value = some config
  | loadClear w _ _ => ram.store w = some config
  | loadCopy w _ _ => ram.memcpy w.dst w.value = some config
  | getCopy out rest => config = ram ∧ ∀ f, f ∉ rest → out.get f = ram.get f
  | _ => config = ram

variable {d d' : Device} {p p' : Caller} {a : Act StoreLock StoreEvent} {ram config : AppConfig}

theorem owes_iff (h : ¬ p.Holds .config) : p.Owes ram config ↔ config = ram := by
  cases p <;> simp_all [Holds, Owes]

/-- A step of a thread with nobody else in a section is what the call does alone. -/
theorem step_alone (h : Step d p a d' p') (hp : p.Owes d.config config) :
    ∃ v, alone.Run ⟨config, d.store⟩ (p.effect a).toList v ∧ v.store = d'.store ∧
      p'.Owes d'.config v.config := by
  cases h with
  | @reject _ key value err check =>
    obtain rfl : config = d.config := hp
    refine ⟨d, ?_, rfl, rfl⟩
    simp only [effect, check]
    exact Machine.Run.single (StoreOp.step_rejected check)
  | accept r =>
    obtain rfl : config = d.config := hp
    refine ⟨d, ?_, rfl, rfl⟩
    simp only [effect, r.accepted]
    exact Machine.Run.nil _
  | @saved ram store r =>
    obtain rfl : config = ram := hp
    obtain ⟨config', hstore⟩ : ∃ config', config.store r.write = some config' :=
      ⟨_, config.store_eq r.fits⟩
    exact ⟨_, Machine.Run.single (StoreOp.step_saved r hstore), rfl, by simpa [Owes] using hstore⟩
  | @notSaved _ r err failed =>
    obtain rfl : config = d.config := hp
    refine ⟨d, Machine.Run.single (StoreOp.step_notSaved r failed), rfl, ?_⟩
    simp [Owes, failed]
  | savedUnlock => exact ⟨_, Machine.Run.nil _, rfl, by simpa [Owes] using hp⟩
  | notSavedUnlock failed => exact ⟨_, Machine.Run.nil _, rfl, by simpa [Owes, failed] using hp⟩
  | setClear clear | loadClear clear =>
    obtain ⟨cleared, hclear, hcopy⟩ := Option.bind_eq_some_iff.mp hp
    obtain rfl := Option.some.inj (clear.symm.trans hclear)
    exact ⟨_, Machine.Run.nil _, rfl, hcopy⟩
  | setCopy copy | loadCopy copy =>
    obtain rfl := Option.some.inj (copy.symm.trans hp)
    exact ⟨_, Machine.Run.nil _, rfl, rfl⟩
  | getLock => exact ⟨_, Machine.Run.nil _, rfl, hp, fun f hf => absurd (mem_allFields f) hf⟩
  | @getCopy _ out f rest =>
    obtain ⟨hram, hout⟩ := hp
    refine ⟨_, Machine.Run.nil _, rfl, hram, fun g hg => ?_⟩
    by_cases hgf : g = f
    · subst hgf
      rw [AppConfig.get_put_self]
    · rw [AppConfig.get_put_of_ne _ _ hgf, hout g (by simp [hgf, hg])]
  | @getUnlock _ out =>
    obtain ⟨rfl, hout⟩ := hp
    obtain rfl : out = d.config := AppConfig.ext_get fun f => hout f (by simp)
    exact ⟨d, Machine.Run.single (by simp [alone, StoreOp.step, configStoreGet]), rfl, rfl⟩
  | @loadLock _ w fits rest =>
    obtain rfl : config = d.config := hp
    obtain ⟨config', hstore⟩ : ∃ config', d.config.store w = some config' :=
      ⟨_, d.config.store_eq fits⟩
    refine ⟨⟨config', d.store⟩, Machine.Run.single ?_, rfl, hstore⟩
    simp [alone, StoreOp.step, hstore]
  | _ => exact ⟨_, Machine.Run.nil _, rfl, hp⟩

theorem step_beside (h : Step d p a d' p') (hp : ¬ p.Holds .config) (ha : a ≠ .lock .config)
    (v : Device) : d' = d ∧ alone.Run v (p.effect a).toList v := by
  cases h with
  | @reject _ key value err check =>
    refine ⟨rfl, ?_⟩
    simp only [effect, check]
    exact Machine.Run.single (StoreOp.step_rejected check)
  | accept r =>
    refine ⟨rfl, ?_⟩
    simp only [effect, r.accepted]
    exact Machine.Run.nil _
  | setLock | getLock | loadLock => exact absurd rfl ha
  | setSaveLock | saved | notSaved | savedUnlock | notSavedUnlock | setClear | setCopy | setUnlock
  | getCopy | getUnlock | loadClear | loadCopy | loadUnlock => simp [Holds] at hp
  | _ => exact ⟨rfl, Machine.Run.nil _⟩

end Caller

/-- The sections of the store, which are its functions called alone. -/
def storeSections : Sections storeCode alone where
  lock := .config
  effect := Caller.effect
  Stands m v := v = m
  Owes m p v := v.store = m.store ∧ p.Owes m.config v.config
  owes_iff := by
    intro m p v hp
    rw [Caller.owes_iff hp]
    constructor
    · rintro ⟨hstore, hconfig⟩
      obtain ⟨config, store⟩ := v
      obtain rfl : config = m.config := hconfig
      obtain rfl : store = m.store := hstore
      rfl
    · rintro rfl
      exact ⟨rfl, rfl⟩
  alone := by
    rintro m p a m' p' ⟨config, store⟩ hstep ⟨rfl, howes⟩
    exact Caller.step_alone hstep howes
  beside := by
    intro m p a m' p' v hstep hp ha
    obtain ⟨rfl, hrun⟩ := Caller.step_beside hstep hp ha v
    exact ⟨hrun, fun q howes => howes⟩

end SensorPanel
