import SensorPanel.Config.Settings
import SensorPanel.Library.Threads

/-!
# Callers of the configuration store, step by step

The functions of the store as threads run them: every lock, save, handler
call, RAM write and release is a step of its own. Beside `config_lock` there is
the mutex of the settings subsystem, held for the whole of
`settings_load_subtree` and of `settings_save_one`. Saves and reads return
whatever they like.
-/

namespace SensorPanel

open Library

/-- `config_lock` and the mutex of the settings subsystem. -/
inductive StoreLock
  | config | subsystem
  deriving DecidableEq, Repr

/-- A call of `config_store_set` that has passed its checks. -/
structure SetRequest where
  key : Option Bytes
  value : Option CString
  write : FieldWrite
  accepted : configStoreSetCheck key value = .ok write

inductive Call
  | set (key : Option Bytes) (value : Option CString)
  | get (out : AppConfig)

/-- The steps other than locking, with what they pass and what comes back. -/
inductive StoreEvent
  | call (c : Call)
  | save (r : SetRequest) (err : ℤ)
  | memset (dst : Field)
  | memcpy (dst : Field)
  | setReturn (key : Option Bytes) (value : Option CString) (err : ℤ)
  | copyOut (f : Field)
  | getReturn (out : AppConfig)
  | subsysInit (err : ℤ)
  | handler (e : Entry)
  | initReturn (err : ℤ)

/-- Where a thread stands. `config_store_get` copies the struct field by field;
`config_store_init` has the entries of the subtree still to visit. -/
inductive Caller
  | idle
  | setLock (r : SetRequest)
  | setSaveLock (r : SetRequest)
  | setSave (r : SetRequest)
  | setSaveUnlock (r : SetRequest) (err : ℤ)
  | setClear (r : SetRequest)
  | setCopy (r : SetRequest)
  | setUnlock (r : SetRequest) (err : ℤ)
  | setReturn (key : Option Bytes) (value : Option CString) (err : ℤ)
  | getLock (out : AppConfig)
  | getCopy (out : AppConfig) (rest : List Field)
  | getReturn (out : AppConfig)
  | initStart
  | initLock
  | initEntries (rest : List Entry)
  | loadLock (w : FieldWrite) (fits : w.Fits) (rest : List Entry)
  | loadClear (w : FieldWrite) (fits : w.Fits) (rest : List Entry)
  | loadCopy (w : FieldWrite) (fits : w.Fits) (rest : List Entry)
  | loadUnlock (rest : List Entry)
  | initReturn (err : ℤ)

namespace Caller

def allFields : List Field := [.ssid, .password, .apiHost, .apiPath, .apiBody, .ntpHost]

theorem mem_allFields (f : Field) : f ∈ allFields := by
  cases f <;> decide

def Holds : Caller → StoreLock → Prop
  | idle, _ | setLock _, _ | setReturn _ _ _, _ => False
  | setSaveLock _, l | setClear _, l | setCopy _, l | setUnlock _ _, l => l = .config
  | setSave _, _ | setSaveUnlock _ _, _ => True
  | getLock _, _ | getReturn _, _ => False
  | getCopy _ _, l => l = .config
  | initStart, _ | initLock, _ | initReturn _, _ => False
  | initEntries _, l | loadLock _ _ _, l => l = .subsystem
  | loadClear _ _ _, _ | loadCopy _ _ _, _ | loadUnlock _, _ => True

/-- One step of the functions of `config_store.c`. -/
inductive Step : Device → Caller → Act StoreLock StoreEvent → Device → Caller → Prop
  | reject {d key value err} (check : configStoreSetCheck key value = .error err) :
      Step d idle (.emit (.call (.set key value))) d (setReturn key value err)
  | accept {d} (r : SetRequest) :
      Step d idle (.emit (.call (.set r.key r.value))) d (setLock r)
  | setLock {d r} : Step d (setLock r) (.lock .config) d (setSaveLock r)
  | setSaveLock {d r} : Step d (setSaveLock r) (.lock .subsystem) d (setSave r)
  | saved {config store r} :
      Step ⟨config, store⟩ (setSave r) (.emit (.save r 0))
        ⟨config, settingsSaveOne store (settingsPath (r.key.getD [])) r.write.value⟩
        (setSaveUnlock r 0)
  | notSaved {d r err} (failed : err ≠ 0) :
      Step d (setSave r) (.emit (.save r err)) d (setSaveUnlock r err)
  | savedUnlock {d r} : Step d (setSaveUnlock r 0) (.unlock .subsystem) d (setClear r)
  | notSavedUnlock {d r err} (failed : err ≠ 0) :
      Step d (setSaveUnlock r err) (.unlock .subsystem) d (setUnlock r err)
  | setClear {config store r config'}
      (clear : config.memset r.write.dst r.write.capacity = some config') :
      Step ⟨config, store⟩ (setClear r) (.emit (.memset r.write.dst)) ⟨config', store⟩ (setCopy r)
  | setCopy {config store r config'}
      (copy : config.memcpy r.write.dst r.write.value = some config') :
      Step ⟨config, store⟩ (setCopy r) (.emit (.memcpy r.write.dst)) ⟨config', store⟩
        (setUnlock r 0)
  | setUnlock {d r err} :
      Step d (setUnlock r err) (.unlock .config) d (setReturn r.key r.value err)
  | setReturn {d key value err} :
      Step d (setReturn key value err) (.emit (.setReturn key value err)) d idle
  | get {d out} : Step d idle (.emit (.call (.get out))) d (getLock out)
  | getLock {d out} : Step d (getLock out) (.lock .config) d (getCopy out allFields)
  | getCopy {d out f rest} : Step d (getCopy out (f :: rest)) (.emit (.copyOut f)) d
      (getCopy (out.put f (d.config.get f)) rest)
  | getUnlock {d out} : Step d (getCopy out []) (.unlock .config) d (getReturn out)
  | getReturn {d out} : Step d (getReturn out) (.emit (.getReturn out)) d idle
  | initStart {d} : Step d initStart (.emit (.subsysInit 0)) d initLock
  | initFailed {d err} (failed : err ≠ 0) :
      Step d initStart (.emit (.subsysInit err)) d (initReturn err)
  | initLock {d} (order : LoadOrder) : Step d initLock (.lock .subsystem) d
      (initEntries (order.order d.store.entries))
  | otherTree {d e rest} (other : subtreeName e.1 = none) :
      Step d (initEntries (e :: rest)) (.emit (.handler e)) d (initEntries rest)
  | refused {d e rest name err} {readCb : ReadCb} (inTree : subtreeName e.1 = some name)
      (check : loadSettingCheck (some name) e.2.length readCb = some (.error err)) :
      Step d (initEntries (e :: rest)) (.emit (.handler e)) d (initEntries rest)
  | loaded {d e rest name w} {readCb : ReadCb} (inTree : subtreeName e.1 = some name)
      (check : loadSettingCheck (some name) e.2.length readCb = some (.ok w)) :
      Step d (initEntries (e :: rest)) (.emit (.handler e)) d
        (loadLock w (loadSettingCheck_fits check) rest)
  | loadLock {d w fits rest} :
      Step d (loadLock w fits rest) (.lock .config) d (loadClear w fits rest)
  | loadClear {config store w fits rest config'}
      (clear : config.memset w.dst w.capacity = some config') :
      Step ⟨config, store⟩ (loadClear w fits rest) (.emit (.memset w.dst)) ⟨config', store⟩
        (loadCopy w fits rest)
  | loadCopy {config store w fits rest config'}
      (copy : config.memcpy w.dst w.value = some config') :
      Step ⟨config, store⟩ (loadCopy w fits rest) (.emit (.memcpy w.dst)) ⟨config', store⟩
        (loadUnlock rest)
  | loadUnlock {d rest} : Step d (loadUnlock rest) (.unlock .config) d (initEntries rest)
  | initUnlock {d} : Step d (initEntries []) (.unlock .subsystem) d (initReturn 0)
  | initReturn {d err} : Step d (initReturn err) (.emit (.initReturn err)) d idle

end Caller

def storeCode : Code Device Caller StoreLock StoreEvent where
  Step := Caller.Step
  Holds := Caller.Holds
  lock_holds := by
    intro m p l m' p' h
    cases h <;> refine ⟨by simp [Caller.Holds], fun k => ?_⟩ <;> cases k <;> simp [Caller.Holds]
  unlock_holds := by
    intro m p l m' p' h
    cases h <;> refine ⟨by simp [Caller.Holds], fun k => ?_⟩ <;> cases k <;> simp [Caller.Holds]
  emit_holds := by
    intro m p a m' p' h k
    cases h <;> simp [Caller.Holds]

abbrev StoreSystem (ι : Type*) := Threads Device Caller StoreLock ι

abbrev StoreAction (ι : Type*) := ι × Act StoreLock StoreEvent

namespace Caller

variable {d d' : Device} {p p' : Caller} {a : Act StoreLock StoreEvent}

theorem memset_eq (c : AppConfig) {w : FieldWrite} (h : w.Fits) :
    c.memset w.dst w.capacity = some (c.put w.dst (Buffer.zero _)) := by
  rw [AppConfig.memset, h.capacity_eq, Buffer.write_zeros, Option.map_some]

theorem memcpy_eq {c : AppConfig} {w : FieldWrite} (h : w.Fits)
    (hclear : c.get w.dst = Buffer.zero _) :
    c.memcpy w.dst w.value = some (c.put w.dst h.setting.buffer) := by
  rw [AppConfig.memcpy, hclear, Buffer.zero_write h.lt_capacity.le, Option.map_some]
  rfl

end Caller

end SensorPanel
