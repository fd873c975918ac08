import SensorPanel.Library.Buffer
import SensorPanel.Errno
import Mathlib.Data.List.AList
import Mathlib.Tactic

/-!
# The configuration store

The six settings live in fixed-size buffers. `configStoreSet` is the writer
behind the shell, `loadSetting` the handler the settings subsystem calls for
each stored entry; both clear a field and copy a value over it under the same
lock. Each function has no result where the C code would leave a buffer. The
settings subsystem itself is outside the repository: saving, deleting and
loading follow what the NVS backend documents.
-/

namespace SensorPanel

open Library

@[ext] structure AppConfig where
  ssid : Buffer 33
  password : Buffer 65
  apiHost : Buffer 128
  apiPath : Buffer 192
  apiBody : Buffer 1024
  ntpHost : Buffer 128
  deriving DecidableEq

/-- The addresses `field` can return. -/
inductive Field
  | ssid | password | apiHost | apiPath | apiBody | ntpHost
  deriving DecidableEq, Repr

namespace Field

def capacity : Field → ℕ
  | ssid => 33
  | password => 65
  | apiHost => 128
  | apiPath => 192
  | apiBody => 1024
  | ntpHost => 128

def key : Field → Bytes
  | ssid => ascii "ssid"
  | password => ascii "password"
  | apiHost => ascii "api_host"
  | apiPath => ascii "api_path"
  | apiBody => ascii "api_body"
  | ntpHost => ascii "ntp_host"

theorem key_injective : Function.Injective key := by
  intro f g h
  cases f <;> cases g <;> first | rfl | exact absurd h (by decide)

theorem capacity_pos (f : Field) : 0 < f.capacity := by
  cases f <;> decide

theorem capacity_le (f : Field) : f.capacity ≤ 1024 := by
  cases f <;> decide

end Field

namespace AppConfig

def get (c : AppConfig) : (f : Field) → Buffer f.capacity
  | .ssid => c.ssid
  | .password => c.password
  | .apiHost => c.apiHost
  | .apiPath => c.apiPath
  | .apiBody => c.apiBody
  | .ntpHost => c.ntpHost

def put (c : AppConfig) : (f : Field) → Buffer f.capacity → AppConfig
  | .ssid, b => { c with ssid := b }
  | .password, b => { c with password := b }
  | .apiHost, b => { c with apiHost := b }
  | .apiPath, b => { c with apiPath := b }
  | .apiBody, b => { c with apiBody := b }
  | .ntpHost, b => { c with ntpHost := b }

theorem ext_get {c d : AppConfig} (h : ∀ f, c.get f = d.get f) : c = d := by
  ext1
  · exact h .ssid
  · exact h .password
  · exact h .apiHost
  · exact h .apiPath
  · exact h .apiBody
  · exact h .ntpHost

@[simp] theorem get_put_self (c : AppConfig) (f : Field) (b : Buffer f.capacity) :
    (c.put f b).get f = b := by
  cases f <;> rfl

@[simp] theorem get_put_of_ne (c : AppConfig) {f g : Field} (b : Buffer f.capacity) (h : g ≠ f) :
    (c.put f b).get g = c.get g := by
  cases f <;> cases g <;> first | rfl | exact absurd rfl h

@[simp] theorem put_put (c : AppConfig) (f : Field) (a b : Buffer f.capacity) :
    (c.put f a).put f b = c.put f b := by
  cases f <;> rfl

def memset (c : AppConfig) (dst : Field) (capacity : ℕ) : Option AppConfig :=
  ((c.get dst).write 0 (List.replicate capacity 0)).map (c.put dst)

def memcpy (c : AppConfig) (dst : Field) (value : Bytes) : Option AppConfig :=
  ((c.get dst).write 0 value).map (c.put dst)

/-- The static `config` as the compiler initialises it. -/
def defaults : AppConfig where
  ssid := Buffer.zero _
  password := Buffer.zero _
  apiHost := Buffer.zero _
  apiPath := Buffer.padded _ (ascii "/")
  apiBody := Buffer.padded _ (ascii "{}")
  ntpHost := Buffer.padded _ (ascii "pool.ntp.org")

end AppConfig

/-- The field a key names and its size; a NULL key names none. -/
def field (key : Option Bytes) : Option (Field × ℕ) :=
  match key with
  | none => none
  | some key =>
    if key = ascii "ssid" then some (.ssid, Field.ssid.capacity)
    else if key = ascii "password" then some (.password, Field.password.capacity)
    else if key = ascii "api_host" then some (.apiHost, Field.apiHost.capacity)
    else if key = ascii "api_path" then some (.apiPath, Field.apiPath.capacity)
    else if key = ascii "api_body" then some (.apiBody, Field.apiBody.capacity)
    else if key = ascii "ntp_host" then some (.ntpHost, Field.ntpHost.capacity)
    else none

/-- The write a caller has checked and is about to make under the lock. -/
structure FieldWrite where
  dst : Field
  capacity : ℕ
  value : Bytes
  deriving DecidableEq, Repr

/-- What `settings_read_cb` returns and writes when asked for `len` bytes. The
subsystem's callbacks write no more than they are asked for. -/
structure ReadCb where
  read : ℕ → ℤ × Bytes
  bounded : ∀ len, (read len).2.length ≤ len

/-- `load_setting` up to its lock: the error it returns, or the write it makes.
The value is read into a cleared scratch buffer of 1024 bytes. -/
def loadSettingCheck (key : Option Bytes) (len : ℕ) (readCb : ReadCb) :
    Option (Except ℤ FieldWrite) :=
  match field key with
  | none => some (.error (-ENOENT))
  | some (dst, capacity) =>
    if capacity ≤ len then some (.error (-EINVAL))
    else
      let read := readCb.read len
      ((Buffer.zero 1024).write 0 read.2).bind fun value =>
        if read.1 < 0 then some (.error read.1)
        else if read.1.toNat ≠ len then some (.error (-EINVAL))
        else (value.read 0 len).map fun bytes =>
          if 0 ∈ bytes then .error (-EINVAL) else .ok ⟨dst, capacity, bytes⟩

/-- The locked part of both writers: clear the field, then copy the value. -/
def AppConfig.store (c : AppConfig) (w : FieldWrite) : Option AppConfig :=
  (c.memset w.dst w.capacity).bind fun cleared => cleared.memcpy w.dst w.value

/-- `load_setting`: its result and the configuration it leaves. -/
def loadSetting (config : AppConfig) (key : Option Bytes) (len : ℕ) (readCb : ReadCb) :
    Option (ℤ × AppConfig) :=
  (loadSettingCheck key len readCb).bind fun
    | .error err => some (err, config)
    | .ok w => (config.store w).map fun config => (0, config)

def strpbrk (s accept : Bytes) : Bool := s.any fun b => b ∈ accept

/-- `config_store_set` up to its lock: the error it returns, or the write it makes. -/
def configStoreSetCheck (key : Option Bytes) (value : Option CString) : Except ℤ FieldWrite :=
  match field key, value with
  | some (dst, capacity), some value =>
    let len := value.bytes.length
    if capacity ≤ len ∨
        (key = some (ascii "api_path") ∧ (len = 0 ∨ value.bytes.head? ≠ (ascii "/").head?)) then
      .error (-EINVAL)
    else if key = some (ascii "password") ∧ len ≠ 0 ∧ (len < 8 ∨ 63 < len) then .error (-EINVAL)
    else if (key = some (ascii "api_host") ∨ key = some (ascii "ntp_host")) ∧
        strpbrk value.bytes (ascii "\r\n/ :") then .error (-EINVAL)
    else if key = some (ascii "api_path") ∧ strpbrk value.bytes (ascii "\r\n") then
      .error (-EINVAL)
    else .ok ⟨dst, capacity, value.bytes⟩
  | _, _ => .error (-EINVAL)

/-- The path `config_store_set` formats into its buffer of 48 bytes. -/
def settingsPath (key : Bytes) : Bytes := (ascii "iot/" ++ key).take 47

/-- The entries the settings subsystem keeps, by path. -/
abbrev SettingsStore := AList fun _ : Bytes => Bytes

abbrev Entry := Sigma fun _ : Bytes => Bytes

/-- A successful `settings_save_one`: saving nothing deletes the entry. -/
def settingsSaveOne (store : SettingsStore) (path value : Bytes) : SettingsStore :=
  if value = [] then store.erase path else store.insert path value

/-- The part of a path after `iot/`, for a path in that subtree. -/
def subtreeName (path : Bytes) : Option Bytes :=
  if path.take 4 = ascii "iot/" then some (path.drop 4) else none

structure LoadCall where
  key : Option Bytes
  len : ℕ
  readCb : ReadCb

/-- The callback that yields a stored value. -/
def ReadCb.deliver (value : Bytes) : ReadCb where
  read len := ((value.take len).length, value.take len)
  bounded len := by simp

/-- The call the subsystem makes for an entry, if it lies in the subtree. -/
def handlerCall (e : Entry) : Option LoadCall :=
  (subtreeName e.1).map fun name => ⟨some name, e.2.length, ReadCb.deliver e.2⟩

/-- Calls of `load_setting` one after another; the subsystem skips failures. -/
def loadSettings (config : AppConfig) (calls : List LoadCall) : Option AppConfig :=
  calls.foldlM (fun config call =>
    (loadSetting config call.key call.len call.readCb).map Prod.snd) config

/-- The order in which the backend visits its entries, left open. -/
structure LoadOrder where
  order : List Entry → List Entry
  perm : ∀ entries, (order entries).Perm entries

def LoadOrder.asStored : LoadOrder := ⟨id, fun _ => List.Perm.refl _⟩

/-- RAM and flash of the panel. -/
structure Device where
  config : AppConfig
  store : SettingsStore

/-- `config_store_init`, given the result of `settings_subsys_init`. -/
def configStoreInit (d : Device) (subsysInit : ℤ) (order : LoadOrder) : Option (ℤ × Device) :=
  if subsysInit ≠ 0 then some (subsysInit, d)
  else (loadSettings d.config ((order.order d.store.entries).filterMap handlerCall)).map
    fun config => (0, { d with config := config })

def configStoreGet (d : Device) : AppConfig := d.config

/-- `config_store_set`, given what `settings_save_one` returns if it is called;
a failing save leaves the store as it was. -/
def configStoreSet (d : Device) (key : Option Bytes) (value : Option CString) (saved : ℤ) :
    Option (ℤ × Device) :=
  match configStoreSetCheck key value with
  | .error err => some (err, d)
  | .ok w =>
    if saved = 0 then
      (d.config.store w).map fun config =>
        (0, ⟨config, settingsSaveOne d.store (settingsPath (key.getD [])) w.value⟩)
    else some (saved, d)

/-- Power-on: RAM holds the compile-time defaults, flash what it held. -/
def Device.reset (d : Device) : Device := { d with config := AppConfig.defaults }

def Device.blank : Device := ⟨AppConfig.defaults, ∅⟩

end SensorPanel
