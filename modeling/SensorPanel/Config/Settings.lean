import SensorPanel.Config.ConfigStore

/-!
# Settings as values

What a field is for: a string shorter than its buffer. `Settings.config` lays
such values out as the program keeps them, and both writers refine the update
of one value. Nothing above this layer looks at the bytes behind a string.
-/

namespace SensorPanel

open Library

/-- A value a field can hold with its terminator. -/
@[ext] structure Setting (f : Field) where
  value : Bytes
  lt_capacity : value.length < f.capacity
  noNul : (0 : UInt8) ∉ value

namespace Setting

variable {f : Field}

def buffer (v : Setting f) : Buffer f.capacity := Buffer.padded _ v.value

@[simp] theorem buffer_str (v : Setting f) : v.buffer.str = v.value :=
  Buffer.str_padded v.lt_capacity.le v.noNul

/-- The first byte tells whether there is a value. -/
theorem head_buffer (v : Setting f) : v.buffer.bytes.head? = some (v.value.head?.getD 0) :=
  Buffer.head_padded v.lt_capacity

theorem head_buffer_eq_zero_iff (v : Setting f) :
    v.buffer.bytes.head? = some 0 ↔ v.value = [] := by
  rw [head_buffer, Option.some.injEq]
  have hnul := v.noNul
  cases hv : v.value with
  | nil => simp
  | cons b rest =>
    rw [hv, List.mem_cons, not_or] at hnul
    simp [Ne.symm hnul.1]

theorem buffer_inj {v w : Setting f} : v.buffer = w.buffer ↔ v = w := by
  constructor
  · intro h
    ext1
    rw [← v.buffer_str, h, w.buffer_str]
  · rintro rfl
    rfl

end Setting

abbrev Settings := (f : Field) → Setting f

namespace Settings

def config (s : Settings) : AppConfig where
  ssid := (s .ssid).buffer
  password := (s .password).buffer
  apiHost := (s .apiHost).buffer
  apiPath := (s .apiPath).buffer
  apiBody := (s .apiBody).buffer
  ntpHost := (s .ntpHost).buffer

@[simp] theorem config_get (s : Settings) (f : Field) : s.config.get f = (s f).buffer := by
  cases f <;> rfl

/-! The strings a reader of the struct finds. -/

@[simp] theorem ssid_str (s : Settings) : s.config.ssid.str = (s .ssid).value :=
  (s .ssid).buffer_str

@[simp] theorem password_str (s : Settings) : s.config.password.str = (s .password).value :=
  (s .password).buffer_str

@[simp] theorem apiHost_str (s : Settings) : s.config.apiHost.str = (s .apiHost).value :=
  (s .apiHost).buffer_str

@[simp] theorem apiPath_str (s : Settings) : s.config.apiPath.str = (s .apiPath).value :=
  (s .apiPath).buffer_str

@[simp] theorem apiBody_str (s : Settings) : s.config.apiBody.str = (s .apiBody).value :=
  (s .apiBody).buffer_str

@[simp] theorem ntpHost_str (s : Settings) : s.config.ntpHost.str = (s .ntpHost).value :=
  (s .ntpHost).buffer_str

theorem config_put (s : Settings) {f : Field} (v : Setting f) :
    s.config.put f v.buffer = config (Function.update s f v) := by
  apply AppConfig.ext_get
  intro g
  by_cases h : g = f
  · subst h
    simp
  · simp [h]

theorem config_injective : Function.Injective config := by
  intro s t h
  funext f
  rw [← Setting.buffer_inj, ← config_get, ← config_get, h]

def defaults : Settings
  | .ssid => ⟨[], by decide, by decide⟩
  | .password => ⟨[], by decide, by decide⟩
  | .apiHost => ⟨[], by decide, by decide⟩
  | .apiPath => ⟨ascii "/", by decide, by decide⟩
  | .apiBody => ⟨ascii "{}", by decide, by decide⟩
  | .ntpHost => ⟨ascii "pool.ntp.org", by decide, by decide⟩

theorem defaults_config : defaults.config = AppConfig.defaults := by
  ext1 <;> simp [config, defaults, AppConfig.defaults, Setting.buffer, Field.capacity]

end Settings

/-- Exactly the six keys name a field, each its own, with the field's size. -/
theorem field_eq_some_iff {key : Option Bytes} {f : Field} {n : ℕ} :
    field key = some (f, n) ↔ key = some f.key ∧ n = f.capacity := by
  constructor
  · intro h
    cases key with
    | none => simp [field] at h
    | some k =>
      simp only [field] at h
      split_ifs at h <;>
        (obtain ⟨rfl, rfl⟩ := Prod.ext_iff.mp (Option.some.inj h)
         exact ⟨by simp_all [Field.key], rfl⟩)
  · rintro ⟨rfl, rfl⟩
    cases f <;> decide

theorem field_key (f : Field) : field (some f.key) = some (f, f.capacity) :=
  field_eq_some_iff.mpr ⟨rfl, rfl⟩

structure FieldWrite.Fits (w : FieldWrite) : Prop where
  capacity_eq : w.capacity = w.dst.capacity
  lt_capacity : w.value.length < w.dst.capacity
  noNul : (0 : UInt8) ∉ w.value

def FieldWrite.Fits.setting {w : FieldWrite} (h : w.Fits) : Setting w.dst :=
  ⟨w.value, h.lt_capacity, h.noNul⟩

/-- The locked part of a writer stays in the field and leaves the padded value. -/
theorem AppConfig.store_eq (c : AppConfig) {w : FieldWrite} (h : w.Fits) :
    c.store w = some (c.put w.dst h.setting.buffer) := by
  have hclear : c.memset w.dst w.capacity = some (c.put w.dst (Buffer.zero _)) := by
    rw [AppConfig.memset, h.capacity_eq, Buffer.write_zeros]
    rfl
  have hcopy := Buffer.zero_write h.lt_capacity.le
  rw [AppConfig.store, hclear, Option.bind_some, AppConfig.memcpy, AppConfig.get_put_self, hcopy]
  simp [FieldWrite.Fits.setting, Setting.buffer]

/-- The bytes a callback leaves in the first `len` places of the scratch buffer. -/
def ReadCb.delivered (readCb : ReadCb) (len : ℕ) : Bytes :=
  (Buffer.padded len (readCb.read len).2).bytes

@[simp] theorem ReadCb.length_delivered (readCb : ReadCb) (len : ℕ) :
    (readCb.delivered len).length = len := (Buffer.padded len _).size

@[simp] theorem ReadCb.deliver_delivered (value : Bytes) :
    (ReadCb.deliver value).delivered value.length = value := by
  simp [ReadCb.deliver, ReadCb.delivered, Buffer.padded_bytes]

/-- `load_setting` never leaves its scratch buffer; its checks in one formula. -/
theorem loadSettingCheck_eq (key : Option Bytes) (len : ℕ) (readCb : ReadCb) :
    loadSettingCheck key len readCb = some (
      match field key with
      | none => .error (-ENOENT)
      | some (dst, capacity) =>
        if capacity ≤ len then .error (-EINVAL)
        else if (readCb.read len).1 < 0 then .error (readCb.read len).1
        else if (readCb.read len).1.toNat ≠ len ∨ 0 ∈ readCb.delivered len then .error (-EINVAL)
        else .ok ⟨dst, capacity, readCb.delivered len⟩) := by
  unfold loadSettingCheck
  cases hf : field key with
  | none => rfl
  | some p =>
    obtain ⟨dst, capacity⟩ := p
    obtain ⟨-, rfl⟩ := field_eq_some_iff.mp hf
    dsimp only
    by_cases hlen : dst.capacity ≤ len
    · rw [if_pos hlen, if_pos hlen]
    · have hcap := dst.capacity_le
      have hread := readCb.bounded len
      rw [if_neg hlen, if_neg hlen, Buffer.zero_write (by omega), Option.bind_some,
        Buffer.padded_read hread (by omega), Option.map_some, ← ReadCb.delivered]
      by_cases hneg : (readCb.read len).1 < 0
      · rw [if_pos hneg, if_pos hneg]
      · by_cases hcount : (readCb.read len).1.toNat ≠ len <;>
          by_cases hnul : 0 ∈ readCb.delivered len <;> simp [hneg, hcount, hnul]

theorem loadSettingCheck_eq_ok_iff {key : Option Bytes} {len : ℕ} {readCb : ReadCb}
    {w : FieldWrite} : loadSettingCheck key len readCb = some (.ok w) ↔
      ∃ f, key = some (Field.key f) ∧ len < f.capacity ∧ (readCb.read len).1 = len ∧
        (0 : UInt8) ∉ readCb.delivered len ∧ w = ⟨f, f.capacity, readCb.delivered len⟩ := by
  rw [loadSettingCheck_eq, Option.some.injEq]
  constructor
  · intro h
    cases hf : field key with
    | none => simp [hf] at h
    | some p =>
      obtain ⟨f, capacity⟩ := p
      obtain ⟨rfl, rfl⟩ := field_eq_some_iff.mp hf
      simp only [hf] at h
      split_ifs at h with hlen hneg hbad
      refine ⟨f, rfl, by omega, by omega, fun hnul => hbad (Or.inr hnul), ?_⟩
      exact (Except.ok.inj h).symm
  · rintro ⟨f, rfl, hlen, hcount, hnul, rfl⟩
    have hneg : ¬ (len : ℤ) < 0 := by omega
    simp only [field_key, hcount, Int.toNat_natCast, ne_eq, not_true_eq_false, hnul, or_self,
      if_neg hneg, if_neg hlen.not_ge, if_false]

theorem loadSettingCheck_fits {key : Option Bytes} {len : ℕ} {readCb : ReadCb} {w : FieldWrite}
    (h : loadSettingCheck key len readCb = some (.ok w)) : w.Fits := by
  obtain ⟨f, -, hlen, -, hnul, rfl⟩ := loadSettingCheck_eq_ok_iff.mp h
  exact ⟨rfl, by simpa using hlen, hnul⟩

theorem loadSettingCheck_error_neg {key : Option Bytes} {len : ℕ} {readCb : ReadCb} {err : ℤ}
    (h : loadSettingCheck key len readCb = some (.error err)) : err < 0 := by
  rw [loadSettingCheck_eq, Option.some.injEq] at h
  cases hf : field key with
  | none =>
    simp only [hf] at h
    obtain rfl := Except.error.inj h
    decide
  | some p =>
    simp only [hf] at h
    split_ifs at h with hlen hneg hbad
    · obtain rfl := Except.error.inj h
      decide
    · exact Except.error.inj h ▸ hneg
    · obtain rfl := Except.error.inj h
      decide

abbrev cr : UInt8 := 13
abbrev lf : UInt8 := 10
abbrev space : UInt8 := 32
abbrev slash : UInt8 := 47
abbrev colon : UInt8 := 58

/-- What a value of each setting must look like to be usable. -/
def Field.Rule : Field → Bytes → Prop
  | .password, v => v = [] ∨ (8 ≤ v.length ∧ v.length ≤ 63)
  | .apiPath, v => v.head? = some slash ∧ cr ∉ v ∧ lf ∉ v
  | .apiHost, v | .ntpHost, v => cr ∉ v ∧ lf ∉ v ∧ slash ∉ v ∧ space ∉ v ∧ colon ∉ v
  | .ssid, _ | .apiBody, _ => True

instance (f : Field) (v : Bytes) : Decidable (f.Rule v) := by
  cases f <;> unfold Field.Rule <;> infer_instance

theorem strpbrk_eq_false_iff {s accept : Bytes} :
    strpbrk s accept = false ↔ ∀ b ∈ accept, b ∉ s := by
  simp only [strpbrk, List.any_eq_false, decide_eq_true_eq]
  exact ⟨fun h b hb hs => h b hs hb, fun h b hs hb => h b hb hs⟩

theorem strpbrk_host {s : Bytes} : strpbrk s (ascii "\r\n/ :") = false ↔ Field.apiHost.Rule s := by
  rw [strpbrk_eq_false_iff, show ascii "\r\n/ :" = [cr, lf, slash, space, colon] by decide]
  simp [Field.Rule]

theorem strpbrk_line {s : Bytes} : strpbrk s (ascii "\r\n") = false ↔ cr ∉ s ∧ lf ∉ s := by
  rw [strpbrk_eq_false_iff, show ascii "\r\n" = [cr, lf] by decide]
  simp

/-- `config_store_set` accepts a value for a known key exactly when it fits and
obeys the rule of its field. -/
theorem configStoreSetCheck_key (f : Field) (v : CString) :
    configStoreSetCheck (some f.key) (some v) =
      if v.bytes.length < f.capacity ∧ f.Rule v.bytes then .ok ⟨f, f.capacity, v.bytes⟩
      else .error (-EINVAL) := by
  unfold configStoreSetCheck
  rw [field_key]
  simp only [Option.some.injEq, show ascii "api_path" = Field.apiPath.key from rfl,
    show ascii "password" = Field.password.key from rfl,
    show ascii "api_host" = Field.apiHost.key from rfl,
    show ascii "ntp_host" = Field.ntpHost.key from rfl, Field.key_injective.eq_iff]
  by_cases hlen : f.capacity ≤ v.bytes.length
  · rw [if_pos (Or.inl hlen), if_neg (by omega)]
  · have hlt : v.bytes.length < f.capacity := by omega
    cases f with
    | ssid => simp [hlt, hlen, Field.Rule]
    | apiBody => simp [hlt, hlen, Field.Rule]
    | password =>
      have hbad : v.bytes ≠ [] ∧ (v.bytes.length < 8 ∨ 63 < v.bytes.length) ↔
          ¬ Field.password.Rule v.bytes := by
        simp only [Field.Rule]
        by_cases hnil : v.bytes = [] <;> simp [hnil]
        omega
      simp [hlen, hlt, hbad]
    | apiHost | ntpHost =>
      have hbad : strpbrk v.bytes (ascii "\r\n/ :") = true ↔ ¬ Field.apiHost.Rule v.bytes := by
        rw [← strpbrk_host, Bool.not_eq_false]
      have hsame : Field.ntpHost.Rule v.bytes ↔ Field.apiHost.Rule v.bytes := Iff.rfl
      by_cases hrule : Field.apiHost.Rule v.bytes <;> simp [hlen, hlt, hbad, hrule, hsame]
    | apiPath =>
      have hhead : (ascii "/").head? = some slash := by decide
      have hline : strpbrk v.bytes (ascii "\r\n") = true ↔ ¬ (cr ∉ v.bytes ∧ lf ∉ v.bytes) := by
        rw [← strpbrk_line, Bool.not_eq_false]
      by_cases hslash : v.bytes.head? = some slash
      · have hne : v.bytes ≠ [] := by
          rintro hnil
          simp [hnil] at hslash
        by_cases hcr : cr ∈ v.bytes <;> by_cases hlf : lf ∈ v.bytes <;>
          simp [hlt, hlen, hne, hhead, hslash, hline, hcr, hlf, Field.Rule]
      · simp [hlt, hlen, hhead, hslash, Field.Rule]

theorem configStoreSetCheck_eq_ok_iff {key : Option Bytes} {value : Option CString}
    {w : FieldWrite} : configStoreSetCheck key value = .ok w ↔
      ∃ f v, key = some (Field.key f) ∧ value = some v ∧ v.bytes.length < f.capacity ∧
        f.Rule v.bytes ∧ w = ⟨f, f.capacity, v.bytes⟩ := by
  constructor
  · intro h
    cases hf : field key with
    | none => simp [configStoreSetCheck, hf] at h
    | some p =>
      obtain ⟨f, capacity⟩ := p
      obtain ⟨rfl, rfl⟩ := field_eq_some_iff.mp hf
      cases value with
      | none => simp [configStoreSetCheck, hf] at h
      | some v =>
        rw [configStoreSetCheck_key] at h
        split_ifs at h with hok
        exact ⟨f, v, rfl, rfl, hok.1, hok.2, (Except.ok.inj h).symm⟩
  · rintro ⟨f, v, rfl, rfl, hlen, hrule, rfl⟩
    rw [configStoreSetCheck_key, if_pos ⟨hlen, hrule⟩]

theorem configStoreSetCheck_error {key : Option Bytes} {value : Option CString} {err : ℤ}
    (h : configStoreSetCheck key value = .error err) : err = -EINVAL := by
  cases hf : field key with
  | none => simpa [configStoreSetCheck, hf] using h.symm
  | some p =>
    obtain ⟨f, capacity⟩ := p
    obtain ⟨rfl, rfl⟩ := field_eq_some_iff.mp hf
    cases value with
    | none => simpa [configStoreSetCheck, hf] using h.symm
    | some v =>
      rw [configStoreSetCheck_key] at h
      split_ifs at h
      exact (Except.error.inj h).symm

theorem configStoreSetCheck_fits {key : Option Bytes} {value : Option CString} {w : FieldWrite}
    (h : configStoreSetCheck key value = .ok w) : w.Fits := by
  obtain ⟨f, v, -, -, hlen, -, rfl⟩ := configStoreSetCheck_eq_ok_iff.mp h
  exact ⟨rfl, hlen, v.noNul⟩

namespace Settings

/-- A checked write refines the update of one value. -/
theorem store_config (s : Settings) {w : FieldWrite} (h : w.Fits) :
    s.config.store w = some (config (Function.update s w.dst h.setting)) := by
  rw [AppConfig.store_eq _ h, config_put]

/-- Every value obeys the rule of its field. -/
def Valid (s : Settings) : Prop := ∀ f : Field, f.Rule (s f).value

theorem defaults_valid : defaults.Valid := by
  intro f
  cases f <;> decide

theorem Valid.update {s : Settings} (h : s.Valid) {f : Field} {v : Setting f}
    (hv : f.Rule v.value) : Valid (Function.update s f v) := by
  intro g
  by_cases hg : g = f
  · subst hg
    simpa using hv
  · simpa [hg] using h g

end Settings

/-- The locked part of `load_setting` on a well-formed configuration: a refusal
leaves it alone, an accepted call updates one value. -/
theorem loadSetting_config (s : Settings) (key : Option Bytes) (len : ℕ) (readCb : ReadCb) :
    (∃ err, loadSettingCheck key len readCb = some (.error err) ∧
      loadSetting s.config key len readCb = some (err, s.config)) ∨
    ∃ w, ∃ h : FieldWrite.Fits w, loadSettingCheck key len readCb = some (.ok w) ∧
      loadSetting s.config key len readCb =
        some (0, Settings.config (Function.update s w.dst h.setting)) := by
  have htotal := loadSettingCheck_eq key len readCb
  generalize hr : (match field key with
      | none => .error (-ENOENT)
      | some (dst, capacity) => _ : Except ℤ FieldWrite) = r at htotal
  cases r with
  | error err => exact Or.inl ⟨err, htotal, by simp [loadSetting, htotal]⟩
  | ok w =>
    have hfits := loadSettingCheck_fits htotal
    exact Or.inr ⟨w, hfits, htotal, by simp [loadSetting, htotal, s.store_config hfits]⟩

/-- `config_store_set` on a well-formed configuration: rejected, refused by the
save, or one value updated in RAM and in the store alike. -/
theorem configStoreSet_config (s : Settings) (store : SettingsStore) (key : Option Bytes)
    (value : Option CString) (saved : ℤ) :
    (configStoreSetCheck key value = .error (-EINVAL) ∧
      configStoreSet ⟨s.config, store⟩ key value saved = some (-EINVAL, ⟨s.config, store⟩)) ∨
    ∃ w, ∃ h : FieldWrite.Fits w, configStoreSetCheck key value = .ok w ∧
      configStoreSet ⟨s.config, store⟩ key value saved = some (
        if saved = 0 then (0, ⟨Settings.config (Function.update s w.dst h.setting),
          settingsSaveOne store (settingsPath w.dst.key) w.value⟩)
        else (saved, ⟨s.config, store⟩)) := by
  cases hcheck : configStoreSetCheck key value with
  | error err =>
    obtain rfl := configStoreSetCheck_error hcheck
    exact Or.inl ⟨rfl, by simp [configStoreSet, hcheck]⟩
  | ok w =>
    have hfits := configStoreSetCheck_fits hcheck
    obtain ⟨f, v, rfl, -, -, -, rfl⟩ := configStoreSetCheck_eq_ok_iff.mp hcheck
    refine Or.inr ⟨_, hfits, rfl, ?_⟩
    split_ifs with hsaved <;> simp [configStoreSet, hcheck, hsaved, s.store_config hfits]

end SensorPanel
