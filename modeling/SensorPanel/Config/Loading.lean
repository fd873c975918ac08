import SensorPanel.Library.Overwrite
import SensorPanel.Config.Validity

/-!
# Loading untrusted entries

The lengths, the counts and the bytes that `load_setting` is handed come from
flash. Each call writes the one field it names or nothing, so a load is a list
of writes in which the last one for a field wins. No entry touches the field of
another, and entries with distinct keys may come in any order.
-/

namespace SensorPanel

open Library

namespace LoadCall

variable {call : LoadCall} {f g : Field}

structure Accepted (call : LoadCall) (f : Field) : Prop where
  key_eq : call.key = some f.key
  lt_capacity : call.len < f.capacity
  count_eq : (call.readCb.read call.len).1 = call.len
  noNul : (0 : UInt8) ∉ call.readCb.delivered call.len

theorem accepted_iff : call.Accepted f ↔ call.key = some f.key ∧ call.len < f.capacity ∧
    (call.readCb.read call.len).1 = call.len ∧ 0 ∉ call.readCb.delivered call.len :=
  ⟨fun h => ⟨h.1, h.2, h.3, h.4⟩, fun h => ⟨h.1, h.2.1, h.2.2.1, h.2.2.2⟩⟩

instance (call : LoadCall) (f : Field) : Decidable (call.Accepted f) :=
  decidable_of_iff' _ accepted_iff

theorem Accepted.unique (h : call.Accepted f) (k : call.Accepted g) : f = g :=
  Field.key_injective (Option.some.inj (h.key_eq.symm.trans k.key_eq))

/-- A callback that leaves a byte out leaves a NUL in the scratch buffer, so what
is accepted has been delivered in full. -/
theorem Accepted.delivered_eq (h : call.Accepted f) :
    (call.readCb.read call.len).2 = call.readCb.delivered call.len := by
  have hbound := call.readCb.bounded call.len
  have hnul := h.noNul
  rw [ReadCb.delivered, Buffer.padded_bytes hbound] at hnul ⊢
  have hzero : call.len - (call.readCb.read call.len).2.length = 0 := by
    by_contra hne
    exact hnul (List.mem_append_right _ (List.mem_replicate.mpr ⟨hne, rfl⟩))
  simp [hzero]

def writes (call : LoadCall) (f : Field) : Option (Buffer f.capacity) :=
  if call.Accepted f then some (Buffer.padded _ (call.readCb.delivered call.len)) else none

theorem writes_isSome_iff : (call.writes f).isSome ↔ call.Accepted f := by
  unfold writes
  split_ifs with h <;> simp [h]

theorem loadSetting_cases (c : AppConfig) (call : LoadCall) :
    (∃ f, call.Accepted f ∧ loadSetting c call.key call.len call.readCb =
      some (0, c.put f (Buffer.padded _ (call.readCb.delivered call.len)))) ∨
    (∀ f, ¬ call.Accepted f) ∧ ∃ err, err < 0 ∧
      loadSetting c call.key call.len call.readCb = some (err, c) := by
  obtain ⟨r, hr⟩ : ∃ r, loadSettingCheck call.key call.len call.readCb = some r :=
    ⟨_, loadSettingCheck_eq _ _ _⟩
  cases r with
  | error err =>
    refine Or.inr ⟨fun f h => ?_, err, loadSettingCheck_error_neg hr, by simp [loadSetting, hr]⟩
    have hok := loadSettingCheck_eq_ok_iff.mpr ⟨f, h.1, h.2, h.3, h.4, rfl⟩
    rw [hr] at hok
    cases hok
  | ok w =>
    have hfits := loadSettingCheck_fits hr
    obtain ⟨f, hkey, hlen, hcount, hnul, rfl⟩ := loadSettingCheck_eq_ok_iff.mp hr
    refine Or.inl ⟨f, ⟨hkey, hlen, hcount, hnul⟩, ?_⟩
    simp only [loadSetting, hr, Option.bind_some, c.store_eq hfits, Option.map_some]
    rfl

/-- The call stays in its buffers, and either puts exactly the delivered bytes
and zeros into the field of its key or fails and changes nothing. -/
def Safe (call : LoadCall) (c : AppConfig) : Prop :=
  ∃ err c', loadSetting c call.key call.len call.readCb = some (err, c') ∧
    ((err = 0 ∧ ∃ f : Field, call.key = some f.key ∧
        (call.readCb.read call.len).2.length = call.len ∧
        (c'.get f).bytes = (call.readCb.read call.len).2 ++
          List.replicate (f.capacity - call.len) 0 ∧
        ∀ g, g ≠ f → c'.get g = c.get g) ∨
      (err < 0 ∧ c' = c))

theorem safe (call : LoadCall) (c : AppConfig) : call.Safe c := by
  rcases loadSetting_cases c call with ⟨f, hf, h⟩ | ⟨-, err, herr, h⟩
  · have hlen := call.readCb.length_delivered call.len
    have hfits : (call.readCb.delivered call.len).length ≤ f.capacity := hlen.trans_le hf.2.le
    refine ⟨0, _, h, Or.inl ⟨rfl, f, hf.key_eq, ?_, ?_, fun g hg => by simp [hg]⟩⟩
    · rw [hf.delivered_eq, hlen]
    · rw [AppConfig.get_put_self, hf.delivered_eq, Buffer.padded_bytes hfits, hlen]
  · exact ⟨err, c, h, Or.inr ⟨herr, rfl⟩⟩

theorem loadSetting_get (c : AppConfig) (call : LoadCall) :
    ∃ err c', loadSetting c call.key call.len call.readCb = some (err, c') ∧
      ∀ f, c'.get f = (call.writes f).getD (c.get f) := by
  rcases loadSetting_cases c call with ⟨f, hf, h⟩ | ⟨hnone, err, -, h⟩
  · refine ⟨_, _, h, fun g => ?_⟩
    by_cases hg : g = f
    · subst hg
      simp [writes, hf]
    · have hg' : ¬ call.Accepted g := fun hacc => hg (hacc.unique hf)
      simp [writes, hg, hg']
  · exact ⟨_, _, h, fun f => by simp [writes, hnone f]⟩

end LoadCall

/-- A load is a list of writes, of which the last one for a field wins. -/
theorem loadSettings_get (c : AppConfig) (calls : List LoadCall) :
    ∃ c', loadSettings c calls = some c' ∧
      ∀ f, c'.get f = overwrite LoadCall.writes c.get calls f := by
  induction calls using List.reverseRecOn with
  | nil => exact ⟨c, rfl, fun f => rfl⟩
  | append_singleton calls call ih =>
    obtain ⟨d, hd, hget⟩ := ih
    obtain ⟨err, d', hd', hget'⟩ := call.loadSetting_get d
    refine ⟨d', ?_, fun f => by rw [hget', hget, overwrite_concat]⟩
    rw [loadSettings] at hd ⊢
    rw [List.foldlM_append, hd]
    simp [hd']

theorem loadSettings_perm (c : AppConfig) {calls calls' : List LoadCall}
    (hdistinct : (calls.map LoadCall.key).Nodup) (h : calls.Perm calls') :
    loadSettings c calls = loadSettings c calls' := by
  obtain ⟨d, hd, hget⟩ := loadSettings_get c calls
  obtain ⟨d', hd', hget'⟩ := loadSettings_get c calls'
  have hsame : d = d' := by
    apply AppConfig.ext_get
    intro f
    rw [hget, hget']
    apply overwrite_perm _ hdistinct h
    intro a b ha hb
    exact (LoadCall.writes_isSome_iff.mp ha).key_eq.trans
      (LoadCall.writes_isSome_iff.mp hb).key_eq.symm
  rw [hd, hd', hsame]

theorem path_eq_of_subtreeName {path name : Bytes} (h : subtreeName path = some name) :
    path = ascii "iot/" ++ name := by
  unfold subtreeName at h
  split_ifs at h with htake
  rw [← Option.some.inj h, ← htake, List.take_append_drop]

/-- The subsystem calls the handler once for a key, as it keeps one entry for a path. -/
theorem handlerCalls_distinct {entries : List Entry} (h : (entries.map Sigma.fst).Nodup) :
    ((entries.filterMap handlerCall).map LoadCall.key).Nodup := by
  rw [List.Nodup, List.pairwise_map, List.pairwise_filterMap]
  apply (List.pairwise_map.mp h).imp
  intro a b hne call hcall call' hcall' hsame
  obtain ⟨name, hname, rfl⟩ := Option.map_eq_some_iff.mp hcall
  obtain ⟨name', hname', rfl⟩ := Option.map_eq_some_iff.mp hcall'
  obtain rfl : name = name' := Option.some.inj hsame
  exact hne ((path_eq_of_subtreeName hname).trans (path_eq_of_subtreeName hname').symm)

/-- At boot the order in which the backend visits its entries does not show. -/
theorem configStoreInit_order (d : Device) (subsysInit : ℤ) (order order' : LoadOrder) :
    configStoreInit d subsysInit order = configStoreInit d subsysInit order' := by
  have hperm := (order.perm d.store.entries).trans (order'.perm d.store.entries).symm
  have hnodup : ((order.order d.store.entries).map Sigma.fst).Nodup :=
    ((order.perm d.store.entries).map Sigma.fst).nodup_iff.mpr d.store.nodupKeys
  rw [configStoreInit, configStoreInit, loadSettings_perm d.config
    (handlerCalls_distinct hnodup) (hperm.filterMap handlerCall)]

/-- A field depends on the entries under its own key alone. -/
theorem loadSettings_isolated (c : AppConfig) (calls : List LoadCall) (f : Field) :
    ∃ c' d, loadSettings c calls = some c' ∧
      loadSettings c (calls.filter fun call => call.key = some f.key) = some d ∧
      c'.get f = d.get f := by
  obtain ⟨c', hc', hget⟩ := loadSettings_get c calls
  obtain ⟨d, hd, hget'⟩ := loadSettings_get c (calls.filter fun call => call.key = some f.key)
  refine ⟨c', d, hc', hd, ?_⟩
  rw [hget, hget', overwrite_filter]
  intro call hkey
  have hother : ¬ call.Accepted f := fun h => by simp [h.key_eq] at hkey
  simp [LoadCall.writes, hother]

/-- Every field holds a string shorter than itself, with zeros behind it. -/
def AppConfig.WellFormed (c : AppConfig) : Prop :=
  ∀ f : Field, ∃ v : Bytes, v.length < f.capacity ∧ (0 : UInt8) ∉ v ∧
    (c.get f).bytes = v ++ List.replicate (f.capacity - v.length) 0 ∧ (c.get f).str = v

theorem Settings.config_wellFormed (s : Settings) : s.config.WellFormed := by
  intro f
  refine ⟨(s f).value, (s f).lt_capacity, (s f).noNul, ?_, by simp⟩
  rw [Settings.config_get, Setting.buffer, Buffer.padded_bytes (s f).lt_capacity.le]

/-- Loading is safe, isolated and independent of the order. Whatever the length,
the count and the bytes, a call sets the field of its key to the delivered bytes
or changes nothing; entries with distinct keys load to one configuration in any
order, each field following the entries under its own key; and whatever calls of
both writers came before, every field holds a string with its terminator. -/
theorem loading_safe (c : AppConfig) {calls : List LoadCall}
    (hdistinct : (calls.map LoadCall.key).Nodup) :
    (∀ (d : AppConfig) (call : LoadCall), call.Safe d) ∧
    (∃ c', (∀ calls', calls'.Perm calls → loadSettings c calls' = some c') ∧
      ∀ f : Field, ∃ d, loadSettings c (calls.filter fun call => call.key = some f.key) = some d ∧
        c'.get f = d.get f) ∧
    ∀ (store : SettingsStore) (events : List StoreCall) (d : Device),
      storeMachine.Run ⟨AppConfig.defaults, store⟩ events d → d.config.WellFormed := by
  refine ⟨fun d call => call.safe d, ?_, fun store events d hrun => ?_⟩
  · obtain ⟨c', hc', -⟩ := loadSettings_get c calls
    refine ⟨c', fun calls' hperm => ?_, fun f => ?_⟩
    · rw [← loadSettings_perm c hdistinct hperm.symm, hc']
    · obtain ⟨c'', d, hc'', hd, hget⟩ := loadSettings_isolated c calls f
      obtain rfl := Option.some.inj (hc'.symm.trans hc'')
      exact ⟨d, hd, hget⟩
  · obtain ⟨s, hs, -⟩ := storeMachine_settings hrun
    exact hs ▸ s.config_wellFormed

/-- A network name, a password cut short by its callback and an unknown entry. -/
def mixedEntries : List LoadCall :=
  [⟨some (ascii "ssid"), 4, ReadCb.deliver (ascii "home")⟩,
    ⟨some (ascii "password"), 11, ReadCb.deliver (ascii "secret")⟩,
    ⟨some (ascii "theme"), 4, ReadCb.deliver (ascii "dark")⟩]

theorem mixed_entries_loaded : ∃ c, loadSettings AppConfig.defaults mixedEntries = some c ∧
    loadSettings AppConfig.defaults mixedEntries.reverse = some c ∧
    c.ssid.str = ascii "home" ∧ c.password.str = [] := by
  have hdistinct : (mixedEntries.map LoadCall.key).Nodup := by decide
  obtain ⟨-, ⟨c, hperm, -⟩, -⟩ := loading_safe AppConfig.defaults hdistinct
  obtain ⟨d, hd, hget⟩ := loadSettings_get AppConfig.defaults mixedEntries
  have hc := hperm _ (List.Perm.refl _)
  obtain rfl := Option.some.inj (hd.symm.trans hc)
  have hssid : (d.get .ssid).str = ascii "home" := by
    rw [hget]
    decide
  have hpassword : (d.get .password).str = [] := by
    rw [hget]
    decide
  exact ⟨d, hd, hperm _ (List.reverse_perm _), hssid, hpassword⟩

end SensorPanel
