import SensorPanel.Config.Callers

/-!
# Lock order between the store and the settings subsystem

`config_store_set` takes `config_lock` and then, inside its save, the mutex of
the subsystem; `config_store_init` takes the subsystem's mutex and then, inside
`load_setting`, `config_lock`. Each order alone is harmless. Threads that keep
a load with entries ahead of it and a set with its save ahead of it apart never
wait in a circle, and once they are together such a circle can be reached.
-/

namespace SensorPanel

open Library

/-- A stored entry that `load_setting` can accept: a known key and a length
that fits its field. -/
def Loadable (e : Entry) : Prop :=
  ∃ f : Field, subtreeName e.1 = some f.key ∧ e.2.length < f.capacity

namespace Caller

/-- A load that may still have to take `config_lock`. -/
def LoadAhead : Caller → Prop
  | initEntries rest => ∃ e ∈ rest, Loadable e
  | loadLock _ _ _ => True
  | _ => False

/-- A set that owns `config_lock` and has not begun its save. -/
def SaveAhead : Caller → Prop
  | setSaveLock _ => True
  | _ => False

theorem LoadAhead.not_saveAhead {p : Caller} (h : p.LoadAhead) : ¬ p.SaveAhead := by
  cases p <;> simp_all [LoadAhead, SaveAhead]

theorem SaveAhead.holds {p : Caller} (h : p.SaveAhead) : p.Holds .config := by
  cases p <;> simp_all [SaveAhead, Holds]

theorem LoadAhead.holds {p : Caller} (h : p.LoadAhead) : p.Holds .subsystem := by
  cases p <;> simp_all [LoadAhead, Holds]

variable {d d' : Device} {p p' : Caller} {a : Act StoreLock StoreEvent}

theorem step_saveAhead (h : Step d p a d' p') (hp : p'.SaveAhead) : ∃ r, p = setLock r := by
  cases h with
  | @setLock d r => exact ⟨r, rfl⟩
  | _ => exact hp.elim

/-- A load comes to have entries ahead of it by taking the subsystem's mutex or
by releasing `config_lock`. -/
theorem step_loadAhead (h : Step d p a d' p') (hp : p'.LoadAhead) :
    p.LoadAhead ∨ p.Holds .config ∨ (p = initLock ∧ ∃ e ∈ d.store.entries, Loadable e) := by
  cases h with
  | initLock order =>
    obtain ⟨e, he, hload⟩ := hp
    exact Or.inr (Or.inr ⟨rfl, e, (order.perm _).mem_iff.mp he, hload⟩)
  | otherTree _ | refused _ _ =>
    obtain ⟨e, he, hload⟩ := hp
    exact Or.inl ⟨e, List.mem_cons_of_mem _ he, hload⟩
  | @loaded _ e rest name w readCb inTree check =>
    obtain ⟨f, hkey, hlen, -⟩ := loadSettingCheck_eq_ok_iff.mp check
    obtain rfl := Option.some.inj hkey
    exact Or.inl ⟨e, List.mem_cons_self, f, inTree, hlen⟩
  | loadUnlock => exact Or.inr (Or.inl trivial)
  | _ => exact hp.elim

theorem held_before_lock {l k : StoreLock} (h : Step d p (.lock l) d' p') (hk : p.Holds k) :
    (l = .config ∧ k = .subsystem ∧ p.LoadAhead) ∨
      (l = .subsystem ∧ k = .config ∧ p.SaveAhead) := by
  cases h with
  | loadLock => exact Or.inl ⟨rfl, hk, trivial⟩
  | setSaveLock => exact Or.inr ⟨rfl, hk, trivial⟩
  | _ => exact hk.elim

theorem exists_step (d : Device) {p : Caller} (hp : p ≠ idle) : ∃ a d' p', Step d p a d' p' := by
  obtain ⟨config, store⟩ := d
  have memcpy : ∀ {w : FieldWrite}, w.Fits → ∃ c, config.memcpy w.dst w.value = some c := by
    intro w fits
    have hwrite : ((config.get w.dst).write 0 w.value).isSome :=
      Buffer.write_isSome_iff.mpr (by simpa using fits.lt_capacity.le)
    obtain ⟨b, hb⟩ := Option.isSome_iff_exists.mp hwrite
    exact ⟨config.put w.dst b, by rw [AppConfig.memcpy, hb, Option.map_some]⟩
  cases p with
  | idle => exact absurd rfl hp
  | setLock r => exact ⟨_, _, _, .setLock⟩
  | setSaveLock r => exact ⟨_, _, _, .setSaveLock⟩
  | setSave r => exact ⟨_, _, _, .saved⟩
  | setSaveUnlock r err =>
    by_cases herr : err = 0
    · subst herr
      exact ⟨_, _, _, .savedUnlock⟩
    · exact ⟨_, _, _, .notSavedUnlock herr⟩
  | setClear r =>
    exact ⟨_, _, _, .setClear (memset_eq config (configStoreSetCheck_fits r.accepted))⟩
  | setCopy r =>
    obtain ⟨c, hc⟩ := memcpy (configStoreSetCheck_fits r.accepted)
    exact ⟨_, _, _, .setCopy hc⟩
  | setUnlock r err => exact ⟨_, _, _, .setUnlock⟩
  | setReturn key value err => exact ⟨_, _, _, .setReturn⟩
  | getLock out => exact ⟨_, _, _, .getLock⟩
  | getCopy out rest =>
    cases rest with
    | nil => exact ⟨_, _, _, .getUnlock⟩
    | cons f rest => exact ⟨_, _, _, .getCopy⟩
  | getReturn out => exact ⟨_, _, _, .getReturn⟩
  | initStart => exact ⟨_, _, _, .initStart⟩
  | initLock => exact ⟨_, _, _, .initLock .asStored⟩
  | initEntries rest =>
    cases rest with
    | nil => exact ⟨_, _, _, .initUnlock⟩
    | cons e rest =>
      cases hname : subtreeName e.1 with
      | none => exact ⟨_, _, _, .otherTree hname⟩
      | some name =>
        cases hcheck : loadSettingCheck (some name) e.2.length (ReadCb.deliver e.2) with
        | none => simp [loadSettingCheck_eq] at hcheck
        | some result =>
          cases result with
          | error err => exact ⟨_, _, _, .refused hname hcheck⟩
          | ok w => exact ⟨_, _, _, .loaded hname hcheck⟩
  | loadLock w fits rest => exact ⟨_, _, _, .loadLock⟩
  | loadClear w fits rest => exact ⟨_, _, _, .loadClear (memset_eq config fits)⟩
  | loadCopy w fits rest =>
    obtain ⟨c, hc⟩ := memcpy fits
    exact ⟨_, _, _, .loadCopy hc⟩
  | loadUnlock rest => exact ⟨_, _, _, .loadUnlock⟩
  | initReturn err => exact ⟨_, _, _, .initReturn⟩

theorem exists_step_load (d : Device) {x : Entry} (rest : List Entry) (hload : Loadable x) :
    ∃ w fits, Step d (initEntries (x :: rest)) (.emit (.handler x)) d (loadLock w fits rest) := by
  obtain ⟨f, hname, hlen⟩ := hload
  have hones : (List.replicate x.2.length (1 : UInt8)).length = x.2.length := by simp
  have hdeliver := ReadCb.deliver_delivered (List.replicate x.2.length 1)
  rw [hones] at hdeliver
  have hcheck := loadSettingCheck_eq_ok_iff.mpr ⟨f, rfl, hlen,
    show ((ReadCb.deliver (List.replicate x.2.length 1)).read x.2.length).1 = _ by
      simp [ReadCb.deliver], by rw [hdeliver]; simp, rfl⟩
  exact ⟨_, _, .loaded hname hcheck⟩

theorem step_skip (d : Device) (y : Entry) (rest : List Entry) :
    Step d (initEntries (y :: rest)) (.emit (.handler y)) d (initEntries rest) := by
  cases hname : subtreeName y.1 with
  | none => exact .otherTree hname
  | some name =>
    let failing : ReadCb := ⟨fun _ => (-1, []), by simp⟩
    cases hcheck : loadSettingCheck (some name) y.2.length failing with
    | none => simp [loadSettingCheck_eq] at hcheck
    | some result =>
      cases result with
      | error err => exact .refused hname hcheck
      | ok w =>
        obtain ⟨-, -, -, hcount, -⟩ := loadSettingCheck_eq_ok_iff.mp hcheck
        simp only [failing] at hcount
        omega

end Caller

section LockOrder

variable {ι : Type*}

/-- The steps that keep loads and saves apart: a set takes `config_lock` only
when no load may still need it, and a load takes the subsystem's mutex only
when no set has its save ahead or no entry can be accepted. -/
def KeepsApart (s : StoreSystem ι) (e : StoreAction ι) : Prop :=
  match s.point e.1 with
  | .setLock _ => ∀ j, ¬ (s.point j).LoadAhead
  | .initLock => (∀ j, ¬ (s.point j).SaveAhead) ∨ ∀ e ∈ s.memory.store.entries, ¬ Loadable e
  | _ => True

/-- No load with entries ahead meets a set with its save ahead. -/
structure Apart (s : StoreSystem ι) : Prop where
  owned : storeCode.Owned s
  apart : ∀ i j, (s.point i).LoadAhead → ¬ (s.point j).SaveAhead

variable {s t : StoreSystem ι} {e : StoreAction ι}

/-- Kept apart, all threads take the two mutexes in one order. -/
theorem Apart.exists_level (h : Apart s) :
    ∃ level : StoreLock → ℕ, (∀ l, level l ≤ 1) ∧ storeCode.Ascending level s := by
  by_cases hsave : ∃ j, (s.point j).SaveAhead
  · obtain ⟨j, hj⟩ := hsave
    refine ⟨fun l => if l = .config then 0 else 1, fun l => by cases l <;> simp, ?_⟩
    rintro i l ⟨m, p, hcode⟩ k hk
    rcases Caller.held_before_lock hcode hk with ⟨-, -, hload⟩ | ⟨rfl, rfl, -⟩
    · exact absurd hj (h.apart i j hload)
    · exact Nat.zero_lt_one
  · refine ⟨fun l => if l = .config then 1 else 0, fun l => by cases l <;> simp, ?_⟩
    rintro i l ⟨m, p, hcode⟩ k hk
    rcases Caller.held_before_lock hcode hk with ⟨rfl, rfl, -⟩ | ⟨-, -, hahead⟩
    · exact Nat.zero_lt_one
    · exact absurd ⟨i, hahead⟩ hsave

theorem waitCycle_of_locked (h : storeCode.Owned s) {i j : ι} {w : FieldWrite} {fits : w.Fits}
    {rest : List Entry} (hi : s.point i = .loadLock w fits rest) (hj : (s.point j).SaveAhead) :
    WaitCycle (storeCode.Waits s) := by
  have hload : (s.point i).LoadAhead := by simp [hi, Caller.LoadAhead]
  have hne : j ≠ i := by
    rintro rfl
    exact hload.not_saveAhead hj
  have hsub : (s.mutex .subsystem).HeldBy i := h.heldBy_iff.mpr hload.holds
  have hconfig : (s.mutex .config).HeldBy j := h.heldBy_iff.mpr hj.holds
  refine waitCycle_of_pair (i := i) (j := j)
    ⟨hne, .config, ⟨s.memory, .loadClear w fits rest, ?_⟩, hconfig⟩
    ⟨hne.symm, .subsystem, ?_, hsub⟩
  · rw [hi]
    exact .loadLock
  · generalize hpoint : s.point j = point at hj
    cases point with
    | setSaveLock r =>
      refine ⟨s.memory, .setSave r, ?_⟩
      rw [hpoint]
      exact .setSaveLock
    | _ => exact hj.elim

variable [DecidableEq ι]

def booting (main : ι) (d : Device) : StoreSystem ι :=
  ⟨d, fun _ => .free, Function.update (fun _ => .idle) main .initStart⟩

theorem booting_owned (main : ι) (d : Device) : storeCode.Owned (booting main d) := by
  apply Code.owned_of_idle (fun _ => rfl)
  intro i l
  by_cases hi : i = main
  · simp [booting, hi, storeCode, Caller.Holds]
  · simp [booting, hi, storeCode, Caller.Holds]

theorem booting_apart (main : ι) (d : Device) : Apart (booting main d) := by
  refine ⟨booting_owned main d, fun i j hi => ?_⟩
  by_cases hmain : i = main
  · simp [booting, hmain, Caller.LoadAhead] at hi
  · simp [booting, hmain, Caller.LoadAhead] at hi

theorem Apart.step (h : Apart s) (hguard : KeepsApart s e) (hstep : storeCode.SystemStep s e t) :
    Apart t := by
  refine ⟨h.owned.step hstep, ?_⟩
  obtain ⟨i, a⟩ := e
  obtain ⟨m, p, mutex, hcode, -, rfl⟩ := hstep
  dsimp only [KeepsApart] at hcode hguard
  intro k j hk hj
  by_cases hki : k = i
  · subst hki
    rw [Threads.move_point_self] at hk
    by_cases hjk : j = k
    · subst hjk
      rw [Threads.move_point_self] at hj
      exact hk.not_saveAhead hj
    · rw [Threads.move_point_of_ne hjk] at hj
      rcases Caller.step_loadAhead hcode hk with hk | hk | ⟨hp, x, hx, hload⟩
      · exact h.apart k j hk hj
      · exact hjk (h.owned.unique hj.holds hk)
      · rw [hp] at hguard
        rcases hguard with hnone | hnone
        · exact hnone j hj
        · exact hnone x hx hload
  · rw [Threads.move_point_of_ne hki] at hk
    by_cases hji : j = i
    · subst hji
      rw [Threads.move_point_self] at hj
      obtain ⟨r, hr⟩ := Caller.step_saveAhead hcode hj
      rw [hr] at hguard
      exact hguard k hk
    · rw [Threads.move_point_of_ne hji] at hj
      exact h.apart k j hk hj

theorem Apart.of_reachable {main : ι} {d : Device}
    (h : (storeCode.system.restrict KeepsApart).Reachable (booting main d) t) : Apart t :=
  Machine.Reachable.invariant (I := Apart) h (booting_apart main d)
    fun _ _ _ hs hstep => hs.step hstep.1 hstep.2

/-- A load visiting its entries gets to one it accepts, whatever the others do. -/
theorem reaches_waitCycle (h : storeCode.Owned s) {i j : ι} (hi : (s.point i).LoadAhead)
    (hj : (s.point j).SaveAhead) :
    ∃ u, storeCode.system.Reachable s u ∧ WaitCycle (storeCode.Waits u) := by
  have hne : j ≠ i := by
    rintro rfl
    exact hi.not_saveAhead hj
  generalize hpoint : s.point i = point at hi
  cases point with
  | loadLock w fits rest =>
    exact ⟨s, Machine.Reachable.refl s, waitCycle_of_locked h hpoint hj⟩
  | initEntries rest =>
    obtain ⟨x, hx, hload⟩ := hi
    -- The load passes over the entries in front of the one it accepts.
    induction rest generalizing s with
    | nil => simp at hx
    | cons y rest ih =>
      have advance : ∀ {p : Caller},
          Caller.Step s.memory (.initEntries (y :: rest)) (.emit (.handler y)) s.memory p →
          storeCode.system.Step s (i, .emit (.handler y)) (s.move i s.memory s.mutex p) := by
        intro p hcode
        rw [← hpoint] at hcode
        exact ⟨_, _, _, hcode, rfl, rfl⟩
      by_cases hxy : x = y
      · subst hxy
        obtain ⟨w, fits, hcode⟩ := Caller.exists_step_load s.memory rest hload
        refine ⟨_, Machine.Reachable.step (Machine.Reachable.refl s) (advance hcode), ?_⟩
        exact waitCycle_of_locked (j := j) (h.step (advance hcode)) Threads.move_point_self
          (by simpa [hne] using hj)
      · have hstep := advance (Caller.step_skip s.memory y rest)
        obtain ⟨u, hreach, hcycle⟩ := ih (h.step hstep) (by simpa [hne] using hj)
          Threads.move_point_self ((List.mem_cons.mp hx).resolve_left hxy)
        exact ⟨u, ((Machine.Reachable.refl s).step hstep).trans hreach, hcycle⟩
  | _ => exact hi.elim

theorem meets_of_not_keepsApart (hstep : storeCode.SystemStep s e t) (hguard : ¬ KeepsApart s e) :
    ∃ i j, (t.point i).LoadAhead ∧ (t.point j).SaveAhead := by
  obtain ⟨i, a⟩ := e
  obtain ⟨m, p, mutex, hcode, -, rfl⟩ := hstep
  dsimp only [KeepsApart] at hcode hguard
  generalize hpoint : s.point i = point at hcode hguard
  generalize hmemory : s.memory = memory at hcode hguard
  cases hcode with
  | setLock =>
    push Not at hguard
    obtain ⟨j, hj⟩ := hguard
    have hji : j ≠ i := by
      rintro rfl
      simp [hpoint, Caller.LoadAhead] at hj
    exact ⟨j, i, by simpa [hji] using hj, by simp [Caller.SaveAhead]⟩
  | initLock order =>
    push Not at hguard
    obtain ⟨⟨j, hj⟩, x, hx, hload⟩ := hguard
    have hji : j ≠ i := by
      rintro rfl
      simp [hpoint, Caller.SaveAhead] at hj
    refine ⟨i, j, ?_, by simpa [hji] using hj⟩
    rw [Threads.move_point_self]
    exact ⟨x, (order.perm _).mem_iff.mpr hx, hload⟩
  | _ => exact absurd trivial hguard

/-- When the store is free of deadlock. In every run that keeps loads and saves
apart no threads wait in a circle, and while a call has not returned some
thread inside a call can go on; after a step that lets the two meet, a circle
can be reached. -/
theorem config_store_deadlock_free (main : ι) (d : Device) :
    (∀ t, (storeCode.system.restrict KeepsApart).Reachable (booting main d) t →
      ¬ WaitCycle (storeCode.Waits t) ∧
      ((∃ i, t.point i ≠ .idle) →
        ∃ j a u, t.point j ≠ .idle ∧ storeCode.system.Step t (j, a) u)) ∧
    ∀ s e t, storeCode.system.Reachable (booting main d) s → storeCode.system.Step s e t →
      ¬ KeepsApart s e →
        ∃ u, storeCode.system.Reachable t u ∧ WaitCycle (storeCode.Waits u) := by
  constructor
  · intro t hreach
    have hapart := Apart.of_reachable hreach
    obtain ⟨level, htop, hup⟩ := hapart.exists_level
    refine ⟨hapart.owned.not_waitCycle hup, ?_⟩
    rintro ⟨i, hi⟩
    apply hapart.owned.progress (fun p => p = .idle) htop hup _ _ hi
    · intro p l hheld hidle
      subst hidle
      exact hheld
    · intro j hj
      exact Caller.exists_step _ hj
  · intro s e t hreach hstep hguard
    obtain ⟨i, j, hi, hj⟩ := meets_of_not_keepsApart hstep hguard
    exact reaches_waitCycle (((booting_owned main d).of_reachable hreach).step hstep) hi hj

def namedPanel : Device :=
  ⟨AppConfig.defaults, AList.singleton (ascii "iot/ssid") (ascii "home")⟩

/-- `panel set ssid attic`, past its checks. -/
def setAttic : SetRequest :=
  ⟨some (ascii "ssid"), some (.literal "attic"), ⟨.ssid, 33, ascii "attic"⟩, by decide⟩

/-- A set that comes while a load holds both mutexes waits and the boot goes on; a set
that comes before it can bring both to a halt. -/
theorem boot_goes_on_alone :
    (∃ s j a u, (storeCode.system.restrict KeepsApart).Reachable
        (booting true namedPanel : StoreSystem Bool) s ∧
      s.point false = .setLock setAttic ∧ s.mutex .config = ⟨some (true, 0)⟩ ∧
      s.mutex .subsystem = ⟨some (true, 0)⟩ ∧ ¬ WaitCycle (storeCode.Waits s) ∧
      storeCode.system.Step s (j, a) u) ∧
    ∃ u : StoreSystem Bool, storeCode.system.Reachable (booting true namedPanel) u ∧
      WaitCycle (storeCode.Waits u) := by
  obtain ⟨hfree, hmeet⟩ := config_store_deadlock_free true namedPanel
  have h₁ := Code.run_move (P := storeCode) (i := true)
    (Machine.Run.nil (booting true namedPanel)) .initStart rfl
  have h₂ := Code.run_move (i := true) h₁ (.initLock .asStored) rfl
  have h₃ := Code.run_move (i := false) h₂ (.accept setAttic) rfl
  constructor
  · have hcheck : loadSettingCheck (some (ascii "ssid")) 4 (ReadCb.deliver (ascii "home")) =
        some (.ok ⟨.ssid, 33, ascii "home"⟩) :=
      loadSettingCheck_eq_ok_iff.mpr ⟨.ssid, rfl, by decide, by decide, by decide, by decide⟩
    have k₁ := Code.reachable_move (i := true)
      (Machine.Reachable.refl (M := storeCode.system.restrict KeepsApart)
        (booting true namedPanel)) .initStart rfl trivial
    have k₂ := Code.reachable_move (i := true) k₁ (.initLock .asStored) rfl
      (Or.inl fun j => by cases j <;> exact id)
    have k₃ := Code.reachable_move (i := false) k₂ (.accept setAttic) rfl trivial
    have k₄ := Code.reachable_move (i := true) k₃
      (.loaded (e := ⟨ascii "iot/ssid", ascii "home"⟩) (by decide) hcheck) rfl trivial
    have k₅ := Code.reachable_move (i := true) k₄ .loadLock rfl trivial
    obtain ⟨hcycle, hprogress⟩ := hfree _ k₅
    obtain ⟨j, a, u, -, hstep⟩ := hprogress ⟨true, by simp⟩
    exact ⟨_, j, a, u, k₅, rfl, rfl, rfl, hcycle, hstep⟩
  · have h₄ := Code.run_move (i := false) h₃ .setLock rfl
    obtain ⟨u, hreach, hcycle⟩ := hmeet _ (false, .lock .config) _ ⟨_, h₃⟩
      ⟨_, _, _, .setLock, rfl, rfl⟩
      fun hguard => hguard true ⟨_, List.mem_cons_self, .ssid, by decide, by decide⟩
    exact ⟨u, Machine.Reachable.trans ⟨_, h₄⟩ hreach, hcycle⟩

/-- The boot loads a stored network name while the shell sets a new one: each
holds the mutex the other waits for, and no thread can take a step. -/
theorem boot_and_set_deadlock :
    ∃ u : StoreSystem Bool, storeCode.system.Reachable (booting true namedPanel) u ∧
      (∃ i, u.point i ≠ .idle) ∧ WaitCycle (storeCode.Waits u) ∧
      ∀ e v, ¬ storeCode.system.Step u e v := by
  have h₁ := Code.run_move (P := storeCode) (i := true)
    (Machine.Run.nil (booting true namedPanel)) .initStart rfl
  have h₂ := Code.run_move (i := true) h₁ (.initLock .asStored) rfl
  have h₃ := Code.run_move (i := false) h₂ (.accept setAttic) rfl
  have h₄ := Code.run_move (i := false) h₃ .setLock rfl
  have hcheck : loadSettingCheck (some (ascii "ssid")) 4 (ReadCb.deliver (ascii "home")) =
      some (.ok ⟨.ssid, 33, ascii "home"⟩) :=
    loadSettingCheck_eq_ok_iff.mpr ⟨.ssid, rfl, by decide, by decide, by decide, by decide⟩
  have h₅ := Code.run_move (i := true) h₄ (.loaded (e := ⟨ascii "iot/ssid", ascii "home"⟩)
    (by decide) hcheck) rfl
  refine ⟨_, ⟨_, h₅⟩, ⟨true, by simp⟩, ?_, ?_⟩
  · exact waitCycle_of_locked (i := true) (j := false)
      ((booting_owned _ _).of_reachable ⟨_, h₅⟩) Threads.move_point_self trivial
  · rintro ⟨i, a⟩ v ⟨m, p, mutex, hcode, hmutex, -⟩
    cases i with
    | true =>
      cases hcode with
      | loadLock => exact nomatch (show none = some mutex from hmutex)
    | false =>
      cases hcode with
      | setSaveLock => exact nomatch (show none = some mutex from hmutex)

end LockOrder

end SensorPanel
