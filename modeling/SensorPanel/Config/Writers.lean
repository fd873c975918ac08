import SensorPanel.Config.Callers

/-!
# Concurrent writers

Any number of threads set and read settings in any interleaving. A save and the
RAM write that follows it happen under one lock, so the only moments at which
RAM and the saves of the run disagree are those of one thread between its save
and its release; `Caller.pending` names the value under way.
-/

namespace SensorPanel

open Library

section History

variable {ι : Type*}

def savedBy (e : StoreAction ι) : Option SetRequest :=
  match e.2 with
  | .emit (.save r err) => if err = 0 then some r else none
  | _ => none

def succeededBy (e : StoreAction ι) : Option (Option Bytes × Option CString) :=
  match e.2 with
  | .emit (.setReturn key value err) => if err = 0 then some (key, value) else none
  | _ => none

/-- The value of the last save for a field's key that returned 0. -/
def lastSaved (es : List (StoreAction ι)) (f : Field) : Option Bytes :=
  ((es.filterMap savedBy).filter fun r => r.key = some f.key).getLast?.map fun r => r.write.value

/-- The field a run should have produced: its last save, else its initial value. -/
def savedBuffer (c : AppConfig) (es : List (StoreAction ι)) (f : Field) : Buffer f.capacity :=
  match lastSaved es f with
  | none => c.get f
  | some value => Buffer.padded f.capacity value

theorem SetRequest.key_eq (r : SetRequest) : r.key = some r.write.dst.key := by
  obtain ⟨f, v, hkey, -, -, -, hw⟩ := configStoreSetCheck_eq_ok_iff.mp r.accepted
  rw [hw, hkey]

theorem SetRequest.fits (r : SetRequest) : r.write.Fits := configStoreSetCheck_fits r.accepted

variable {es : List (StoreAction ι)} {e : StoreAction ι}

theorem savedBuffer_nil (c : AppConfig) (f : Field) :
    savedBuffer c ([] : List (StoreAction ι)) f = c.get f := rfl

theorem savedBuffer_concat_none {c : AppConfig} (h : savedBy e = none) (f : Field) :
    savedBuffer c (es ++ [e]) f = savedBuffer c es f := by
  simp [savedBuffer, lastSaved, List.filterMap_append, h]

theorem savedBuffer_concat_self {c : AppConfig} {r : SetRequest} (h : savedBy e = some r) :
    savedBuffer c (es ++ [e]) r.write.dst = r.fits.setting.buffer := by
  simp [savedBuffer, lastSaved, List.filterMap_append, List.filter_append, h, r.key_eq,
    Setting.buffer, FieldWrite.Fits.setting]

theorem savedBuffer_concat_of_ne {c : AppConfig} {r : SetRequest} (h : savedBy e = some r)
    {f : Field} (hf : f ≠ r.write.dst) :
    savedBuffer c (es ++ [e]) f = savedBuffer c es f := by
  have hkey : r.write.dst.key ≠ f.key := fun hk => hf (Field.key_injective hk).symm
  simp [savedBuffer, lastSaved, List.filterMap_append, List.filter_append, h, r.key_eq, hkey]

end History

namespace Caller

/-- The accepted value that is saved but not yet in RAM. -/
def pending : Caller → Option SetRequest
  | setSaveUnlock r err => if err = 0 then some r else none
  | setClear r | setCopy r => some r
  | _ => none

/-- The successful save of a call that has not returned yet. -/
def unreturned : Caller → List (Option Bytes × Option CString)
  | setSaveUnlock r err | setUnlock r err => if err = 0 then [(r.key, r.value)] else []
  | setClear r | setCopy r => [(r.key, r.value)]
  | setReturn key value err => if err = 0 then [(key, value)] else []
  | _ => []

/-- The thread is not inside `config_store_init`. -/
def Client : Caller → Prop
  | initStart | initLock | initEntries _ | initReturn _ => False
  | loadLock _ _ _ | loadClear _ _ _ | loadCopy _ _ _ | loadUnlock _ => False
  | _ => True

theorem pending_holds {p : Caller} {r : SetRequest} (h : p.pending = some r) :
    p.Holds .config := by
  cases p <;> simp_all [pending, Holds]

theorem pending_unreturned {p : Caller} {r : SetRequest} (h : p.pending = some r) :
    p.unreturned = [(r.key, r.value)] := by
  cases p with
  | setSaveUnlock s err =>
    by_cases herr : err = 0
    · simp only [pending, herr, if_true, Option.some.injEq] at h
      simp [unreturned, herr, h]
    · simp [pending, herr] at h
  | setClear s | setCopy s =>
    obtain rfl : s = r := by simpa [pending] using h
    rfl
  | _ => simp [pending] at h

variable {d d' : Device} {p p' : Caller} {a : Act StoreLock StoreEvent}

theorem step_client (h : Step d p a d' p') (hp : p.Client) : p'.Client := by
  cases h <;> trivial

/-- What a client's step does to RAM and to the value under way. -/
theorem step_ram {ι : Type*} (i : ι) (h : Step d p a d' p') (hp : p.Client) :
    (d'.config = d.config ∧ p'.pending = p.pending ∧ savedBy (i, a) = none ∧
        ∀ r, p' ≠ setCopy r) ∨
    (∃ r, p = setSave r ∧ savedBy (i, a) = some r ∧ d'.config = d.config ∧
      p' = setSaveUnlock r 0) ∨
    (∃ r, p = setClear r ∧ savedBy (i, a) = none ∧ p' = setCopy r ∧
      d'.config = d.config.put r.write.dst (Buffer.zero _)) ∨
    (∃ r, p = setCopy r ∧ savedBy (i, a) = none ∧ p' = setUnlock r 0 ∧
      (d.config.get r.write.dst = Buffer.zero _ →
        d'.config = d.config.put r.write.dst r.fits.setting.buffer)) := by
  cases h with
  | @saved config store r => exact Or.inr (Or.inl ⟨r, rfl, by simp [savedBy], rfl, rfl⟩)
  | @notSaved _ r err failed => exact Or.inl (by simp [pending, savedBy, failed])
  | @setClear config store r config' clear =>
    refine Or.inr (Or.inr (Or.inl ⟨r, rfl, rfl, rfl, ?_⟩))
    exact (Option.some.inj ((memset_eq config r.fits).symm.trans clear)).symm
  | @setCopy config store r config' copy =>
    refine Or.inr (Or.inr (Or.inr ⟨r, rfl, rfl, rfl, fun hzero => ?_⟩))
    exact (Option.some.inj ((memcpy_eq r.fits hzero).symm.trans copy)).symm
  | notSavedUnlock failed => exact Or.inl (by simp [pending, savedBy, failed])
  | _ => first | exact hp.elim | exact Or.inl (by simp [pending, savedBy])

/-- A call that returned an error has saved nothing; one that returned 0, once. -/
theorem step_unreturned {ι : Type*} (i : ι) (h : Step d p a d' p') (hp : p.Client) :
    p.unreturned ++ (savedBy (i, a)).toList.map (fun r => (r.key, r.value)) =
      (succeededBy (i, a)).toList ++ p'.unreturned := by
  cases h with
  | @saved config store r => simp [unreturned, savedBy, succeededBy]
  | @notSaved _ r err failed => simp [unreturned, savedBy, succeededBy, failed]
  | @setReturn _ key value err =>
    by_cases herr : err = 0 <;> simp [unreturned, savedBy, succeededBy, herr]
  | @reject _ key value err check =>
    have herr := configStoreSetCheck_error check
    have hne : err ≠ 0 := by
      rw [herr]
      decide
    simp [unreturned, savedBy, succeededBy, hne]
  | notSavedUnlock failed => simp [unreturned, savedBy, succeededBy, failed]
  | _ => first | exact hp.elim | simp [unreturned, savedBy, succeededBy]

end Caller

section Writers

variable {ι : Type*}

def clients (d : Device) : StoreSystem ι := ⟨d, fun _ => .free, fun _ => .idle⟩

/-- RAM against the saves of a run: they agree but for the value under way. -/
structure Ram (c : AppConfig) (es : List (StoreAction ι)) (s : StoreSystem ι) : Prop where
  owned : storeCode.Owned s
  client : ∀ i, (s.point i).Client
  settled : (∀ i, (s.point i).pending = none) →
    ∀ f, s.memory.config.get f = savedBuffer c es f
  underway : ∀ i r, (s.point i).pending = some r →
    savedBuffer c es r.write.dst = r.fits.setting.buffer ∧
      ∀ f, f ≠ r.write.dst → s.memory.config.get f = savedBuffer c es f
  cleared : ∀ i r, s.point i = .setCopy r → s.memory.config.get r.write.dst = Buffer.zero _

variable {c : AppConfig} {es : List (StoreAction ι)} {s t : StoreSystem ι} {e : StoreAction ι}

theorem Ram.clients (d : Device) : Ram d.config [] (clients d : StoreSystem ι) where
  owned := Code.owned_of_idle (fun _ => rfl) fun _ _ => id
  client _ := trivial
  settled _ f := (savedBuffer_nil _ f).symm
  underway i r h := by simp [SensorPanel.clients, Caller.pending] at h
  cleared i r h := by simp [SensorPanel.clients] at h

/-- While a thread holds `config_lock` no other one has a value under way. -/
theorem Ram.alone (h : Ram c es s) {i : ι} (hi : (s.point i).Holds .config) {j : ι} (hj : j ≠ i) :
    (s.point j).pending = none := by
  cases hp : (s.point j).pending with
  | none => rfl
  | some r => exact absurd (h.owned.unique (Caller.pending_holds hp) hi) hj

theorem Ram.alone_copy (h : Ram c es s) {i : ι} (hi : (s.point i).Holds .config) {j : ι}
    (hj : j ≠ i) (r : SetRequest) : s.point j ≠ .setCopy r := by
  intro hcopy
  have hnone := h.alone hi hj
  rw [hcopy] at hnone
  simp [Caller.pending] at hnone

theorem Ram.config_eq (h : Ram c es s) {i j : ι} (hj : (s.point j).Holds .config) (hij : i ≠ j)
    {a : Act StoreLock StoreEvent} {m : Device} {p : Caller}
    (hcode : Caller.Step s.memory (s.point i) a m p) : m.config = s.memory.config := by
  rcases Caller.step_ram i hcode (h.client i) with
    ⟨hconfig, -⟩ | ⟨r, hp, -, hconfig, -⟩ | ⟨r, hp, -⟩ | ⟨r, hp, -⟩
  · exact hconfig
  · exact hconfig
  all_goals
    have hpending : (s.point i).pending = some r := by
      rw [hp]
      rfl
    exact absurd (h.owned.unique (Caller.pending_holds hpending) hj) hij

variable [DecidableEq ι]

section Move

variable {i : ι} {m : Device} {mutex : StoreLock → Mutex ι} {p : Caller}

theorem Ram.client_move (h : Ram c es s) (hp : p.Client) (j : ι) :
    ((s.move i m mutex p).point j).Client := by
  by_cases hj : j = i
  · subst hj
    simpa using hp
  · simpa [hj] using h.client j

theorem Ram.of_untouched (h : Ram c es s) (howned : storeCode.Owned (s.move i m mutex p))
    (hclient : p.Client) (hconfig : m.config = s.memory.config)
    (hpending : p.pending = (s.point i).pending) (hsaved : savedBy e = none)
    (hcopy : ∀ r, p ≠ .setCopy r) : Ram c (es ++ [e]) (s.move i m mutex p) := by
  have hsame : ∀ j, ((s.move i m mutex p).point j).pending = (s.point j).pending := by
    intro j
    by_cases hj : j = i
    · subst hj
      simpa using hpending
    · simp [hj]
  refine ⟨howned, h.client_move hclient, ?_, ?_, ?_⟩
  · intro hnone f
    rw [savedBuffer_concat_none hsaved, Threads.move_memory, hconfig]
    exact h.settled (fun j => (hsame j).symm.trans (hnone j)) f
  · intro j r hj
    simp only [savedBuffer_concat_none hsaved, Threads.move_memory, hconfig]
    exact h.underway j r ((hsame j).symm.trans hj)
  · intro j r hj
    have hne : j ≠ i := by
      rintro rfl
      exact hcopy r (by simpa using hj)
    rw [Threads.move_memory, hconfig]
    exact h.cleared j r (by simpa [hne] using hj)

/-- A step after which the value of the thread that holds `config_lock` is the
only one under way. -/
theorem Ram.of_underway (h : Ram c es s) {es' : List (StoreAction ι)}
    (howned : storeCode.Owned (s.move i m mutex p)) (hi : (s.point i).Holds .config)
    (hclient : p.Client) {r : SetRequest} (hpending : p.pending = some r)
    (hdst : savedBuffer c es' r.write.dst = r.fits.setting.buffer)
    (hother : ∀ f, f ≠ r.write.dst → m.config.get f = savedBuffer c es' f)
    (hcleared : p = .setCopy r → m.config.get r.write.dst = Buffer.zero _) :
    Ram c es' (s.move i m mutex p) := by
  refine ⟨howned, h.client_move hclient, ?_, ?_, ?_⟩
  · intro hnone
    have hi' := hnone i
    simp [hpending] at hi'
  · intro j r' hj
    by_cases hji : j = i
    · subst hji
      obtain rfl : r = r' := by simpa [hpending] using hj
      exact ⟨hdst, hother⟩
    · simp [hji, h.alone hi hji] at hj
  · intro j r' hj
    by_cases hji : j = i
    · subst hji
      obtain rfl : p = .setCopy r' := by simpa using hj
      obtain rfl : r' = r := by simpa [Caller.pending] using hpending
      exact hcleared rfl
    · exact absurd (by simpa [hji] using hj) (h.alone_copy hi hji r')

theorem Ram.of_settled (h : Ram c es s) {es' : List (StoreAction ι)}
    (howned : storeCode.Owned (s.move i m mutex p)) (hi : (s.point i).Holds .config)
    (hclient : p.Client) (hpending : p.pending = none)
    (hconfig : ∀ f, m.config.get f = savedBuffer c es' f) : Ram c es' (s.move i m mutex p) := by
  have hnone : ∀ j, ((s.move i m mutex p).point j).pending = none := by
    intro j
    by_cases hj : j = i
    · subst hj
      simpa using hpending
    · simpa [hj] using h.alone hi hj
  refine ⟨howned, h.client_move hclient, fun _ => hconfig, ?_, ?_⟩
  · intro j r hj
    simp [hnone j] at hj
  · intro j r hj
    have hj' := hnone j
    simp [hj, Caller.pending] at hj'

end Move

theorem Ram.step (h : Ram c es s) (hstep : storeCode.SystemStep s e t) : Ram c (es ++ [e]) t := by
  have howned := h.owned.step hstep
  obtain ⟨i, a⟩ := e
  obtain ⟨m, p, mutex, hcode, -, rfl⟩ := hstep
  dsimp only at hcode howned ⊢
  have hclient := Caller.step_client hcode (h.client i)
  rcases Caller.step_ram i hcode (h.client i) with
    ⟨hconfig, hpending, hsaved, hcopy⟩ | ⟨r, hp, hsaved, hconfig, rfl⟩ |
    ⟨r, hp, hsaved, rfl, hconfig⟩ | ⟨r, hp, hsaved, rfl, hconfig⟩
  · exact h.of_untouched howned hclient hconfig hpending hsaved hcopy
  · -- The save has returned 0; RAM still holds the value of the save before it.
    have hi : (s.point i).Holds .config := by simp [hp, Caller.Holds]
    apply h.of_underway howned hi hclient rfl (savedBuffer_concat_self hsaved)
    · intro f hf
      rw [savedBuffer_concat_of_ne hsaved hf, hconfig]
      apply h.settled _ f
      intro j
      by_cases hj : j = i
      · simp [hj, hp, Caller.pending]
      · exact h.alone hi hj
    · intro hcopy
      cases hcopy
  · have hi : (s.point i).Holds .config := by simp [hp, Caller.Holds]
    obtain ⟨hdst, hother⟩ := h.underway i r (by simp [hp, Caller.pending])
    rw [← savedBuffer_concat_none hsaved] at hdst
    apply h.of_underway howned hi hclient rfl hdst
    · intro f hf
      rw [savedBuffer_concat_none hsaved, hconfig, AppConfig.get_put_of_ne _ _ hf, hother f hf]
    · intro _
      rw [hconfig, AppConfig.get_put_self]
  · have hi : (s.point i).Holds .config := by simp [hp, Caller.Holds]
    obtain ⟨hdst, hother⟩ := h.underway i r (by simp [hp, Caller.pending])
    apply h.of_settled howned hi hclient rfl
    intro f
    rw [savedBuffer_concat_none hsaved, hconfig (h.cleared i r hp)]
    by_cases hf : f = r.write.dst
    · subst hf
      rw [AppConfig.get_put_self, hdst]
    · rw [AppConfig.get_put_of_ne _ _ hf, hother f hf]

def savedOf (i : ι) (es : List (StoreAction ι)) : List (Option Bytes × Option CString) :=
  ((es.filter fun e => e.1 = i).filterMap savedBy).map fun r => (r.key, r.value)

def succeededOf (i : ι) (es : List (StoreAction ι)) : List (Option Bytes × Option CString) :=
  (es.filter fun e => e.1 = i).filterMap succeededBy

theorem filterMap_single {α β : Type*} (g : α → Option β) (a : α) :
    [a].filterMap g = (g a).toList := by
  cases hg : g a <;> simp [hg]

/-- Every successful save belongs to a call that has returned 0 or is about to. -/
def Accounted (es : List (StoreAction ι)) (s : StoreSystem ι) : Prop :=
  ∀ i, savedOf i es = succeededOf i es ++ (s.point i).unreturned

theorem Accounted.clients (d : Device) : Accounted [] (clients d : StoreSystem ι) := fun _ => rfl

theorem Accounted.step (h : Accounted es s) (hclient : ∀ i, (s.point i).Client)
    (hstep : storeCode.SystemStep s e t) : Accounted (es ++ [e]) t := by
  obtain ⟨i, a⟩ := e
  obtain ⟨m, p, mutex, hcode, -, rfl⟩ := hstep
  dsimp only at hcode
  intro j
  by_cases hj : j = i
  · subst hj
    have hnew := Caller.step_unreturned j hcode (hclient j)
    have hold := h j
    simp only [savedOf, succeededOf] at hold
    simp only [savedOf, succeededOf, List.filter_append, List.filterMap_append, List.map_append,
      List.filter_cons, decide_true, if_true, List.filter_nil, filterMap_single,
      Threads.move_point_self]
    rw [hold, List.append_assoc, hnew, List.append_assoc]
  · have hne : i ≠ j := fun hij => hj hij.symm
    simpa [savedOf, succeededOf, List.filter_append, hj, hne] using h j

/-- The configuration at the moment thread `i` last took `config_lock`: the lock
was free then, so no call was under way. -/
def Snapshot (start : StoreSystem ι) (es : List (StoreAction ι)) (i : ι) (c : AppConfig) : Prop :=
  ∃ before after s, es = before ++ (i, .lock .config) :: after ∧
    (i, .lock .config) ∉ after ∧ storeCode.system.Run start before s ∧
    s.mutex .config = .free ∧ s.memory.config = c

theorem Snapshot.concat {start : StoreSystem ι} {i : ι} (h : Snapshot start es i c)
    (he : e ≠ (i, .lock .config)) : Snapshot start (es ++ [e]) i c := by
  obtain ⟨before, after, s, rfl, hafter, hrun, hfree, hc⟩ := h
  refine ⟨before, after ++ [e], s, by simp, ?_, hrun, hfree, hc⟩
  simp [hafter, he.symm]

/-- A copy under way agrees with RAM where it has been made, and RAM is what it
was when the lock was taken. -/
def Reads (start : StoreSystem ι) (es : List (StoreAction ι)) (s : StoreSystem ι) : Prop :=
  ∀ i, match s.point i with
    | .getCopy out rest => Snapshot start es i s.memory.config ∧
        ∀ f, f ∉ rest → out.get f = s.memory.config.get f
    | .getReturn out => Snapshot start es i out
    | _ => True

theorem Reads.clients (d : Device) (start : StoreSystem ι) : Reads start [] (clients d) :=
  fun _ => trivial

theorem Reads.step {start : StoreSystem ι} (h : Reads start es s) (hram : Ram c es s)
    (hrun : storeCode.system.Run start es s) (hstep : storeCode.SystemStep s e t) :
    Reads start (es ++ [e]) t := by
  obtain ⟨i, a⟩ := e
  obtain ⟨m, p, mutex, hcode, hlocks, rfl⟩ := hstep
  dsimp only at hcode hlocks
  intro j
  have hj' := h j
  by_cases hj : j = i
  · subst hj
    rw [Threads.move_point_self, Threads.move_memory]
    have hnot := hram.owned.lock (i := j) (l := .config)
    generalize hpoint : s.point j = point at hcode hj' hnot
    generalize hmemory : s.memory = memory at hcode hj'
    cases hcode with
    | @getLock d out =>
      obtain ⟨mutex', hlock, -⟩ := Option.map_eq_some_iff.mp hlocks
      obtain ⟨hfree, -⟩ := (hnot (by simp [storeCode, Caller.Holds])).mp hlock
      exact ⟨⟨es, [], s, rfl, by simp, hrun, hfree, by rw [hmemory]⟩,
        fun f hf => absurd (Caller.mem_allFields f) hf⟩
    | @getCopy d out f rest =>
      obtain ⟨hsnap, hout⟩ := hj'
      refine ⟨hsnap.concat (by simp), fun g hg => ?_⟩
      by_cases hgf : g = f
      · subst hgf
        rw [AppConfig.get_put_self]
      · rw [AppConfig.get_put_of_ne _ _ hgf, hout g (by simp [hgf, hg])]
    | @getUnlock d out =>
      obtain ⟨hsnap, hout⟩ := hj'
      obtain rfl : out = m.config := AppConfig.ext_get fun f => hout f (by simp)
      exact hsnap.concat (by simp)
    | _ => trivial
  · have hne : (i, a) ≠ (j, .lock .config) := fun he => hj (Prod.ext_iff.mp he).1.symm
    rw [Threads.move_point_of_ne hj, Threads.move_memory]
    have hkeep : (s.point j).Holds .config → m.config = s.memory.config :=
      fun hheld => hram.config_eq hheld (Ne.symm hj) hcode
    generalize s.point j = point at hj' hkeep
    cases point with
    | getCopy out rest =>
      rw [hkeep rfl]
      exact ⟨hj'.1.concat hne, hj'.2⟩
    | getReturn out => exact Snapshot.concat hj' hne
    | _ => trivial

/-- A thread inside a call whose save for the key of `f` has returned 0. -/
def Writing (s : StoreSystem ι) (i : ι) (f : Field) : Prop :=
  ∃ value, (s.point i).unreturned = [(some f.key, value)]

theorem Ram.writing (h : Ram c es s) (hstep : storeCode.SystemStep s e t) {f : Field}
    (hf : t.memory.config.get f ≠ s.memory.config.get f) : Writing s e.1 f := by
  obtain ⟨i, a⟩ := e
  obtain ⟨m, p, mutex, hcode, -, rfl⟩ := hstep
  dsimp only at hcode ⊢
  rw [Threads.move_memory] at hf
  have hput : ∀ r b, (s.point i).pending = some r → m.config = s.memory.config.put r.write.dst b →
      Writing s i f := by
    intro r b hp hm
    have hdst : f = r.write.dst := by
      by_contra hne
      rw [hm, AppConfig.get_put_of_ne _ _ hne] at hf
      exact hf rfl
    exact ⟨r.value, by rw [Caller.pending_unreturned hp, r.key_eq, hdst]⟩
  rcases Caller.step_ram i hcode (h.client i) with
    ⟨hconfig, -⟩ | ⟨r, hp, -, hconfig, -⟩ | ⟨r, hp, -, -, hconfig⟩ | ⟨r, hp, -, -, hconfig⟩
  · exact absurd (by rw [hconfig]) hf
  · exact absurd (by rw [hconfig]) hf
  · exact hput r _ (by rw [hp]; rfl) hconfig
  · exact hput r _ (by rw [hp]; rfl) (hconfig (h.cleared i r hp))

theorem clients_run (d : Device) {es : List (StoreAction ι)} {t : StoreSystem ι}
    (h : storeCode.system.Run (clients d) es t) :
    Ram d.config es t ∧ Accounted es t ∧ Reads (clients d) es t := by
  induction h with
  | nil => exact ⟨Ram.clients d, Accounted.clients d, Reads.clients d _⟩
  | snoc hrun hstep ih =>
    obtain ⟨hram, haccounted, hreads⟩ := ih
    exact ⟨hram.step hstep, haccounted.step hram.client hstep, hreads.step hram hrun hstep⟩

/-- Concurrent writers cannot diverge. Whatever any number of threads do: while
`config_lock` is free every field holds its last successful save; exactly the
calls that return 0 have saved; a thread changes a field only in a call whose
save for that key has returned 0; and every `config_store_get` returns the
configuration of the moment at which it took the lock. -/
theorem concurrent_writers_agree (d : Device) (es : List (StoreAction ι)) (t : StoreSystem ι)
    (h : storeCode.system.Run (clients d) es t) :
    (t.mutex .config = .free → ∀ f, t.memory.config.get f = savedBuffer d.config es f) ∧
    (∀ i, savedOf i es = succeededOf i es ++ (t.point i).unreturned) ∧
    (∀ e u, storeCode.system.Step t e u → ∀ f,
      u.memory.config.get f ≠ t.memory.config.get f → Writing t e.1 f) ∧
    ∀ past i out later, es = past ++ (i, .emit (.getReturn out)) :: later →
      Snapshot (clients d) past i out := by
  obtain ⟨hram, haccounted, -⟩ := clients_run d h
  refine ⟨?_, haccounted, ?_, ?_⟩
  · intro hfree
    apply hram.settled
    intro i
    by_contra hp
    obtain ⟨r, hr⟩ := Option.ne_none_iff_exists'.mp hp
    exact hram.owned.not_holds_of_free hfree i (Caller.pending_holds hr)
  · intro e u hstep f hf
    exact hram.writing hstep hf
  · rintro past i out later rfl
    obtain ⟨s, hrun, hlater⟩ := Machine.run_append_iff.mp h
    rw [← List.singleton_append] at hlater
    obtain ⟨u, hfirst, -⟩ := Machine.run_append_iff.mp hlater
    obtain ⟨s', hs', m, p, mutex, hcode, -⟩ := Machine.run_concat_iff.mp
      (show storeCode.system.Run s ([] ++ [_]) u from hfirst)
    obtain rfl := Machine.run_nil_iff.mp hs'
    have hread := (clients_run d hrun).2.2 i
    generalize s'.point i = point at hcode hread
    generalize s'.memory = memory at hcode
    cases hcode with
    | getReturn => exact hread

def lockedSet (r : SetRequest) : List (Act StoreLock StoreEvent) :=
  [.lock .config, .lock .subsystem, .emit (.save r 0), .unlock .subsystem,
    .emit (.memset r.write.dst), .emit (.memcpy r.write.dst), .unlock .config]

theorem run_lockedSet (d : Device) (point : ι → Caller) (i : ι) (r : SetRequest) :
    ∃ d', storeCode.system.Run ⟨d, fun _ => .free, Function.update point i (.setLock r)⟩
      ((lockedSet r).map fun a => (i, a))
      ⟨d', fun _ => .free, Function.update point i (.setReturn r.key r.value 0)⟩ := by
  obtain ⟨config, store⟩ := d
  let held : StoreLock → Mutex ι := Function.update (fun _ => .free) .config ⟨some (i, 0)⟩
  let both : StoreLock → Mutex ι := Function.update held .subsystem ⟨some (i, 0)⟩
  have hlock : Code.mutexAfter (α := StoreEvent) (fun _ => .free) i (.lock .config) =
      some held := rfl
  have henter : Code.mutexAfter (α := StoreEvent) held i (.lock .subsystem) = some both := rfl
  have hleave : Code.mutexAfter (α := StoreEvent) both i (.unlock .subsystem) = some held := by
    simp [Code.mutexAfter, both, held, Mutex.unlock]
  have hunlock : Code.mutexAfter (α := StoreEvent) held i (.unlock .config) =
      some fun _ => .free := by
    simp [Code.mutexAfter, held, Mutex.unlock]
  have hstep {d d' : Device} {locks locks' : StoreLock → Mutex ι} {p p' : Caller}
      {a : Act StoreLock StoreEvent} (hcode : Caller.Step d p a d' p')
      (hlocks : Code.mutexAfter locks i a = some locks') :
      storeCode.system.Step ⟨d, locks, Function.update point i p⟩ (i, a)
        ⟨d', locks', Function.update point i p'⟩ :=
    ⟨d', p', locks', by dsimp only; rwa [Function.update_self], hlocks,
      by simp [Threads.move]⟩
  have hsaved := (((Machine.Run.nil _).snoc (hstep (d := ⟨config, store⟩) (.setLock (r := r))
    hlock)).snoc (hstep .setSaveLock henter)).snoc (hstep .saved rfl)
  exact ⟨_, (((hsaved.snoc (hstep .savedUnlock hleave)).snoc
    (hstep (.setClear (Caller.memset_eq _ r.fits)) rfl)).snoc
    (hstep (.setCopy (Caller.memcpy_eq r.fits (AppConfig.get_put_self _ _ _))) rfl)).snoc
    (hstep .setUnlock hunlock)⟩

/-- Two threads set the network name on a blank panel: the second has called before the
first locks, and locks before the first returns. -/
theorem saved_ssid_in_ram : ∃ es t,
    storeCode.system.Run (clients Device.blank : StoreSystem ℕ) es t ∧
    es.map Prod.fst = [1, 0, 0, 0, 0, 0, 0, 0, 0, 1, 1, 1, 1, 1, 1, 1, 1, 0] ∧
    succeededOf 0 es = [(some (ascii "ssid"), some (.literal "home"))] ∧
    succeededOf 1 es = [(some (ascii "ssid"), some (.literal "attic"))] ∧
    t.memory.config.get .ssid = Buffer.padded _ (ascii "attic") := by
  let r : SetRequest := ⟨some (ascii "ssid"), some (.literal "home"),
    ⟨.ssid, 33, ascii "home"⟩, by decide⟩
  let q : SetRequest := ⟨some (ascii "ssid"), some (.literal "attic"),
    ⟨.ssid, 33, ascii "attic"⟩, by decide⟩
  have hfirst := Code.run_move (P := storeCode) (i := 1) (Machine.Run.nil (clients Device.blank))
    (Caller.Step.accept q) rfl
  have hcalls := Code.run_move (i := 0) hfirst (.accept r) rfl
  obtain ⟨d, hset⟩ := run_lockedSet Device.blank
    (Function.update (fun _ => .idle) 1 (.setLock q)) 0 r
  obtain ⟨d', hset'⟩ := run_lockedSet d
    (Function.update (fun _ => .idle) 0 (.setReturn r.key r.value 0)) 1 q
  rw [Function.update_comm (by decide)] at hset'
  have hreturn := Code.run_move (i := 1) ((hcalls.trans hset).trans hset')
    (a := .emit (.setReturn q.key q.value 0)) .setReturn rfl
  have hlast := Code.run_move (i := 0) hreturn (a := .emit (.setReturn r.key r.value 0))
    .setReturn rfl
  refine ⟨_, _, hlast, ?_, ?_, ?_, ?_⟩
  · simp [lockedSet]
  · rfl
  · rfl
  · rw [(concurrent_writers_agree _ _ _ hlast).1 rfl .ssid]
    rfl

end Writers

end SensorPanel
