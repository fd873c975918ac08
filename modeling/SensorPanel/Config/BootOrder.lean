import SensorPanel.Config.LockOrder
import SensorPanel.Config.StoreOrder

/-!
# A boot among the calls of the store

The main thread runs `config_store_init` while any number of others set and get.
In every interleaving the calls take effect in one order, each between its call
and its return. The loads of a boot stand in it without a save in between: what
is loaded is the flash of one moment.
-/

namespace SensorPanel

open Library
open StoreOp (alone)

section Order

variable {ι : Type*}

abbrev StoreStep (ι : Type*) := StoreAction ι × Option StoreOp

def logged [DecidableEq ι] : Machine (StoreSystem ι) (StoreStep ι) :=
  storeCode.system.observe storeSections.effectAt

/-- The calls in the order in which they take effect. -/
def order (es : List (StoreStep ι)) : List StoreOp := es.filterMap Prod.snd

theorem order_concat (es : List (StoreStep ι)) (e : StoreAction ι) (op : Option StoreOp) :
    order (es ++ [(e, op)]) = order es ++ op.toList := by
  cases op <;> simp [order]

end Order

/-- What `load_setting` is asked for an entry, if the entry lies in the subtree. -/
def asked (x : Entry) : Option (Option Bytes × ℕ) :=
  (subtreeName x.1).map fun name => (some name, x.2.length)

def LoadCall.asked (call : LoadCall) : Option Bytes × ℕ := (call.key, call.len)

/-- The calls between `d` and `v` are those of `load_setting` for the entries of the
flash but for `rest`, whatever their reads deliver, and calls that change nothing. -/
structure Brings (d : Device) (ops : List StoreOp) (v : Device) (rest : List Entry) : Prop where
  run : alone.Run d ops v
  unsaved : ∀ op ∈ ops, ¬ op.saves
  store_eq : v.store = d.store
  calls : ∃ visited calls, (visited ++ rest).Perm d.store.entries ∧
    calls.map LoadCall.asked = visited.filterMap asked ∧ loadSettings d.config calls = some v.config

namespace Brings

variable {d v w : Device} {ops : List StoreOp} {rest : List Entry} {x : Entry}

theorem start (h : rest.Perm d.store.entries) : Brings d [] d rest where
  run := Machine.Run.nil d
  unsaved := by simp
  store_eq := rfl
  calls := ⟨[], [], h, rfl, rfl⟩

theorem beside (h : Brings d ops v rest) {op : StoreOp} (hstep : op.step v = some v)
    (hsaves : ¬ op.saves) : Brings d (ops ++ [op]) v rest where
  run := h.run.snoc hstep
  unsaved := by
    intro x hx
    rcases List.mem_append.mp hx with hx | hx
    · exact h.unsaved x hx
    · rw [List.mem_singleton.mp hx]
      exact hsaves
  store_eq := h.store_eq
  calls := h.calls

theorem other (h : Brings d ops v (x :: rest)) (hx : subtreeName x.1 = none) :
    Brings d ops v rest where
  run := h.run
  unsaved := h.unsaved
  store_eq := h.store_eq
  calls := by
    obtain ⟨visited, calls, hperm, hasked, hload⟩ := h.calls
    exact ⟨visited ++ [x], calls, by simpa using hperm, by simp [hasked, asked, hx], hload⟩

theorem visit (h : Brings d ops v (x :: rest)) {call : LoadCall}
    (hasked : asked x = some call.asked) {ops' : List StoreOp} (hrun : alone.Run v ops' w)
    (hunsaved : ∀ op ∈ ops', ¬ op.saves) (hstore : w.store = v.store)
    (hload : (loadSetting v.config call.key call.len call.readCb).map Prod.snd = some w.config) :
    Brings d (ops ++ ops') w rest where
  run := h.run.trans hrun
  unsaved := by
    intro op hop
    rcases List.mem_append.mp hop with hop | hop
    · exact h.unsaved op hop
    · exact hunsaved op hop
  store_eq := hstore.trans h.store_eq
  calls := by
    obtain ⟨visited, calls, hperm, hcalls, hloaded⟩ := h.calls
    refine ⟨visited ++ [x], calls ++ [call], by simpa using hperm, by simp [hcalls, hasked], ?_⟩
    rw [loadSettings] at hloaded ⊢
    rw [List.foldlM_append, hloaded]
    simpa using hload

theorem refuse (h : Brings d ops v (x :: rest)) (call : LoadCall) {err : ℤ}
    (hasked : asked x = some call.asked)
    (hcheck : loadSettingCheck call.key call.len call.readCb = some (.error err)) :
    Brings d ops v rest := by
  have hload : (loadSetting v.config call.key call.len call.readCb).map Prod.snd =
      some v.config := by
    simp [loadSetting, hcheck]
  simpa using h.visit hasked (Machine.Run.nil v) (by simp) rfl hload

theorem accept (h : Brings d ops v (x :: rest)) {call : LoadCall} {value : FieldWrite}
    (hasked : asked x = some call.asked)
    (hcheck : loadSettingCheck call.key call.len call.readCb = some (.ok value))
    (hstep : (StoreOp.load value).step v = some w) : Brings d (ops ++ [.load value]) w rest := by
  obtain ⟨config, hstore, rfl⟩ := Option.map_eq_some_iff.mp hstep
  apply h.visit hasked (Machine.Run.single hstep) (by simp [StoreOp.saves]) rfl
  simp [loadSetting, hcheck, hstore]

end Brings

def Unloaded (ops : List StoreOp) : Prop := ∀ op ∈ ops, ¬ op.loads

def Loading (d : Device) (ops : List StoreOp) (v : Device) (rest : List Entry) : Prop :=
  ∃ before during d₁, ops = before ++ during ∧ Unloaded before ∧ alone.Run d before d₁ ∧
    Brings d₁ during v rest

/-- All entries were loaded in one go: no save falls into it, and no load outside. -/
def Loaded (d : Device) (ops : List StoreOp) (v : Device) : Prop :=
  ∃ before during after d₁ d₂, ops = before ++ during ++ after ∧ Unloaded (before ++ after) ∧
    alone.Run d before d₁ ∧ Brings d₁ during d₂ [] ∧ alone.Run d₂ after v

/-- What `config_store_init` has done when it returns `err`. -/
def Initialized (d : Device) (ops : List StoreOp) (v : Device) (err : ℤ) : Prop :=
  if err = 0 then Loaded d ops v else Unloaded ops

theorem Unloaded.append {ops ops' : List StoreOp} (h : Unloaded ops) (h' : Unloaded ops') :
    Unloaded (ops ++ ops') := by
  intro op hop
  rcases List.mem_append.mp hop with hop | hop
  · exact h op hop
  · exact h' op hop

theorem Initialized.append {d v w : Device} {ops ops' : List StoreOp} {err : ℤ}
    (h : Initialized d ops v err) (hrun : alone.Run v ops' w) (hops' : Unloaded ops') :
    Initialized d (ops ++ ops') w err := by
  unfold Initialized at h ⊢
  split_ifs at h ⊢ with herr
  · obtain ⟨before, during, after, d₁, d₂, rfl, hunloaded, hbefore, hduring, hafter⟩ := h
    refine ⟨before, during, after ++ ops', d₁, d₂, by simp, ?_, hbefore, hduring,
      hafter.trans hrun⟩
    rw [← List.append_assoc]
    exact hunloaded.append hops'
  · exact h.append hops'

namespace Caller

variable {d m m' v w : Device} {p p' : Caller} {a : Act StoreLock StoreEvent}
  {ops : List StoreOp} {op : StoreOp}

/-- What the calls so far are, by where `config_store_init` stands. -/
def Booted (d : Device) (ops : List StoreOp) (v : Device) : Caller → Prop
  | initStart | initLock => Unloaded ops
  | initEntries rest | loadClear _ _ rest | loadCopy _ _ rest | loadUnlock rest =>
    Loading d ops v rest
  | loadLock w _ rest => ∃ (x : Entry) (call : LoadCall), asked x = some call.asked ∧
      loadSettingCheck call.key call.len call.readCb = some (.ok w) ∧ Loading d ops v (x :: rest)
  | initReturn err => Initialized d ops v err
  | _ => True

theorem booted_of_client (h : p.Client) : p.Booted d ops v := by
  cases p <;> trivial

theorem effect_loads (h : p.effect a = some op) (hp : p.Client) : ¬ op.loads := by
  unfold effect at h
  split at h
  · split at h
    · cases h
      exact id
    · cases h
  · cases h
    exact id
  · cases h
    exact id
  · exact hp.elim
  · cases h

theorem effect_saves (h : p.effect a = some op) (hsaves : op.saves) : p.Holds .subsystem := by
  unfold effect at h
  split at h
  · split at h
    · next key value err hcheck =>
      cases h
      have herr : -EINVAL = 0 := (configStoreSetCheck_error hcheck).symm.trans hsaves
      exact absurd herr (by decide)
    · cases h
  · trivial
  · cases h
    exact hsaves.elim
  · cases h
    exact hsaves.elim
  · cases h

theorem step_booted (h : Step m p a m' p') (hp : ¬ p.Client) (hstore : v.store = m.store)
    (hops : alone.Run d ops v) (hrun : alone.Run v (p.effect a).toList w)
    (hbooted : p.Booted d ops v) : p'.Booted d (ops ++ (p.effect a).toList) w := by
  -- Only the lock that a load takes brings something.
  have hquiet (hnone : p.effect a = none) : w = v ∧ ops ++ (p.effect a).toList = ops := by
    rw [hnone] at hrun ⊢
    exact ⟨Machine.run_nil_iff.mp hrun, List.append_nil ops⟩
  cases h with
  | initStart =>
    obtain ⟨rfl, hsame⟩ := hquiet rfl
    rw [hsame]
    exact hbooted
  | initFailed failed =>
    obtain ⟨rfl, hsame⟩ := hquiet rfl
    rw [hsame]
    simpa [Booted, Initialized, failed] using hbooted
  | initLock order =>
    obtain ⟨rfl, hsame⟩ := hquiet rfl
    rw [hsame]
    refine ⟨ops, [], w, by simp, hbooted, hops, Brings.start ?_⟩
    rw [hstore]
    exact order.perm _
  | otherTree other =>
    obtain ⟨rfl, hsame⟩ := hquiet rfl
    rw [hsame]
    obtain ⟨before, during, d₁, hsplit, hbefore, hrun₁, hbrings⟩ := hbooted
    exact ⟨before, during, d₁, hsplit, hbefore, hrun₁, hbrings.other other⟩
  | @refused _ x rest name err readCb inTree check =>
    obtain ⟨rfl, hsame⟩ := hquiet rfl
    rw [hsame]
    obtain ⟨before, during, d₁, hsplit, hbefore, hrun₁, hbrings⟩ := hbooted
    refine ⟨before, during, d₁, hsplit, hbefore, hrun₁,
      hbrings.refuse ⟨some name, x.2.length, readCb⟩ ?_ check⟩
    simp [asked, LoadCall.asked, inTree]
  | @loaded _ x rest name value readCb inTree check =>
    obtain ⟨rfl, hsame⟩ := hquiet rfl
    rw [hsame]
    refine ⟨x, ⟨some name, x.2.length, readCb⟩, ?_, check, hbooted⟩
    simp [asked, LoadCall.asked, inTree]
  | @loadLock _ value fits rest =>
    obtain ⟨x, call, hasked, hcheck, before, during, d₁, rfl, hbefore, hrun₁, hbrings⟩ := hbooted
    have hstep : (StoreOp.load value).step v = some w := by
      simpa [alone] using Machine.run_cons_iff.mp hrun
    exact ⟨before, during ++ [.load value], d₁, by simp [effect], hbefore, hrun₁,
      hbrings.accept hasked hcheck hstep⟩
  | loadClear clear | loadCopy copy | loadUnlock =>
    obtain ⟨rfl, hsame⟩ := hquiet rfl
    rw [hsame]
    exact hbooted
  | initUnlock =>
    obtain ⟨rfl, hsame⟩ := hquiet rfl
    rw [hsame]
    obtain ⟨before, during, d₁, rfl, hbefore, hrun₁, hbrings⟩ := hbooted
    exact ⟨before, during, [], d₁, w, by simp, by simpa using hbefore, hrun₁, hbrings,
      Machine.Run.nil w⟩
  | initReturn => trivial
  | _ => exact absurd trivial hp

theorem Booted.beside (h : p.Booted d ops v) (hrun : alone.Run v [op] w) (hloads : ¬ op.loads)
    (hsaves : p.Holds .subsystem → ¬ op.saves) : p.Booted d (ops ++ [op]) w := by
  have hunloaded : Unloaded [op] := by simpa [Unloaded] using hloads
  have hstep : op.step v = some w := by simpa [alone] using Machine.run_cons_iff.mp hrun
  have hloading {rest : List Entry} (hp : p.Holds .subsystem) (h : Loading d ops v rest) :
      Loading d (ops ++ [op]) w rest := by
    obtain rfl := StoreOp.step_eq hstep (hsaves hp) hloads
    obtain ⟨before, during, d₁, rfl, hbefore, hrun₁, hbrings⟩ := h
    exact ⟨before, during ++ [op], d₁, by simp, hbefore, hrun₁, hbrings.beside hstep (hsaves hp)⟩
  cases p with
  | initStart | initLock => exact h.append hunloaded
  | initEntries rest => exact hloading rfl h
  | loadClear value fits rest | loadCopy value fits rest | loadUnlock rest =>
    exact hloading trivial h
  | loadLock value fits rest =>
    obtain ⟨x, call, hasked, hcheck, h⟩ := h
    exact ⟨x, call, hasked, hcheck, hloading rfl h⟩
  | initReturn err => exact Initialized.append h hrun hunloaded
  | _ => trivial

/-- What the call under way, or about to return, has done to the store. -/
def did : Caller → Option StoreOp
  | setSaveUnlock r err | setUnlock r err => some (.set r.key r.value err)
  | setClear r | setCopy r => some (.set r.key r.value 0)
  | setReturn key value err => some (.set key value err)
  | getReturn out => some (.get out)
  | _ => none

theorem step_did (h : Step m p a m' p') (hdid : p'.did = some op) :
    p.effect a = some op ∨ p.did = some op ∧ ∀ c, a ≠ .emit (.call c) := by
  cases h with
  | reject check =>
    refine Or.inl ?_
    simp only [effect, check]
    exact hdid
  | saved | notSaved failed | getUnlock => exact Or.inl hdid
  | savedUnlock | notSavedUnlock failed | setClear clear | setCopy copy | setUnlock =>
    exact Or.inr ⟨hdid, by simp⟩
  | _ => cases hdid

def returned : Act StoreLock StoreEvent → Option StoreOp
  | .emit (.setReturn key value err) => some (.set key value err)
  | .emit (.getReturn out) => some (.get out)
  | _ => none

/-- A call does one thing to the store, which it has done when it returns. -/
theorem step_returned (h : Step m p a m' p') :
    p.did.toList ++ (p.effect a).toList.filter (fun op => ¬ op.loads) =
      (returned a).toList ++ p'.did.toList := by
  cases h with
  | reject check => simp [did, effect, returned, check, StoreOp.loads]
  | accept r => simp [did, effect, returned, r.accepted]
  | saved | notSaved failed | getUnlock | loadLock => simp [did, effect, returned, StoreOp.loads]
  | _ => rfl

theorem step_initReturn {err : ℤ} (h : Step m p (.emit (.initReturn err)) m' p') :
    p = initReturn err ∧ p' = idle := by
  cases h with
  | initReturn => exact ⟨rfl, rfl⟩

theorem step_setReturn {key : Option Bytes} {value : Option CString} {err : ℤ}
    (h : Step m p (.emit (.setReturn key value err)) m' p') :
    p.did = some (.set key value err) := by
  cases h with
  | setReturn => rfl

theorem step_getReturn {out : AppConfig} (h : Step m p (.emit (.getReturn out)) m' p') :
    p.did = some (.get out) := by
  cases h with
  | getReturn => rfl

end Caller

section Runs

variable {ι : Type*} [DecidableEq ι]

def Effected (es : List (StoreStep ι)) (i : ι) (op : StoreOp) : Prop :=
  Since (fun _ e => e.1.1 = i ∧ e.2 = some op)
    (fun e => e.1.1 = i ∧ ∃ c, e.1.2 = .emit (.call c)) es

def doneBy (i : ι) (es : List (StoreStep ι)) : List StoreOp :=
  (order (es.filter fun e => e.1.1 = i)).filter fun op => ¬ op.loads

def returnedBy (i : ι) (es : List (StoreStep ι)) : List StoreOp :=
  (es.filter fun e => e.1.1 = i).filterMap fun e => Caller.returned e.1.2

/-- The main thread has come this far with `config_store_init`, and is alone with it. -/
structure Boots (main : ι) (d : Device) (es : List (StoreStep ι)) (s : StoreSystem ι)
    (v : Device) : Prop where
  others : ∀ i, i ≠ main → (s.point i).Client
  booted : (s.point main).Booted d (order es) v
  returned : ∀ err, (main, .emit (.initReturn err)) ∈ es.map Prod.fst →
    (s.point main).Client ∧ Initialized d (order es) v err

variable {main : ι} {d v w : Device} {es : List (StoreStep ι)} {s t : StoreSystem ι}
  {e : StoreAction ι}

theorem booting_boots (main : ι) (d : Device) : Boots main d [] (booting main d) d where
  others i hi := by simp [booting, hi, Caller.Client]
  booted := by simp [booting, Caller.Booted, Unloaded, order]
  returned := by simp

theorem Boots.step_main {a : Act StoreLock StoreEvent} {m : Device} {p : Caller}
    {mutex : StoreLock → Mutex ι} (h : Boots main d es s v) (hstore : v.store = s.memory.store)
    (hops : alone.Run d (order es) v) (hcode : Caller.Step s.memory (s.point main) a m p)
    (hrun : alone.Run v ((s.point main).effect a).toList w) :
    Boots main d (es ++ [((main, a), (s.point main).effect a)]) (s.move main m mutex p) w where
  others i hi := by
    rw [Threads.move_point_of_ne hi]
    exact h.others i hi
  booted := by
    rw [Threads.move_point_self, order_concat]
    by_cases hp : (s.point main).Client
    · exact Caller.booted_of_client (Caller.step_client hcode hp)
    · exact Caller.step_booted hcode hp hstore hops hrun h.booted
  returned err hmem := by
    rw [Threads.move_point_self, order_concat]
    rw [List.map_append, List.mem_append] at hmem
    rcases hmem with hmem | hmem
    · obtain ⟨hp, hinit⟩ := h.returned err hmem
      refine ⟨Caller.step_client hcode hp, hinit.append hrun fun op hop => ?_⟩
      exact Caller.effect_loads (Option.mem_toList.mp hop) hp
    · obtain rfl : a = .emit (.initReturn err) := by simpa [eq_comm] using hmem
      obtain ⟨hpoint, rfl⟩ := Caller.step_initReturn hcode
      have hbooted := h.booted
      rw [hpoint] at hrun hbooted ⊢
      exact ⟨trivial, Initialized.append hbooted hrun (by simp [Unloaded, Caller.effect])⟩

theorem Boots.step_other {i : ι} {a : Act StoreLock StoreEvent} {m : Device} {p : Caller}
    {mutex : StoreLock → Mutex ι} (h : Boots main d es s v) (howned : storeCode.Owned s)
    (hi : i ≠ main) (hcode : Caller.Step s.memory (s.point i) a m p)
    (hrun : alone.Run v ((s.point i).effect a).toList w) :
    Boots main d (es ++ [((i, a), (s.point i).effect a)]) (s.move i m mutex p) w where
  others j hj := by
    by_cases hji : j = i
    · subst hji
      rw [Threads.move_point_self]
      exact Caller.step_client hcode (h.others j hj)
    · rw [Threads.move_point_of_ne hji]
      exact h.others j hj
  booted := by
    rw [Threads.move_point_of_ne hi.symm, order_concat]
    cases heffect : (s.point i).effect a with
    | none =>
      rw [heffect] at hrun
      obtain rfl := Machine.run_nil_iff.mp hrun
      simpa using h.booted
    | some op =>
      rw [heffect] at hrun
      apply h.booted.beside hrun (Caller.effect_loads heffect (h.others i hi))
      intro hmain hsaves
      exact hi (howned.unique (Caller.effect_saves heffect hsaves) hmain)
  returned err hmem := by
    rw [Threads.move_point_of_ne hi.symm, order_concat]
    rw [List.map_append, List.mem_append] at hmem
    rcases hmem with hmem | hmem
    · obtain ⟨hp, hinit⟩ := h.returned err hmem
      refine ⟨hp, hinit.append hrun fun op hop => ?_⟩
      exact Caller.effect_loads (Option.mem_toList.mp hop) (h.others i hi)
    · exact absurd (by simpa using (Prod.ext_iff.mp (List.mem_singleton.mp hmem)).1) hi.symm

theorem logged_did (h : logged.Run (booting main d) es t) :
    ∀ i op, (t.point i).did = some op → Effected es i op := by
  induction h with
  | nil =>
    intro i op hdid
    by_cases hi : i = main
    · simp [booting, hi, Caller.did] at hdid
    · simp [booting, hi, Caller.did] at hdid
  | @snoc s t es e hrun hstep ih =>
    obtain ⟨⟨i, a⟩, op'⟩ := e
    obtain ⟨⟨m, p, mutex, hcode, -, rfl⟩, heffect⟩ := hstep
    dsimp only at hcode heffect
    intro j op hdid
    apply (since_concat _ _).mpr
    by_cases hj : j = i
    · subst hj
      rw [Threads.move_point_self] at hdid
      rcases Caller.step_did hcode hdid with hnow | ⟨hbefore, hcall⟩
      · exact Or.inl ⟨rfl, heffect.trans hnow⟩
      · exact Or.inr ⟨ih j op hbefore, fun hstop => hcall _ hstop.2.choose_spec⟩
    · rw [Threads.move_point_of_ne hj] at hdid
      exact Or.inr ⟨ih j op hdid, fun hstop => hj hstop.1.symm⟩

/-- Every set and get is made once, when it returns or before. -/
theorem logged_returned (h : logged.Run (booting main d) es t) (i : ι) :
    doneBy i es = returnedBy i es ++ (t.point i).did.toList := by
  induction h with
  | nil =>
    by_cases hi : i = main
    · simp [doneBy, returnedBy, order, booting, hi, Caller.did]
    · simp [doneBy, returnedBy, order, booting, hi, Caller.did]
  | @snoc s t es e hrun hstep ih =>
    obtain ⟨⟨j, a⟩, op⟩ := e
    obtain ⟨⟨m, p, mutex, hcode, -, rfl⟩, hop⟩ := hstep
    dsimp only at hcode hop
    subst hop
    by_cases hj : j = i
    · subst hj
      have hstep := Caller.step_returned hcode
      simp only [doneBy, returnedBy] at ih
      simp only [doneBy, returnedBy, List.filter_append, List.filter_cons, decide_true, if_true,
        List.filter_nil, order_concat, List.filterMap_append, filterMap_single,
        Threads.move_point_self]
      rw [ih, List.append_assoc, List.append_assoc]
      exact congrArg _ hstep
    · have hne : i ≠ j := fun hij => hj hij.symm
      simpa [doneBy, returnedBy, order, List.filter_append, hj, hne] using ih

theorem booting_follows (main : ι) (d : Device) : storeSections.Follows (booting main d) d := by
  apply Sections.Follows.of_idle (booting_owned main d)
  · intro i
    by_cases hi : i = main
    · simp [booting, hi, storeCode, Caller.Holds]
    · simp [booting, hi, storeCode, Caller.Holds]
  · rfl

theorem logged_follows (h : logged.Run (booting main d) es t) :
    ∃ v, alone.Run d (order es) v ∧ storeSections.Follows t v ∧ Boots main d es t v := by
  induction h with
  | nil => exact ⟨d, Machine.Run.nil d, booting_follows main d, booting_boots main d⟩
  | @snoc s t es e hrun hstep ih =>
    obtain ⟨v, hops, hfollows, hboots⟩ := ih
    obtain ⟨⟨i, a⟩, op⟩ := e
    obtain ⟨hstep, hop⟩ := hstep
    dsimp only at hstep hop
    subst hop
    obtain ⟨w, hw, hfollows'⟩ := hfollows.step hstep
    refine ⟨w, ?_, hfollows', ?_⟩
    · rw [order_concat]
      exact hops.trans hw
    · obtain ⟨m, p, mutex, hcode, -, rfl⟩ := hstep
      dsimp only at hcode
      by_cases hi : i = main
      · subst hi
        have hmain : Nonempty ι := ⟨i⟩
        obtain ⟨-, hstore, -⟩ := hfollows.exists_owes
        exact hboots.step_main hstore hops hcode hw
      · exact hboots.step_other hfollows.owned hi hcode hw

/-- The run is one in which every call is made with nobody beside it. -/
structure InOrder (main : ι) (d : Device) (es : List (StoreStep ι)) (t : StoreSystem ι) :
    Prop where
  store : ∃ v, alone.Run d (order es) v ∧ (t.mutex .config = .free → v = t.memory) ∧
    ∀ err, (main, .emit (.initReturn err)) ∈ es.map Prod.fst → Initialized d (order es) v err
  sets : ∀ past i key value err op later,
    es = past ++ ((i, .emit (.setReturn key value err)), op) :: later →
      Effected past i (.set key value err)
  gets : ∀ past i out op later, es = past ++ ((i, .emit (.getReturn out)), op) :: later →
    Effected past i (.get out)
  once : ∀ i, doneBy i es = returnedBy i es ++ (t.point i).did.toList

/-- The store keeps an order. Whatever any number of threads do while the main
thread loads the store and after: its calls do what they do one after another,
each taking effect once, between its call and its return, with the result it
returns; and `config_store_init` loads the entries as they were at one moment,
with no save in between. -/
theorem store_keeps_order (h : logged.Run (booting main d) es t) : InOrder main d es t where
  store := by
    obtain ⟨v, hops, hfollows, hboots⟩ := logged_follows h
    have hmain : Nonempty ι := ⟨main⟩
    exact ⟨v, hops, hfollows.stands, fun err hmem => (hboots.returned err hmem).2⟩
  sets := by
    rintro past i key value err op later rfl
    obtain ⟨s, u, hpast, ⟨⟨m, p, mutex, hcode, -⟩, -⟩, -⟩ := h.step_mid
    exact logged_did hpast i _ (Caller.step_setReturn hcode)
  gets := by
    rintro past i out op later rfl
    obtain ⟨s, u, hpast, ⟨⟨m, p, mutex, hcode, -⟩, -⟩, -⟩ := h.step_mid
    exact logged_did hpast i _ (Caller.step_getReturn hcode)
  once := logged_returned h

theorem logged_move (hrun : logged.Run s es t) (i : ι) (op : Option StoreOp)
    {a : Act StoreLock StoreEvent} {m : Device} {p : Caller} {mutex : StoreLock → Mutex ι}
    (hcode : Caller.Step t.memory (t.point i) a m p)
    (hmutex : Code.mutexAfter t.mutex i a = some mutex) (hop : op = (t.point i).effect a) :
    logged.Run s (es ++ [((i, a), op)]) (t.move i m mutex p) :=
  hrun.snoc ⟨⟨m, p, mutex, hcode, hmutex, rfl⟩, hop⟩

/-- A set is called before the boot and saves after it: the stored name is loaded
first, and the new one stays. -/
theorem set_follows_boot : ∃ es t, logged.Run (booting true namedPanel : StoreSystem Bool) es t ∧
    order es = [.load ⟨.ssid, 33, ascii "home"⟩, .set setAttic.key setAttic.value 0] ∧
    InOrder true namedPanel es t ∧ t.memory.config.get .ssid = Buffer.padded _ (ascii "attic") := by
  have hcheck : loadSettingCheck (some (ascii "ssid")) 4 (ReadCb.deliver (ascii "home")) =
      some (.ok ⟨.ssid, 33, ascii "home"⟩) :=
    loadSettingCheck_eq_ok_iff.mpr ⟨.ssid, rfl, by decide, by decide, by decide, by decide⟩
  have hfits := loadSettingCheck_fits hcheck
  have h₁ := logged_move (Machine.Run.nil (booting true namedPanel)) false none
    (.accept setAttic) rfl rfl
  have h₂ := logged_move h₁ true none .initStart rfl rfl
  have h₃ := logged_move h₂ true none (.initLock .asStored) rfl rfl
  have h₄ := logged_move h₃ true none (.loaded (e := ⟨ascii "iot/ssid", ascii "home"⟩)
    (by decide) hcheck) rfl rfl
  have h₅ := logged_move h₄ true (some (.load _)) .loadLock rfl rfl
  have h₆ := logged_move h₅ true none (.loadClear (Caller.memset_eq _ hfits)) rfl rfl
  have h₇ := logged_move h₆ true none
    (.loadCopy (Caller.memcpy_eq hfits (AppConfig.get_put_self _ _ _))) rfl rfl
  have h₈ := logged_move h₇ true none .loadUnlock rfl rfl
  have h₉ := logged_move h₈ true none .initUnlock rfl rfl
  have h₁₀ := logged_move h₉ true none .initReturn rfl rfl
  have h₁₁ := logged_move h₁₀ false none .setLock rfl rfl
  have h₁₂ := logged_move h₁₁ false none .setSaveLock rfl rfl
  have h₁₃ := logged_move h₁₂ false (some (.set _ _ 0)) .saved rfl rfl
  have h₁₄ := logged_move h₁₃ false none .savedUnlock rfl rfl
  have h₁₅ := logged_move h₁₄ false none (.setClear (Caller.memset_eq _ setAttic.fits)) rfl rfl
  have h₁₆ := logged_move h₁₅ false none
    (.setCopy (Caller.memcpy_eq setAttic.fits (AppConfig.get_put_self _ _ _))) rfl rfl
  have h₁₇ := logged_move h₁₆ false none .setUnlock rfl rfl
  exact ⟨_, _, h₁₇, rfl, store_keeps_order h₁₇, rfl⟩

end Runs

end SensorPanel
