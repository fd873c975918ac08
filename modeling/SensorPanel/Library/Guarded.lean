import SensorPanel.Library.Threads

/-!
# Objects guarded by one mutex

The operations of the object are critical sections of single steps on the shared
data and on what the caller keeps to itself. Whatever the threads do, the order
in which the sections are left is a sequential history of the object: replaying
it gives the data whenever no section is under way, and an operation returns
what it returns there, at a place between its call and its return.
-/

namespace Library

/-- Operations `ω` on data `σ`: what a caller begins its section with, and the
steps of the section on the data and on what is the caller's own. -/
structure Guarded (σ τ ω : Type*) where
  enter : ω → τ
  body : ω → List (σ × τ → σ × τ)

/-- What a thread shows of its operations. -/
inductive GuardedEvent (τ ω : Type*)
  | call (op : ω)
  | step
  | ret (op : ω) (own : τ)

/-- Where a thread stands; inside its section it has the rest of it to do. -/
inductive GuardedPoint (σ τ ω : Type*)
  | idle
  | before (op : ω)
  | inside (op : ω) (own : τ) (rest : List (σ × τ → σ × τ))
  | after (op : ω) (own : τ)

namespace Guarded

variable {σ τ ω ι : Type*} (G : Guarded σ τ ω)

/-- Steps of a section, in one go. -/
def exec (steps : List (σ × τ → σ × τ)) (d : σ × τ) : σ × τ := steps.foldl (fun d f => f d) d

def apply (data : σ) (op : ω) : σ × τ := exec (G.body op) (data, G.enter op)

def replay (data : σ) (ops : List ω) : σ := ops.foldl (fun data op => (G.apply data op).1) data

@[simp] theorem exec_nil (d : σ × τ) : exec [] d = d := rfl

@[simp] theorem exec_cons (f : σ × τ → σ × τ) (steps : List (σ × τ → σ × τ)) (d : σ × τ) :
    exec (f :: steps) d = exec steps (f d) := rfl

@[simp] theorem replay_nil (data : σ) : G.replay data [] = data := rfl

theorem replay_concat (data : σ) (ops : List ω) (op : ω) :
    G.replay data (ops ++ [op]) = (G.apply (G.replay data ops) op).1 := by
  simp [replay]

/-- A section is entered by the lock and left by its release. -/
inductive Step : σ → GuardedPoint σ τ ω → Act Unit (GuardedEvent τ ω) → σ →
    GuardedPoint σ τ ω → Prop
  | call {data} (op : ω) : Step data .idle (.emit (.call op)) data (.before op)
  | lock {data} {op : ω} :
      Step data (.before op) (.lock ()) data (.inside op (G.enter op) (G.body op))
  | step {data own f rest} {op : ω} :
      Step data (.inside op own (f :: rest)) (.emit .step) (f (data, own)).1
        (.inside op (f (data, own)).2 rest)
  | unlock {data own} {op : ω} :
      Step data (.inside op own []) (.unlock ()) data (.after op own)
  | ret {data own} {op : ω} : Step data (.after op own) (.emit (.ret op own)) data .idle

def Inside : GuardedPoint σ τ ω → Prop
  | .inside _ _ _ => True
  | _ => False

def code : Code σ (GuardedPoint σ τ ω) Unit (GuardedEvent τ ω) where
  Step := G.Step
  Holds p _ := Inside p
  lock_holds := by
    intro m p l m' p' h
    cases h
    simp [Inside]
  unlock_holds := by
    intro m p l m' p' h
    cases h
    simp [Inside]
  emit_holds := by
    intro m p a m' p' h k
    cases h <;> simp [Inside]

def idle (data : σ) : Threads σ (GuardedPoint σ τ ω) Unit ι :=
  ⟨data, fun _ => .free, fun _ => .idle⟩

theorem idle_owned (data : σ) : G.code.Owned (idle data : Threads σ _ Unit ι) :=
  Code.owned_of_idle (fun _ => rfl) fun _ _ h => h

section History

variable [DecidableEq ι]

/-- What can be seen of a run: the operation each thread has called last, and the
operations in the order in which their sections were left. -/
structure Seen (ι ω : Type*) where
  called : ι → Option ω
  order : List (ι × ω)

def Seen.next (s : Seen ι ω) (e : ι × Act Unit (GuardedEvent τ ω)) : Seen ι ω :=
  match e.2 with
  | .emit (.call op) => { s with called := Function.update s.called e.1 (some op) }
  | .unlock _ => { s with order := s.order ++ (s.called e.1).toList.map fun op => (e.1, op) }
  | _ => s

def seen (es : List (ι × Act Unit (GuardedEvent τ ω))) : Seen ι ω :=
  es.foldl Seen.next ⟨fun _ => none, []⟩

variable {es : List (ι × Act Unit (GuardedEvent τ ω))} {e : ι × Act Unit (GuardedEvent τ ω)}
  {i j : ι} {op : ω}

theorem seen_concat (es : List (ι × Act Unit (GuardedEvent τ ω)))
    (e : ι × Act Unit (GuardedEvent τ ω)) : seen (es ++ [e]) = (seen es).next e := by
  simp [seen]

theorem order_grows (es : List (ι × Act Unit (GuardedEvent τ ω)))
    (e : ι × Act Unit (GuardedEvent τ ω)) : (seen es).order <+: (seen (es ++ [e])).order := by
  rw [seen_concat, Seen.next]
  split
  · exact List.prefix_rfl
  · exact List.prefix_append _ _
  · exact List.prefix_rfl

/-- The operation `op` is the last that `i` has called, and then `k` had been done. -/
def CalledAt (es : List (ι × Act Unit (GuardedEvent τ ω))) (i : ι) (op : ω) (k : ℕ) : Prop :=
  Since (fun past e => e = (i, .emit (.call op)) ∧ (seen past).order.length = k)
    (fun e => ∃ op', e = (i, .emit (.call op'))) es

theorem CalledAt.concat {k : ℕ} (h : CalledAt es i op k)
    (he : ∀ op', e ≠ (i, .emit (.call op'))) : CalledAt (es ++ [e]) i op k :=
  (since_concat es e).mpr (Or.inr ⟨h, fun ⟨op', hop⟩ => he op' hop⟩)

theorem calledAt_call (es : List (ι × Act Unit (GuardedEvent τ ω))) (i : ι) (op : ω) :
    CalledAt (es ++ [(i, .emit (.call op))]) i op (seen es).order.length :=
  (since_concat es _).mpr (Or.inl ⟨rfl, rfl⟩)

/-- The data once the sections left so far have been replayed. -/
def replayed (data : σ) (es : List (ι × Act Unit (GuardedEvent τ ω))) : σ :=
  G.replay data ((seen es).order.map Prod.snd)

/-- The thread has called the operation and not yet left its section. -/
def Underway (es : List (ι × Act Unit (GuardedEvent τ ω))) (i : ι) (op : ω) : Prop :=
  (seen es).called i = some op ∧ ∃ k, CalledAt es i op k ∧ k ≤ (seen es).order.length

/-- The operation has its place in the history, after those that had been done
when it was called, and `own` is what it returns there. -/
def TookEffect (data : σ) (es : List (ι × Act Unit (GuardedEvent τ ω))) (i : ι) (op : ω)
    (own : τ) : Prop :=
  ∃ k n, CalledAt es i op k ∧ k ≤ n ∧ (seen es).order[n]? = some (i, op) ∧
    own = (G.apply (G.replay data (((seen es).order.take n).map Prod.snd)) op).2

/-- What the history says of a thread at a point. -/
def Explained (data : σ) (es : List (ι × Act Unit (GuardedEvent τ ω))) (i : ι) (memory : σ) :
    GuardedPoint σ τ ω → Prop
  | .idle => True
  | .before op => Underway es i op
  | .inside op own rest =>
    Underway es i op ∧ exec rest (memory, own) = G.apply (G.replayed data es) op
  | .after op own => G.TookEffect data es i op own

theorem Underway.concat (h : Underway es i op) (he : ∀ op', e ≠ (i, .emit (.call op'))) :
    Underway (es ++ [e]) i op := by
  obtain ⟨hcalled, k, hk, hle⟩ := h
  refine ⟨?_, k, hk.concat he, hle.trans (order_grows es e).length_le⟩
  obtain ⟨j, a⟩ := e
  rw [seen_concat, Seen.next]
  split
  · next op' ha =>
    dsimp only at ha ⊢
    subst ha
    have hne : i ≠ j := fun hij => he op' (by rw [hij])
    rw [Function.update_of_ne hne, hcalled]
  · exact hcalled
  · exact hcalled

variable {G}

theorem TookEffect.concat {data : σ} {own : τ} (h : G.TookEffect data es i op own)
    (he : ∀ op', e ≠ (i, .emit (.call op'))) : G.TookEffect data (es ++ [e]) i op own := by
  obtain ⟨k, n, hk, hle, hn, rfl⟩ := h
  obtain ⟨more, hmore⟩ := order_grows es e
  obtain ⟨hlt, -⟩ := List.getElem?_eq_some_iff.mp hn
  refine ⟨k, n, hk.concat he, hle, ?_, ?_⟩
  · rw [← hmore, List.getElem?_append_left hlt, hn]
  · rw [← hmore, List.take_append_of_le_length hlt.le]

/-- What another thread does changes nothing, except to the data and the history
while no section of this thread is under way. -/
theorem Explained.concat {data memory memory' : σ} {p : GuardedPoint σ τ ω}
    (h : G.Explained data es i memory p) (he : e.1 ≠ i)
    (hinside : Inside p → memory' = memory ∧ (seen (es ++ [e])).order = (seen es).order) :
    G.Explained data (es ++ [e]) i memory' p := by
  have hcall : ∀ op', e ≠ (i, .emit (.call op')) := by
    rintro op' rfl
    exact he rfl
  cases p with
  | idle => trivial
  | before op => exact Underway.concat h hcall
  | inside op own rest =>
    obtain ⟨hmemory, horder⟩ := hinside trivial
    refine ⟨h.1.concat hcall, ?_⟩
    rw [hmemory, replayed, horder]
    exact h.2
  | after op own => exact TookEffect.concat h hcall

variable (G)

/-- The run so far against its history. -/
structure Agrees (data : σ) (es : List (ι × Act Unit (GuardedEvent τ ω)))
    (t : Threads σ (GuardedPoint σ τ ω) Unit ι) : Prop where
  owned : G.code.Owned t
  explained : ∀ i, G.Explained data es i t.memory (t.point i)
  free : (∀ i, ¬ Inside (t.point i)) → t.memory = G.replayed data es

theorem idle_agrees (data : σ) : G.Agrees data [] (idle data : Threads σ _ Unit ι) where
  owned := G.idle_owned data
  explained _ := trivial
  free _ := rfl

variable {G} {data m : σ} {t u : Threads σ (GuardedPoint σ τ ω) Unit ι} {p : GuardedPoint σ τ ω}
  {a : Act Unit (GuardedEvent τ ω)} {mutex : Unit → Mutex ι}

/-- One thread moves; the sections of the others see neither the data nor the
history change. -/
theorem Agrees.move (h : G.Agrees data es t) (howned : G.code.Owned (t.move i m mutex p))
    (hi : G.Explained data (es ++ [(i, a)]) i m p)
    (hothers : ∀ j, j ≠ i → Inside (t.point j) →
      m = t.memory ∧ (seen (es ++ [(i, a)])).order = (seen es).order)
    (hfree : (∀ j, j ≠ i → ¬ Inside (t.point j)) → ¬ Inside p →
      m = G.replayed data (es ++ [(i, a)])) :
    G.Agrees data (es ++ [(i, a)]) (t.move i m mutex p) where
  owned := howned
  explained := by
    intro j
    by_cases hj : j = i
    · subst hj
      simpa using hi
    · rw [Threads.move_point_of_ne hj, Threads.move_memory]
      exact (h.explained j).concat (fun hij => hj hij.symm) (hothers j hj)
  free := by
    intro hnone
    refine hfree (fun j hj => ?_) ?_
    · simpa [hj] using hnone j
    · simpa using hnone i

theorem order_concat_of_ne (he : ∀ l, e.2 ≠ .unlock l) :
    (seen (es ++ [e])).order = (seen es).order := by
  rw [seen_concat, Seen.next]
  split
  · rfl
  · next l hl => exact absurd hl (he l)
  · rfl

theorem order_concat_unlock (hcalled : (seen es).called i = some op) (l : Unit) :
    (seen (es ++ [((i, .unlock l) : ι × Act Unit (GuardedEvent τ ω))])).order =
      (seen es).order ++ [(i, op)] := by
  simp [seen_concat, Seen.next, hcalled]

theorem Agrees.step (h : G.Agrees data es t) (hstep : G.code.SystemStep t e u) :
    G.Agrees data (es ++ [e]) u := by
  have howned := h.owned.step hstep
  obtain ⟨i, a⟩ := e
  obtain ⟨m, p, mutex, hcode, hlocks, rfl⟩ := hstep
  dsimp only at howned hcode hlocks ⊢
  have hi := h.explained i
  -- While `i` is in its section no other thread is.
  have halone : Inside (t.point i) → ∀ j, j ≠ i → ¬ Inside (t.point j) := fun hin j hj hin' =>
    hj (h.owned.unique (l := ()) hin' hin)
  -- While no thread is, the data is what the history says.
  have hdata : ¬ Inside (t.point i) → (∀ j, j ≠ i → ¬ Inside (t.point j)) →
      t.memory = G.replayed data es := by
    intro hout hnone
    apply h.free
    intro j
    by_cases hj : j = i
    · exact hj ▸ hout
    · exact hnone j hj
  -- A thread that locks finds no other thread in its section.
  have hlocked : a = .lock () → ¬ Inside (t.point i) → ∀ j, ¬ Inside (t.point j) := by
    rintro rfl hout
    obtain ⟨mutex', hmutex', -⟩ := Option.map_eq_some_iff.mp hlocks
    exact fun j => h.owned.not_holds_of_free ((h.owned.lock (l := ()) hout).mp hmutex').1 j
  generalize t.point i = q at hcode hi halone hdata hlocked
  have hcode' : G.Step t.memory q a m p := hcode
  cases hcode' with
  | call op =>
    have horder : (seen (es ++ [(i, .emit (.call op))])).order = (seen es).order :=
      order_concat_of_ne (by simp)
    apply h.move howned
    · refine ⟨by simp [seen_concat, Seen.next], _, calledAt_call es i op, ?_⟩
      rw [horder]
    · exact fun j _ _ => ⟨rfl, horder⟩
    · intro hnone _
      rw [replayed, horder]
      exact hdata id hnone
  | @lock op =>
    have horder : (seen (es ++ [(i, .lock ())])).order = (seen es).order :=
      order_concat_of_ne (by simp)
    have hnone := hlocked rfl id
    apply h.move howned
    · refine ⟨Underway.concat hi (by simp), ?_⟩
      rw [replayed, horder, hdata id fun j _ => hnone j]
      rfl
    · exact fun j _ hin => absurd hin (hnone j)
    · exact fun _ hout => absurd trivial hout
  | @step own f rest op =>
    have horder : (seen (es ++ [(i, .emit .step)])).order = (seen es).order :=
      order_concat_of_ne (by simp)
    obtain ⟨hunderway, hexec⟩ := hi
    apply h.move howned
    · refine ⟨hunderway.concat (by simp), ?_⟩
      rw [replayed, horder]
      exact hexec
    · exact fun j hj hin => absurd hin (halone trivial j hj)
    · exact fun _ hout => absurd trivial hout
  | @unlock own op =>
    obtain ⟨⟨hcalled, k, hk, hle⟩, hexec⟩ := hi
    have horder := order_concat_unlock hcalled ()
    apply h.move howned
    · refine ⟨k, (seen es).order.length, hk.concat (by simp), hle, ?_, ?_⟩
      · simp [horder]
      · rw [horder, List.take_left]
        exact congrArg Prod.snd hexec
    · exact fun j hj hin => absurd hin (halone trivial j hj)
    · intro _ _
      rw [replayed, horder, List.map_append, List.map_singleton, replay_concat]
      exact congrArg Prod.fst hexec
  | @ret own op =>
    have horder : (seen (es ++ [(i, .emit (.ret op own))])).order = (seen es).order :=
      order_concat_of_ne (by simp)
    apply h.move howned
    · trivial
    · exact fun j _ _ => ⟨rfl, horder⟩
    · intro hnone _
      rw [replayed, horder]
      exact hdata id hnone

theorem run_agrees (h : G.code.system.Run (idle data : Threads σ _ Unit ι) es t) :
    G.Agrees data es t :=
  h.history_invariant (G.idle_agrees data) fun _ _ _ _ hs hstep => hs.step hstep

/-- Linearizability: every operation that has returned took effect at its place in
the history, between its call and its return. -/
theorem linearizable (h : G.code.system.Run (idle data : Threads σ _ Unit ι) es t) {own : τ}
    {past later : List (ι × Act Unit (GuardedEvent τ ω))}
    (hret : es = past ++ (i, .emit (.ret op own)) :: later) : G.TookEffect data past i op own := by
  subst hret
  obtain ⟨v, hrun, -⟩ := Machine.run_append_iff.mp
    (show G.code.system.Run _ (past ++ [(i, .emit (.ret op own))] ++ later) t by simpa using h)
  obtain ⟨w, hrun, m, p, mutex, hcode, -⟩ := Machine.run_concat_iff.mp hrun
  have hafter := (run_agrees hrun).explained i
  dsimp only at hcode
  generalize w.point i = q at hcode hafter
  have hcode' : G.Step w.memory q (.emit (.ret op own)) m p := hcode
  cases hcode' with
  | ret => exact hafter

/-- An operation under way can always go on, or another that holds the lock can. -/
theorem goes_on (h : G.code.system.Run (idle data : Threads σ _ Unit ι) es t)
    (hi : t.point i ≠ .idle) : ∃ j a u, t.point j ≠ .idle ∧ G.code.system.Step t (j, a) u := by
  -- There is one lock, and a thread before it holds nothing.
  have hup : G.code.Ascending (fun _ => 0) t := by
    rintro j l ⟨m, p, hcode⟩ k hin
    exact absurd hin (G.code.lock_holds hcode).1
  have htop : ∀ l : Unit, (fun _ : Unit => 0) l ≤ 0 := fun _ => le_rfl
  apply (run_agrees h).owned.progress (fun p => p = .idle) htop hup _ _ hi
  · rintro p l hin rfl
    exact hin
  · intro j hj
    cases hpoint : t.point j with
    | idle => exact absurd hpoint hj
    | before op => exact ⟨_, _, _, .lock⟩
    | inside op own rest =>
      cases rest with
      | nil => exact ⟨_, _, _, .unlock⟩
      | cons f rest => exact ⟨_, _, _, .step⟩
    | after op own => exact ⟨_, _, _, .ret⟩

def alone (data : σ) (i : ι) (mutex : Mutex ι) (p : GuardedPoint σ τ ω) :
    Threads σ (GuardedPoint σ τ ω) Unit ι :=
  ⟨data, fun _ => mutex, Function.update (fun _ => .idle) i p⟩

theorem alone_idle (data : σ) (i : ι) :
    alone data i .free (.idle : GuardedPoint σ τ ω) = idle data := by
  simp [alone, idle]

theorem alone_step {p' : GuardedPoint σ τ ω} {before after : Mutex ι}
    (hcode : G.Step data p a m p')
    (hmutex : Code.mutexAfter (fun _ => before) i a = some fun _ => after) :
    G.code.system.Step (alone data i before p) (i, a) (alone m i after p') := by
  refine ⟨m, p', fun _ => after, ?_, hmutex, ?_⟩
  · simpa [alone, code] using hcode
  · simp [alone, Threads.move]

variable (G)

theorem run_section (steps : List (σ × τ → σ × τ)) (d : σ × τ) (i : ι) (op : ω) :
    G.code.system.Run (alone d.1 i ⟨some (i, 0)⟩ (.inside op d.2 steps))
      (steps.map fun _ => (i, .emit .step))
      (alone (exec steps d).1 i ⟨some (i, 0)⟩ (.inside op (exec steps d).2 [])) := by
  induction steps generalizing d with
  | nil => exact Machine.Run.nil _
  | cons f steps ih =>
    have hstep : G.code.system.Step (alone d.1 i ⟨some (i, 0)⟩ (.inside op d.2 (f :: steps)))
        (i, .emit .step) (alone (f d).1 i ⟨some (i, 0)⟩ (.inside op (f d).2 steps)) :=
      alone_step .step rfl
    exact (Machine.Run.single hstep).trans (ih (f d))

def uninterrupted (data : σ) (i : ι) (op : ω) : List (ι × Act Unit (GuardedEvent τ ω)) :=
  [(i, .emit (.call op)), (i, .lock ())] ++ (G.body op).map (fun _ => (i, .emit .step)) ++
    [(i, .unlock ()), (i, .emit (.ret op (G.apply data op).2))]

/-- An operation nothing interrupts is the operation in one go. -/
theorem run_uninterrupted (data : σ) (i : ι) (op : ω) :
    G.code.system.Run (idle data) (G.uninterrupted data i op) (idle (G.apply data op).1) := by
  have hcall : G.code.system.Step (idle data) (i, .emit (.call op))
      (alone data i .free (.before op)) := alone_idle data i ▸ alone_step (.call op) rfl
  have hlock : G.code.system.Step (alone data i .free (.before op)) (i, .lock ())
      (alone data i ⟨some (i, 0)⟩ (.inside op (G.enter op) (G.body op))) := by
    apply alone_step .lock
    rw [Code.mutexAfter, Mutex.lock_free, Option.map_some,
      Function.update_eq_const_of_subsingleton]
    rfl
  have hunlock : G.code.system.Step
      (alone (G.apply data op).1 i ⟨some (i, 0)⟩ (.inside op (G.apply data op).2 []))
      (i, .unlock ()) (alone (G.apply data op).1 i .free (.after op (G.apply data op).2)) := by
    apply alone_step .unlock
    rw [Code.mutexAfter, Mutex.unlock_once, Option.map_some,
      Function.update_eq_const_of_subsingleton]
    rfl
  have hret : G.code.system.Step
      (alone (G.apply data op).1 i .free (.after op (G.apply data op).2))
      (i, .emit (.ret op (G.apply data op).2)) (idle (G.apply data op).1) :=
    alone_idle (G.apply data op).1 i ▸ alone_step .ret rfl
  exact (((Machine.Run.single hcall).snoc hlock).trans
    (G.run_section (G.body op) (data, G.enter op) i op)).trans
      ((Machine.Run.single hunlock).snoc hret)

end History

end Guarded

end Library
