import SensorPanel.Library.Machine
import SensorPanel.Library.Sync

/-!
# Threads over a shared memory and a set of mutexes

Every thread runs the same code. A step of it touches one mutex or performs an
internal action on the memory, and the code names the mutexes it holds at each
point. From that the ownership of every mutex follows in every reachable state,
and with it who waits for whom.
-/

namespace Library

/-- What one step of the code does to the mutexes; other steps show an event. -/
inductive Act (κ α : Type*)
  | lock (l : κ)
  | unlock (l : κ)
  | emit (a : α)
  deriving DecidableEq

/-- Code over a memory `μ` with program points `θ`, mutexes `κ` and events `α`. -/
structure Code (μ θ κ α : Type*) where
  Step : μ → θ → Act κ α → μ → θ → Prop
  Holds : θ → κ → Prop
  lock_holds : ∀ {m p l m' p'}, Step m p (.lock l) m' p' →
    ¬ Holds p l ∧ ∀ k, Holds p' k ↔ Holds p k ∨ k = l
  unlock_holds : ∀ {m p l m' p'}, Step m p (.unlock l) m' p' →
    Holds p l ∧ ∀ k, Holds p' k ↔ Holds p k ∧ k ≠ l
  emit_holds : ∀ {m p a m' p'}, Step m p (.emit a) m' p' → ∀ k, Holds p' k ↔ Holds p k

/-- The memory, the mutexes and the program point of every thread. -/
structure Threads (μ θ κ ι : Type*) where
  memory : μ
  mutex : κ → Mutex ι
  point : ι → θ

variable {μ θ κ α ι : Type*}

section Move

variable [DecidableEq ι]

def Threads.move (s : Threads μ θ κ ι) (i : ι) (m : μ) (mutex : κ → Mutex ι) (p : θ) :
    Threads μ θ κ ι := ⟨m, mutex, Function.update s.point i p⟩

variable {s : Threads μ θ κ ι} {i j : ι} {m : μ} {mutex : κ → Mutex ι} {p : θ}

@[simp] theorem Threads.move_memory : (s.move i m mutex p).memory = m := rfl

@[simp] theorem Threads.move_mutex : (s.move i m mutex p).mutex = mutex := rfl

@[simp] theorem Threads.move_point_self : (s.move i m mutex p).point i = p := by
  simp [move]

@[simp] theorem Threads.move_point_of_ne (h : j ≠ i) :
    (s.move i m mutex p).point j = s.point j := by
  simp [move, h]

end Move

namespace Code

variable (P : Code μ θ κ α)

/-- Every mutex is free and held at no program point, or owned once by the one
thread whose program point holds it. -/
def Owned (s : Threads μ θ κ ι) : Prop :=
  ∀ l, (s.mutex l = .free ∧ ∀ i, ¬ P.Holds (s.point i) l) ∨
    ∃ i, s.mutex l = ⟨some (i, 0)⟩ ∧ ∀ j, P.Holds (s.point j) l ↔ j = i

def Before (s : Threads μ θ κ ι) (i : ι) (l : κ) : Prop :=
  ∃ m p, P.Step s.memory (s.point i) (.lock l) m p

/-- Thread `i` stands before a lock that `j` owns. -/
def Waits (s : Threads μ θ κ ι) (i j : ι) : Prop :=
  j ≠ i ∧ ∃ l, P.Before s i l ∧ (s.mutex l).HeldBy j

/-- Locks are taken upwards: a thread before a lock holds only lower ones. -/
def Ascending (level : κ → ℕ) (s : Threads μ θ κ ι) : Prop :=
  ∀ i l, P.Before s i l → ∀ k, P.Holds (s.point i) k → level k < level l

variable {P} {s t : Threads μ θ κ ι} {i j : ι} {l : κ}

theorem owned_of_idle (hfree : ∀ l, s.mutex l = .free) (hidle : ∀ i l, ¬ P.Holds (s.point i) l) :
    P.Owned s := fun l => Or.inl ⟨hfree l, fun i => hidle i l⟩

theorem Owned.heldBy_iff (h : P.Owned s) : (s.mutex l).HeldBy i ↔ P.Holds (s.point i) l := by
  rcases h l with ⟨hfree, hnone⟩ | ⟨k, hk, hholds⟩
  · simp [hfree, hnone i]
  · rw [hk, Mutex.heldBy_some, hholds]
    exact eq_comm

theorem Owned.unique (h : P.Owned s) (hi : P.Holds (s.point i) l) (hj : P.Holds (s.point j) l) :
    i = j := (h.heldBy_iff.mpr hi).unique (h.heldBy_iff.mpr hj)

theorem Owned.not_holds_of_free (h : P.Owned s) (hfree : s.mutex l = .free) (i : ι) :
    ¬ P.Holds (s.point i) l := by
  rw [← h.heldBy_iff, hfree]
  exact Mutex.not_heldBy_free i

theorem Owned.free_of_not_holds (h : P.Owned s) (hnone : ∀ i, ¬ P.Holds (s.point i) l) :
    s.mutex l = .free := by
  rcases h l with ⟨hfree, -⟩ | ⟨k, -, hholds⟩
  · exact hfree
  · exact absurd ((hholds k).mpr rfl) (hnone k)

/-- Lock ordering: threads that take their locks upwards cannot wait in a circle. -/
theorem Owned.not_waitCycle (h : P.Owned s) {level : κ → ℕ} (hup : P.Ascending level s) :
    ¬ WaitCycle (P.Waits s) := by
  -- Along a path of waits the levels of the locks waited for rise.
  have hpath : ∀ {i j}, Relation.TransGen (P.Waits s) i j →
      ∃ l k, P.Before s i l ∧ P.Holds (s.point j) k ∧ level l ≤ level k := by
    intro i j hij
    induction hij with
    | single hw =>
      obtain ⟨-, l, hbefore, hheld⟩ := hw
      exact ⟨l, l, hbefore, h.heldBy_iff.mp hheld, le_rfl⟩
    | tail _ hw ih =>
      obtain ⟨l, k, hbefore, hholds, hle⟩ := ih
      obtain ⟨-, l', hbefore', hheld⟩ := hw
      exact ⟨l, l', hbefore, h.heldBy_iff.mp hheld, hle.trans (hup _ _ hbefore' _ hholds).le⟩
  rintro ⟨i, hi⟩
  obtain ⟨l, k, hbefore, hholds, hle⟩ := hpath hi
  exact absurd (hup i l hbefore k hholds) hle.not_gt

variable [DecidableEq ι]

/-- A mutex can be locked exactly when it is free, by a thread that does not hold it. -/
theorem Owned.lock (h : P.Owned s) (hi : ¬ P.Holds (s.point i) l) {m : Mutex ι} :
    (s.mutex l).lock i = some m ↔ s.mutex l = .free ∧ m = ⟨some (i, 0)⟩ := by
  rcases h l with ⟨hfree, -⟩ | ⟨k, hk, hholds⟩
  · simp [hfree, eq_comm]
  · have hne : k ≠ i := by
      rintro rfl
      exact hi ((hholds k).mpr rfl)
    simp [hk, Mutex.lock, Mutex.free, hne]

theorem Owned.unlock (h : P.Owned s) (hi : P.Holds (s.point i) l) :
    (s.mutex l).unlock i = some .free := by
  rcases h l with ⟨-, hnone⟩ | ⟨k, hk, hholds⟩
  · exact absurd hi (hnone i)
  · obtain rfl := (hholds i).mp hi
    simp [hk]

variable [DecidableEq κ]

/-- The mutexes after an action of thread `i`; a lock another thread owns has no result. -/
def mutexAfter (mutex : κ → Mutex ι) (i : ι) : Act κ α → Option (κ → Mutex ι)
  | .lock l => ((mutex l).lock i).map (Function.update mutex l)
  | .unlock l => ((mutex l).unlock i).map (Function.update mutex l)
  | .emit _ => some mutex

def SystemStep (P : Code μ θ κ α) (s : Threads μ θ κ ι) (e : ι × Act κ α)
    (t : Threads μ θ κ ι) : Prop :=
  ∃ m p mutex, P.Step s.memory (s.point e.1) e.2 m p ∧ mutexAfter s.mutex e.1 e.2 = some mutex ∧
    t = s.move e.1 m mutex p

def system (P : Code μ θ κ α) : Machine (Threads μ θ κ ι) (ι × Act κ α) := ⟨P.SystemStep⟩

theorem run_move {es : List (ι × Act κ α)} (hrun : P.system.Run s es t) {a : Act κ α} {m : μ}
    {p : θ} {mutex : κ → Mutex ι} (hcode : P.Step t.memory (t.point i) a m p)
    (hmutex : mutexAfter t.mutex i a = some mutex) :
    P.system.Run s (es ++ [(i, a)]) (t.move i m mutex p) :=
  hrun.snoc ⟨m, p, mutex, hcode, hmutex, rfl⟩

theorem reachable_move {guard : Threads μ θ κ ι → ι × Act κ α → Prop}
    (h : (P.system.restrict guard).Reachable s t) {a : Act κ α} {m : μ} {p : θ}
    {mutex : κ → Mutex ι} (hcode : P.Step t.memory (t.point i) a m p)
    (hmutex : mutexAfter t.mutex i a = some mutex) (hguard : guard t (i, a)) :
    (P.system.restrict guard).Reachable s (t.move i m mutex p) :=
  h.step ⟨hguard, m, p, mutex, hcode, hmutex, rfl⟩

/-- Steps keep the agreement between program points and owners. -/
theorem Owned.step (h : P.Owned s) {e : ι × Act κ α} (hstep : P.SystemStep s e t) :
    P.Owned t := by
  obtain ⟨i, a⟩ := e
  obtain ⟨m, p, mutex, hcode, hlocks, rfl⟩ := hstep
  dsimp only at hcode hlocks ⊢
  intro k
  -- A mutex the action does not touch is owned as before.
  have hsame : (P.Holds p k ↔ P.Holds (s.point i) k) → mutex k = s.mutex k →
      ((s.move i m mutex p).mutex k = .free ∧
          ∀ j, ¬ P.Holds ((s.move i m mutex p).point j) k) ∨
        ∃ o, (s.move i m mutex p).mutex k = ⟨some (o, 0)⟩ ∧
          ∀ j, P.Holds ((s.move i m mutex p).point j) k ↔ j = o := by
    intro hp hk
    have hall : ∀ j, P.Holds ((s.move i m mutex p).point j) k ↔ P.Holds (s.point j) k := by
      intro j
      by_cases hj : j = i
      · subst hj
        rw [Threads.move_point_self, hp]
      · rw [Threads.move_point_of_ne hj]
    simp only [hall, Threads.move_mutex, hk]
    exact h k
  cases a with
  | emit a =>
    obtain rfl := Option.some.inj hlocks
    exact hsame (P.emit_holds hcode k) rfl
  | lock l =>
    obtain ⟨hnot, hp⟩ := P.lock_holds hcode
    obtain ⟨m', hm', rfl⟩ := Option.map_eq_some_iff.mp hlocks
    obtain ⟨hfree, rfl⟩ := (h.lock hnot).mp hm'
    by_cases hk : k = l
    · subst hk
      refine Or.inr ⟨i, by simp, ?_⟩
      intro j
      by_cases hj : j = i
      · subst hj
        simp [hp]
      · simp [hj, h.not_holds_of_free hfree j]
    · exact hsame (by simp [hp, hk]) (Function.update_of_ne hk _ _)
  | unlock l =>
    obtain ⟨hheld, hp⟩ := P.unlock_holds hcode
    obtain ⟨m', hm', rfl⟩ := Option.map_eq_some_iff.mp hlocks
    obtain rfl := Option.some.inj ((h.unlock hheld).symm.trans hm')
    by_cases hk : k = l
    · subst hk
      refine Or.inl ⟨by simp, ?_⟩
      intro j
      by_cases hj : j = i
      · subst hj
        simp [hp]
      · rw [Threads.move_point_of_ne hj]
        exact fun hjk => hj (h.unique hjk hheld)
    · exact hsame (by simp [hp, hk]) (Function.update_of_ne hk _ _)

theorem Owned.of_reachable (h : P.Owned s) (hreach : P.system.Reachable s t) : P.Owned t :=
  Machine.Reachable.invariant (I := P.Owned) hreach h fun _ _ _ hs hstep => hs.step hstep

theorem Owned.exists_step (h : P.Owned s) {a : Act κ α} {m : μ} {p : θ}
    (hcode : P.Step s.memory (s.point i) a m p) (hwait : ∀ j, ¬ P.Waits s i j) :
    ∃ t, P.system.Step s (i, a) t := by
  cases a with
  | emit a => exact ⟨_, m, p, s.mutex, hcode, rfl, rfl⟩
  | unlock l =>
    refine ⟨_, m, p, Function.update s.mutex l .free, hcode, ?_, rfl⟩
    simp [mutexAfter, h.unlock (P.unlock_holds hcode).1]
  | lock l =>
    refine ⟨_, m, p, Function.update s.mutex l ⟨some (i, 0)⟩, hcode, ?_, rfl⟩
    have hfree : s.mutex l = .free := by
      apply h.free_of_not_holds
      intro j hj
      by_cases hji : j = i
      · subst hji
        exact (P.lock_holds hcode).1 hj
      · exact hwait j ⟨hji, l, ⟨m, p, hcode⟩, h.heldBy_iff.mpr hj⟩
    simp [mutexAfter, hfree]

/-- Where locks are taken upwards, some thread that is not done can go on. -/
theorem Owned.progress (h : P.Owned s) (done : θ → Prop) {level : κ → ℕ} {top : ℕ}
    (htop : ∀ l, level l ≤ top) (hup : P.Ascending level s)
    (hdone : ∀ p l, P.Holds p l → ¬ done p)
    (hcode : ∀ i, ¬ done (s.point i) → ∃ a m p, P.Step s.memory (s.point i) a m p)
    (hi : ¬ done (s.point i)) : ∃ j a t, ¬ done (s.point j) ∧ P.system.Step s (j, a) t := by
  -- Follow the waits upwards from a thread that holds `k`; the levels are bounded.
  have hfollow : ∀ n i k, P.Holds (s.point i) k → top - level k = n →
      ∃ j a t, ¬ done (s.point j) ∧ P.system.Step s (j, a) t := by
    intro n
    induction n using Nat.strong_induction_on with
    | _ n ih =>
      intro i k hk hn
      obtain ⟨a, m, p, hstep⟩ := hcode i (hdone _ k hk)
      by_cases hwait : ∃ j, P.Waits s i j
      · obtain ⟨j, -, l, hbefore, hheld⟩ := hwait
        have hlt := hup i l hbefore k hk
        have hle := htop l
        exact ih (top - level l) (by omega) j l (h.heldBy_iff.mp hheld) rfl
      · obtain ⟨t, ht⟩ := h.exists_step hstep (not_exists.mp hwait)
        exact ⟨i, a, t, hdone _ k hk, ht⟩
  obtain ⟨a, m, p, hstep⟩ := hcode i hi
  by_cases hwait : ∃ j, P.Waits s i j
  · obtain ⟨j, -, l, -, hheld⟩ := hwait
    exact hfollow _ j l (h.heldBy_iff.mp hheld) rfl
  · obtain ⟨t, ht⟩ := h.exists_step hstep (not_exists.mp hwait)
    exact ⟨i, a, t, hi, ht⟩

end Code

end Library
