import SensorPanel.Library.Threads

/-!
# Sections under a mutex, one after another

Code whose shared data is guarded by one of its mutexes. While a section is open,
the data stands for what its thread leaves when it is run to the end: the rest of
its code is owed. So read, a step of any thread is a step of an abstract machine or
none, and in every interleaving the abstract steps come one after another. Sections
may take further mutexes.
-/

namespace Library

variable {μ θ κ α σ δ : Type*}

/-- Sections of a code as steps of an abstract machine. `Owes m p v`: a thread at `p`,
run on `m` to the end of its section, leaves a memory that stands for `v`. -/
structure Sections (P : Code μ θ κ α) (N : Machine σ δ) where
  lock : κ
  effect : θ → Act κ α → Option δ
  Stands : μ → σ → Prop
  Owes : μ → θ → σ → Prop
  owes_iff : ∀ {m p v}, ¬ P.Holds p lock → (Owes m p v ↔ Stands m v)
  alone : ∀ {m p a m' p' v}, P.Step m p a m' p' → Owes m p v →
    ∃ w, N.Run v (effect p a).toList w ∧ Owes m' p' w
  beside : ∀ {m p a m' p' v}, P.Step m p a m' p' → ¬ P.Holds p lock → a ≠ .lock lock →
    N.Run v (effect p a).toList v ∧ ∀ q, Owes m q v → Owes m' q v

namespace Sections

variable {P : Code μ θ κ α} {N : Machine σ δ} (S : Sections P N) {ι : Type*}

def effectAt (s : Threads μ θ κ ι) (e : ι × Act κ α) : Option δ := S.effect (s.point e.1) e.2

/-- What the memory stands for, with the open section run to its end. -/
structure Follows (s : Threads μ θ κ ι) (v : σ) : Prop where
  owned : P.Owned s
  owes : ∀ i, (∀ j, j ≠ i → ¬ P.Holds (s.point j) S.lock) → S.Owes s.memory (s.point i) v

variable {S} {s t : Threads μ θ κ ι} {e : ι × Act κ α} {v w : σ}

theorem Follows.of_idle (howned : P.Owned s) (hidle : ∀ i, ¬ P.Holds (s.point i) S.lock)
    (hstands : S.Stands s.memory v) : S.Follows s v where
  owned := howned
  owes i _ := (S.owes_iff (hidle i)).mpr hstands

theorem Follows.exists_owes [Nonempty ι] (h : S.Follows s v) :
    ∃ i, S.Owes s.memory (s.point i) v := by
  by_cases hopen : ∃ i, P.Holds (s.point i) S.lock
  · obtain ⟨i, hi⟩ := hopen
    exact ⟨i, h.owes i fun j hj hj' => hj (h.owned.unique hj' hi)⟩
  · obtain ⟨i⟩ := ‹Nonempty ι›
    exact ⟨i, h.owes i fun j _ hj => hopen ⟨j, hj⟩⟩

theorem Follows.stands [Nonempty ι] (h : S.Follows s v) (hfree : s.mutex S.lock = .free) :
    S.Stands s.memory v := by
  obtain ⟨i, hi⟩ := h.exists_owes
  exact (S.owes_iff (h.owned.not_holds_of_free hfree i)).mp hi

variable [DecidableEq ι] [DecidableEq κ]

/-- Another thread has a section open: the step falls beside it. -/
theorem Follows.step_beside (h : S.Follows s v) {k : ι} (hk : P.Holds (s.point k) S.lock)
    (hik : e.1 ≠ k) (hstep : P.SystemStep s e t) :
    N.Run v (S.effectAt s e).toList v ∧ S.Follows t v := by
  have howned := h.owned.step hstep
  obtain ⟨i, a⟩ := e
  obtain ⟨m, p, mutex, hcode, hlocks, rfl⟩ := hstep
  dsimp only at hcode hlocks hik
  have hi : ¬ P.Holds (s.point i) S.lock := fun hi => hik (h.owned.unique hi hk)
  have ha : a ≠ .lock S.lock := by
    rintro rfl
    obtain ⟨mutex', hlock, -⟩ := Option.map_eq_some_iff.mp hlocks
    have hfree := ((h.owned.lock hi).mp hlock).1
    exact h.owned.not_holds_of_free hfree k hk
  obtain ⟨hrun, hothers⟩ := S.beside hcode hi ha
  refine ⟨hrun, howned, ?_⟩
  intro j hj
  have hkeep : P.Holds ((s.move i m mutex p).point k) S.lock := by
    rwa [Threads.move_point_of_ne hik.symm]
  obtain rfl : j = k := by
    by_contra hjk
    exact hj k (Ne.symm hjk) hkeep
  rw [Threads.move_point_of_ne hik.symm, Threads.move_memory]
  apply hothers
  exact h.owes j fun k hkj hk' => hkj (h.owned.unique hk' hk)

/-- Nobody else has a section open: the step is the thread's own. -/
theorem Follows.step_alone (h : S.Follows s v)
    (hothers : ∀ j, j ≠ e.1 → ¬ P.Holds (s.point j) S.lock) (hstep : P.SystemStep s e t) :
    ∃ w, N.Run v (S.effectAt s e).toList w ∧ S.Follows t w := by
  have howned := h.owned.step hstep
  obtain ⟨i, a⟩ := e
  obtain ⟨m, p, mutex, hcode, -, rfl⟩ := hstep
  dsimp only at hcode hothers
  obtain ⟨w, hrun, howes⟩ := S.alone hcode (h.owes i hothers)
  refine ⟨w, hrun, howned, ?_⟩
  intro j hj
  by_cases hji : j = i
  · subst hji
    simpa using howes
  · have hp : ¬ P.Holds p S.lock := by simpa using hj i (Ne.symm hji)
    rw [Threads.move_point_of_ne hji, Threads.move_memory]
    exact (S.owes_iff (hothers j hji)).mpr ((S.owes_iff hp).mp howes)

theorem Follows.step (h : S.Follows s v) (hstep : P.SystemStep s e t) :
    ∃ w, N.Run v (S.effectAt s e).toList w ∧ S.Follows t w := by
  by_cases hothers : ∀ j, j ≠ e.1 → ¬ P.Holds (s.point j) S.lock
  · exact h.step_alone hothers hstep
  · push Not at hothers
    obtain ⟨k, hk, hheld⟩ := hothers
    exact ⟨v, h.step_beside hheld hk.symm hstep⟩

end Sections

end Library
