import Mathlib.Logic.Relation
import Mathlib.Tactic

/-!
# Mutexes, semaphores and waiting cycles

A mutex is exclusive and may be taken again by its owner, who must release it
as often. A semaphore saturates at its limit. A waiting cycle is a closed path
in the relation "waits for a lock the other one holds".
-/

namespace Library

/-- The owner of a mutex and how many times it has locked it, less one. -/
structure Mutex (ι : Type*) where
  owner : Option (ι × ℕ)
  deriving DecidableEq

namespace Mutex

variable {ι : Type*}

def free : Mutex ι := ⟨none⟩

def HeldBy (m : Mutex ι) (i : ι) : Prop := ∃ k, m.owner = some (i, k)

@[simp] theorem not_heldBy_free (i : ι) : ¬ (free : Mutex ι).HeldBy i := by
  rintro ⟨k, hk⟩
  simp [free] at hk

@[simp] theorem heldBy_some {i j : ι} {k : ℕ} : (⟨some (j, k)⟩ : Mutex ι).HeldBy i ↔ j = i := by
  simp [HeldBy]

theorem HeldBy.unique {m : Mutex ι} {i j : ι} (h : m.HeldBy i) (k : m.HeldBy j) : i = j := by
  obtain ⟨a, ha⟩ := h
  obtain ⟨b, hb⟩ := k
  rw [ha] at hb
  exact (Prod.ext_iff.mp (Option.some.inj hb)).1

variable [DecidableEq ι]

/-- `k_mutex_lock`: there is no result while another thread owns the mutex. -/
def lock (m : Mutex ι) (i : ι) : Option (Mutex ι) :=
  match m.owner with
  | none => some ⟨some (i, 0)⟩
  | some (j, k) => if j = i then some ⟨some (i, k + 1)⟩ else none

/-- `k_mutex_unlock`: only the owner may release. -/
def unlock (m : Mutex ι) (i : ι) : Option (Mutex ι) :=
  match m.owner with
  | none => none
  | some (j, k) =>
    if j = i then
      match k with
      | 0 => some free
      | k + 1 => some ⟨some (i, k)⟩
    else none

@[simp] theorem lock_free (i : ι) : (free : Mutex ι).lock i = some ⟨some (i, 0)⟩ := rfl

@[simp] theorem unlock_once (i : ι) : (⟨some (i, 0)⟩ : Mutex ι).unlock i = some free := by
  simp [unlock]

end Mutex

/-- A counting semaphore that saturates at its limit, as `K_SEM_DEFINE` makes it. -/
structure Semaphore (limit : ℕ) where
  count : ℕ
  le_limit : count ≤ limit
  deriving DecidableEq, Repr

namespace Semaphore

variable {limit : ℕ}

def empty : Semaphore limit := ⟨0, Nat.zero_le _⟩

/-- `k_sem_give`: a token beyond the limit is dropped. -/
def give (s : Semaphore limit) : Semaphore limit := ⟨min (s.count + 1) limit, Nat.min_le_right _ _⟩

def reset (_s : Semaphore limit) : Semaphore limit := empty

/-- A `k_sem_take` that finds a token; there is no result where it would wait. -/
def take (s : Semaphore limit) : Option (Semaphore limit) :=
  if 0 < s.count then some ⟨s.count - 1, (Nat.sub_le _ _).trans s.le_limit⟩ else none

@[simp] theorem empty_count : (empty : Semaphore limit).count = 0 := rfl

@[simp] theorem reset_count (s : Semaphore limit) : s.reset.count = 0 := rfl

theorem give_count_le (s : Semaphore limit) : s.give.count ≤ s.count + 1 := Nat.min_le_left _ _

theorem give_count_one (s : Semaphore 1) : s.give.count = 1 := by
  simp [give]

theorem take_isSome_iff {s : Semaphore limit} : s.take.isSome ↔ 0 < s.count := by
  unfold take
  split_ifs with h <;> simp [h]

/-- A token given to an empty semaphore is the one that is taken. -/
theorem take_give {s : Semaphore 1} (h : s.count = 0) : s.give.take = some s := by
  obtain ⟨count, hle⟩ := s
  obtain rfl : count = 0 := h
  rfl

end Semaphore

section Waiting

variable {ι : Type*} {waits : ι → ι → Prop}

/-- Some thread that, following who waits for whom, waits for itself. -/
def WaitCycle (waits : ι → ι → Prop) : Prop := ∃ i, Relation.TransGen waits i i

theorem waitCycle_of_pair {i j : ι} (h : waits i j) (k : waits j i) : WaitCycle waits :=
  ⟨i, Relation.TransGen.tail (Relation.TransGen.single h) k⟩

end Waiting

end Library
