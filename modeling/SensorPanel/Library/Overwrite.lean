import Mathlib.Data.List.Perm.Basic
import Mathlib.Tactic

/-!
# Writes in order, the last one winning

A list of steps, each of which may write a value at an index. What stands at an
index afterwards is the last value written there, so steps that do not write it
can be left out, and where no two steps share an index their order is free.
-/

namespace Library

variable {α ι κ : Type*} {β : ι → Type*}

/-- The values after the steps `as`: at each index the last one written there. -/
def overwrite (writes : α → (i : ι) → Option (β i)) (start : (i : ι) → β i) (as : List α)
    (i : ι) : β i :=
  ((as.filterMap fun a => writes a i).getLast?).getD (start i)

variable {writes : α → (i : ι) → Option (β i)} {start : (i : ι) → β i} {as bs : List α} {i : ι}

@[simp] theorem overwrite_nil : overwrite writes start [] i = start i := rfl

theorem overwrite_concat (a : α) : overwrite writes start (as ++ [a]) i =
    (writes a i).getD (overwrite writes start as i) := by
  cases h : writes a i <;> simp [overwrite, List.filterMap_append, h]

theorem overwrite_append_of_none (h : ∀ b ∈ bs, writes b i = none) :
    overwrite writes start (as ++ bs) i = overwrite writes start as i := by
  rw [overwrite, List.filterMap_append, List.filterMap_eq_nil_iff.mpr h, List.append_nil]
  rfl

/-- Steps that do not write an index do not matter to it. -/
theorem overwrite_filter {p : α → Bool} (h : ∀ a, p a = false → writes a i = none) :
    overwrite writes start (as.filter p) i = overwrite writes start as i := by
  induction as using List.reverseRecOn with
  | nil => rfl
  | append_singleton as a ih =>
    rw [List.filter_append, overwrite_concat, ← ih]
    cases hp : p a with
    | false => simp [hp, h a hp]
    | true => simp [hp, overwrite_concat]

/-- Where steps that write the same index share a key and no two steps do, the
order of the steps is free. -/
theorem overwrite_perm {key : α → κ}
    (hkey : ∀ a b, (writes a i).isSome → (writes b i).isSome → key a = key b)
    (hdistinct : (as.map key).Nodup) (h : as.Perm bs) :
    overwrite writes start as i = overwrite writes start bs i := by
  have hperm := h.filterMap fun a => writes a i
  -- At most one of the steps writes the index.
  have hone : (as.filterMap fun a => writes a i).Pairwise fun _ _ => False := by
    rw [List.pairwise_filterMap]
    apply (List.pairwise_map.mp hdistinct).imp
    intro a b hne v hv w hw
    exact hne (hkey a b (by simp [hv]) (by simp [hw]))
  have hsame : (as.filterMap fun a => writes a i) = bs.filterMap fun a => writes a i := by
    generalize (as.filterMap fun a => writes a i) = vs at hperm hone
    match vs with
    | [] => exact hperm.nil_eq
    | [v] => exact (List.singleton_perm.mp hperm)
    | v :: w :: _ => exact absurd ((List.pairwise_cons.mp hone).1 w (by simp)) id
  rw [overwrite, overwrite, hsame]

end Library
