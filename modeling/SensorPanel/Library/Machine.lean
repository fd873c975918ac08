import Mathlib.Data.List.Basic
import Mathlib.Tactic

/-!
# Labelled machines, their finite runs and past-time history

A machine is a labelled step relation. Runs list their labels oldest first, so
that an induction over a run always exposes the last step. Guarded runs are
runs of the restricted machine; `Since` is the past-time operator with which a
flag kept by a machine is compared with the history that set it.
-/

namespace Library

/-- A labelled step relation; the start of a run is named where it is used. -/
structure Machine (σ ε : Type*) where
  Step : σ → ε → σ → Prop

namespace Machine

variable {σ ε : Type*} (M : Machine σ ε)

/-- `M.Run s es t`: performing the labels `es` in order leads from `s` to `t`. -/
inductive Run : σ → List ε → σ → Prop
  | nil (s : σ) : Run s [] s
  | snoc {s t u : σ} {es : List ε} {e : ε} : Run s es t → M.Step t e u → Run s (es ++ [e]) u

def Reachable (s t : σ) : Prop := ∃ es, M.Run s es t

/-- The same machine with only those steps that meet the guard. -/
def restrict (guard : σ → ε → Prop) : Machine σ ε :=
  ⟨fun s e t => guard s e ∧ M.Step s e t⟩

def ofFn (f : σ → ε → Option σ) : Machine σ ε := ⟨fun s e t => f s e = some t⟩

variable {M}

@[simp] theorem ofFn_step {f : σ → ε → Option σ} {s t : σ} {e : ε} :
    (ofFn f).Step s e t ↔ f s e = some t := Iff.rfl

theorem Run.single {s t : σ} {e : ε} (h : M.Step s e t) : M.Run s [e] t :=
  Run.snoc (Run.nil s) h

theorem Run.trans {s t u : σ} {es ds : List ε} (h : M.Run s es t) (k : M.Run t ds u) :
    M.Run s (es ++ ds) u := by
  induction k with
  | nil => simpa using h
  | snoc _ hstep ih =>
    rw [← List.append_assoc]
    exact Run.snoc ih hstep

theorem Reachable.refl (s : σ) : M.Reachable s s := ⟨[], Run.nil s⟩

theorem Reachable.step {s t u : σ} {e : ε} (h : M.Reachable s t) (k : M.Step t e u) :
    M.Reachable s u := by
  obtain ⟨es, hrun⟩ := h
  exact ⟨es ++ [e], hrun.snoc k⟩

theorem Reachable.trans {s t u : σ} (h : M.Reachable s t) (k : M.Reachable t u) :
    M.Reachable s u := by
  obtain ⟨es, hrun⟩ := h
  obtain ⟨ds, hrun'⟩ := k
  exact ⟨es ++ ds, hrun.trans hrun'⟩

@[simp] theorem run_nil_iff {s t : σ} : M.Run s [] t ↔ t = s := by
  constructor
  · intro h
    generalize hes : ([] : List ε) = es at h
    cases h with
    | nil => rfl
    | snoc _ _ => simp at hes
  · rintro rfl
    exact Run.nil _

theorem run_concat_iff {s u : σ} {es : List ε} {e : ε} :
    M.Run s (es ++ [e]) u ↔ ∃ t, M.Run s es t ∧ M.Step t e u := by
  constructor
  · intro h
    generalize hds : es ++ [e] = ds at h
    cases h with
    | nil => simp at hds
    | @snoc t u es' e' hrun hstep =>
      obtain ⟨rfl, he⟩ := List.append_inj' hds rfl
      obtain rfl : e = e' := by simpa using he
      exact ⟨_, hrun, hstep⟩
  · rintro ⟨t, hrun, hstep⟩
    exact hrun.snoc hstep

theorem run_ofFn_iff {f : σ → ε → Option σ} {s t : σ} {es : List ε} :
    (ofFn f).Run s es t ↔ es.foldlM f s = some t := by
  induction es using List.reverseRecOn generalizing t with
  | nil => simp [eq_comm]
  | append_singleton es e ih =>
    rw [run_concat_iff, List.foldlM_append]
    simp [ih, Option.bind_eq_some_iff]

/-- Runs of a function with the same labels end alike. -/
theorem run_ofFn_unique {f : σ → ε → Option σ} {s t u : σ} {es : List ε}
    (h : (ofFn f).Run s es t) (k : (ofFn f).Run s es u) : t = u :=
  Option.some.inj ((run_ofFn_iff.mp h).symm.trans (run_ofFn_iff.mp k))

theorem run_append_iff {s u : σ} {es ds : List ε} :
    M.Run s (es ++ ds) u ↔ ∃ t, M.Run s es t ∧ M.Run t ds u := by
  constructor
  · intro h
    induction ds using List.reverseRecOn generalizing u with
    | nil => exact ⟨u, by simpa using h, Run.nil u⟩
    | append_singleton ds d ih =>
      rw [← List.append_assoc, run_concat_iff] at h
      obtain ⟨v, hrun, hstep⟩ := h
      obtain ⟨t, hes, hds⟩ := ih hrun
      exact ⟨t, hes, hds.snoc hstep⟩
  · rintro ⟨t, hes, hds⟩
    exact hes.trans hds

theorem run_cons_iff {s u : σ} {es : List ε} {e : ε} :
    M.Run s (e :: es) u ↔ ∃ t, M.Step s e t ∧ M.Run t es u := by
  have hsingle : ∀ t, M.Run s [e] t ↔ M.Step s e t := by
    intro t
    rw [← List.nil_append [e], run_concat_iff]
    simp
  rw [← List.singleton_append, run_append_iff]
  simp [hsingle]

theorem Run.step_mid {s u : σ} {past later : List ε} {e : ε} (h : M.Run s (past ++ e :: later) u) :
    ∃ t v, M.Run s past t ∧ M.Step t e v ∧ M.Run v later u := by
  obtain ⟨t, hpast, hrest⟩ := run_append_iff.mp h
  obtain ⟨v, hstep, hlater⟩ := run_cons_iff.mp hrest
  exact ⟨t, v, hpast, hstep, hlater⟩

/-- What holds at the start and is kept by every step holds at the end of a run. -/
theorem Run.invariant {I : σ → Prop} {s t : σ} {es : List ε} (h : M.Run s es t) (h₀ : I s)
    (hstep : ∀ s e t, I s → M.Step s e t → I t) : I t := by
  induction h with
  | nil => exact h₀
  | snoc _ hs ih => exact hstep _ _ _ ih hs

theorem Reachable.invariant {I : σ → Prop} {s t : σ} (h : M.Reachable s t) (h₀ : I s)
    (hstep : ∀ s e t, I s → M.Step s e t → I t) : I t := by
  obtain ⟨es, hrun⟩ := h
  exact hrun.invariant h₀ hstep

/-- An invariant that also speaks about the labels performed so far. -/
theorem Run.history_invariant {I : List ε → σ → Prop} {s t : σ} {es : List ε} (h : M.Run s es t)
    (h₀ : I [] s) (hstep : ∀ es s e t, I es s → M.Step s e t → I (es ++ [e]) t) : I es t := by
  induction h with
  | nil => exact h₀
  | snoc _ hs ih => exact hstep _ _ _ _ ih hs

theorem Run.of_restrict {guard : σ → ε → Prop} {s t : σ} {es : List ε}
    (h : (M.restrict guard).Run s es t) : M.Run s es t := by
  induction h with
  | nil => exact Run.nil _
  | snoc _ hs ih => exact ih.snoc hs.2

/-- Where an invariant guarantees the next step, every label sequence is a run. -/
theorem exists_run_of_total {I : σ → Prop} (htotal : ∀ s e, I s → ∃ t, M.Step s e t ∧ I t)
    {s : σ} (h₀ : I s) (es : List ε) : ∃ t, M.Run s es t ∧ I t := by
  induction es using List.reverseRecOn with
  | nil => exact ⟨s, Run.nil s, h₀⟩
  | append_singleton es e ih =>
    obtain ⟨t, hrun, ht⟩ := ih
    obtain ⟨u, hstep, hu⟩ := htotal t e ht
    exact ⟨u, hrun.snoc hstep, hu⟩

/-- Where some step lowers the rank until the goal is met, some run meets it. -/
theorem exists_run_of_rank {I G : σ → Prop} {L : ε → Prop} (rank : σ → ℕ)
    (hstep : ∀ s, I s → G s ∨ ∃ e t, M.Step s e t ∧ L e ∧ I t ∧ rank t < rank s) {s : σ}
    (h₀ : I s) : ∃ es t, M.Run s es t ∧ G t ∧ ∀ e ∈ es, L e := by
  induction hrank : rank s using Nat.strong_induction_on generalizing s with
  | _ n ih =>
    rcases hstep s h₀ with hgoal | ⟨e, t, he, hlabel, ht, hlower⟩
    · exact ⟨[], s, Run.nil s, hgoal, by simp⟩
    · obtain ⟨es, u, hrun, hgoal, hlabels⟩ := ih (rank t) (hrank ▸ hlower) ht rfl
      refine ⟨e :: es, u, (Run.single he).trans hrun, hgoal, fun x hx => ?_⟩
      rcases List.mem_cons.mp hx with rfl | hx
      · exact hlabel
      · exact hlabels x hx

/-- The same machine, whose labels also show what its steps put out. -/
def observe {ο : Type*} (M : Machine σ ε) (out : σ → ε → ο) : Machine σ (ε × ο) :=
  ⟨fun s e t => M.Step s e.1 t ∧ e.2 = out s e.1⟩

theorem Run.observe {ο : Type*} {s t : σ} {es : List ε} (h : M.Run s es t) (out : σ → ε → ο) :
    ∃ os, (M.observe out).Run s os t ∧ os.map Prod.fst = es := by
  induction h with
  | nil => exact ⟨[], Run.nil _, rfl⟩
  | @snoc t u es e hrun hstep ih =>
    obtain ⟨os, hos, rfl⟩ := ih
    exact ⟨os ++ [(e, out t e)], hos.snoc ⟨hstep, rfl⟩, by simp⟩

theorem Run.mono {N : Machine σ ε} (hsteps : ∀ s e t, M.Step s e t → N.Step s e t) {s t : σ}
    {es : List ε} (h : M.Run s es t) : N.Run s es t := by
  induction h with
  | nil => exact Run.nil _
  | snoc _ hs ih => exact ih.snoc (hsteps _ _ _ hs)

/-- A run of the function that looks at the guard before each step. -/
theorem Run.of_guarded {f : σ → ε → Option σ} {guard : σ → ε → Prop}
    [∀ s e, Decidable (guard s e)] {s t : σ} {es : List ε}
    (h : es.foldlM (fun s e => if guard s e then f s e else none) s = some t) :
    ((ofFn f).restrict guard).Run s es t := by
  refine (run_ofFn_iff.mpr h).mono fun s e t hstep => ?_
  simp only [ofFn_step] at hstep
  split_ifs at hstep with hguard
  exact ⟨hguard, hstep⟩

theorem Run.of_observe {ο : Type*} {out : σ → ε → ο} {s t : σ} {os : List (ε × ο)}
    (h : (M.observe out).Run s os t) : M.Run s (os.map Prod.fst) t := by
  induction h with
  | nil => exact Run.nil _
  | snoc _ hs ih =>
    rw [List.map_append]
    exact ih.snoc hs.1

/-- A run seen through a map of states: some of its labels are steps of the other
machine, and the others leave the state as it is there. -/
theorem Run.project {τ δ : Type*} {N : Machine τ δ} {f : σ → τ} {g : ε → Option δ}
    (hvisible : ∀ s e t d, M.Step s e t → g e = some d → N.Step (f s) d (f t))
    (hhidden : ∀ s e t, M.Step s e t → g e = none → f t = f s) {s t : σ} {es : List ε}
    (h : M.Run s es t) : N.Run (f s) (es.filterMap g) (f t) := by
  induction h with
  | nil => exact Run.nil _
  | @snoc t u es e hrun hstep ih =>
    rw [List.filterMap_append]
    cases hlabel : g e with
    | some d =>
      rw [List.filterMap_cons_some hlabel, List.filterMap_nil]
      exact ih.snoc (hvisible _ _ _ _ hstep hlabel)
    | none =>
      rw [List.filterMap_cons_none hlabel, List.filterMap_nil, List.append_nil,
        hhidden _ _ _ hstep hlabel]
      exact ih

end Machine

section History

variable {α : Type*}

/-- Some event started the condition, and no later event stopped it. The start
may depend on the history before it. -/
def Since (start : List α → α → Prop) (stop : α → Prop) (history : List α) : Prop :=
  ∃ past e later, history = past ++ e :: later ∧ start past e ∧ ∀ x ∈ later, ¬ stop x

variable {start : List α → α → Prop} {stop : α → Prop}

theorem not_since_nil : ¬ Since start stop [] := by
  rintro ⟨past, e, later, h, _⟩
  simp at h

/-- The recursion by which a flag can follow a history event by event. -/
theorem since_concat (history : List α) (e : α) :
    Since start stop (history ++ [e]) ↔
      start history e ∨ (Since start stop history ∧ ¬ stop e) := by
  constructor
  · rintro ⟨past, d, later, h, hstart, hstop⟩
    rcases List.eq_nil_or_concat later with rfl | ⟨rest, last, rfl⟩
    · obtain ⟨rfl, hd⟩ := List.append_inj' h rfl
      obtain rfl : e = d := by simpa using hd
      exact Or.inl hstart
    · rw [List.concat_eq_append, ← List.cons_append, ← List.append_assoc] at h
      obtain ⟨rfl, hlast⟩ := List.append_inj' h rfl
      obtain rfl : e = last := by simpa using hlast
      exact Or.inr ⟨⟨past, d, rest, rfl, hstart, fun x hx => hstop x (by simp [hx])⟩,
        hstop e (by simp)⟩
  · rintro (hstart | ⟨⟨past, d, later, rfl, hstart, hstop⟩, he⟩)
    · exact ⟨history, e, [], rfl, hstart, by simp⟩
    · refine ⟨past, d, later ++ [e], by simp, hstart, ?_⟩
      intro x hx
      rcases List.mem_append.mp hx with hx | hx
      · exact hstop x hx
      · obtain rfl : x = e := by simpa using hx
        exact he

end History

end Library
