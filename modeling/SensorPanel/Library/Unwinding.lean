import SensorPanel.Library.Machine

/-!
# Runs that look alike

Two runs are compared step by step. The labels may differ where one relation
allows it and the states where another does; an observer sees only what an output
tells of each step. If alike labels lead from alike states to alike states and
tell the same on the way, then so do whole runs, and what the relations leave
open stays hidden from the observer.
-/

namespace Library

namespace Machine

variable {σ ε ο : Type*}

/-- Steps with alike labels from alike states go together, and tell the same. -/
structure Unwinds (M : Machine σ ε) (out : σ → ε → ο) (R : σ → σ → Prop) (L : ε → ε → Prop) :
    Prop where
  step : ∀ s s' e e' t, R s s' → L e e' → M.Step s e t → ∃ t', M.Step s' e' t' ∧ R t t'
  tells : ∀ s s' e e' t, R s s' → L e e' → M.Step s e t → out s' e' = out s e

variable {M : Machine σ ε} {out : σ → ε → ο} {R : σ → σ → Prop} {L : ε → ε → Prop}

/-- The run with the other labels exists, tells the same and ends alike. -/
theorem Unwinds.run (h : M.Unwinds out R L) {s s' t : σ} (hs : R s s') {os : List (ε × ο)}
    (hrun : (M.observe out).Run s os t) {ds : List ε}
    (hds : List.Forall₂ L (os.map Prod.fst) ds) :
    ∃ os' t', (M.observe out).Run s' os' t' ∧ os'.map Prod.fst = ds ∧
      os'.map Prod.snd = os.map Prod.snd ∧ R t t' := by
  induction os generalizing s s' ds with
  | nil =>
    obtain rfl := List.forall₂_nil_left_iff.mp hds
    obtain rfl := run_nil_iff.mp hrun
    exact ⟨[], s', Run.nil s', rfl, rfl, hs⟩
  | cons o os ih =>
    obtain ⟨d, later, hd, hlater, rfl⟩ := List.forall₂_cons_left_iff.mp hds
    obtain ⟨u, ⟨hstep, hout⟩, hrest⟩ := run_cons_iff.mp hrun
    obtain ⟨u', hstep', hu⟩ := h.step s s' o.1 d u hs hd hstep
    obtain ⟨os', t', hos, hlabels, htold, ht⟩ := ih hu hrest hlater
    refine ⟨(d, out s' d) :: os', t', run_cons_iff.mpr ⟨u', ⟨hstep', rfl⟩, hos⟩,
      by rw [List.map_cons, hlabels], ?_, ht⟩
    rw [List.map_cons, List.map_cons, htold, hout, h.tells s s' o.1 d u hs hd hstep]

end Machine

end Library
