import Mathlib.Algebra.Order.Ring.Int

/-!
# Machines

A machine takes a state and an event to the next state, or refuses the event. An invariant of the
steps is an invariant of the runs, and a machine whose steps are matched by those of another has its
runs matched by runs of the other.
-/

namespace Kindling.Machine

variable {σ τ ε δ : Type} {step : σ → ε → Option σ} {s s' : σ}

/-- The state after a list of events, if none of them is refused. -/
def run (step : σ → ε → Option σ) : σ → List ε → Option σ
  | s, [] => some s
  | s, e :: es => (step s e).bind (run step · es)

theorem run_cons_eq_some :
    run step s (e :: es) = some s' ↔ ∃ t, step s e = some t ∧ run step t es = some s' :=
  Option.bind_eq_some_iff

theorem run_append_eq_some :
    run step s (es ++ es') = some s' ↔ ∃ t, run step s es = some t ∧ run step t es' = some s' := by
  induction es generalizing s with
  | nil => simp [run]
  | cons e es ih =>
    simp only [List.cons_append, run_cons_eq_some, ih]
    constructor
    · rintro ⟨u, hu, t, ht, hs'⟩
      exact ⟨t, ⟨u, hu, ht⟩, hs'⟩
    · rintro ⟨t, ⟨u, hu, ht⟩, hs'⟩
      exact ⟨u, hu, t, ht, hs'⟩

/-- What every step on an event in `P` keeps, every run on events in `P` keeps. -/
theorem run_invariant {I : σ → Prop} {P : ε → Prop}
    (hI : ∀ s e s', P e → step s e = some s' → I s → I s') {es : List ε} (hP : ∀ e ∈ es, P e)
    (hrun : run step s es = some s') (hs : I s) : I s' := by
  induction es generalizing s with
  | nil =>
    cases hrun
    exact hs
  | cons e es ih =>
    obtain ⟨t, ht, hrest⟩ := run_cons_eq_some.mp hrun
    rw [List.forall_mem_cons] at hP
    exact ih hP.2 hrest (hI s e t hP.1 ht hs)

/-- If each step from a state in `I` changes the view of the state by at most one step of another
machine, on an event related to its own, then a run changes the view by a run on related events. -/
theorem run_simulates {I : σ → Prop} {v : σ → τ} {step' : τ → δ → Option τ}
    {acts : ε → δ → Prop} (hI : ∀ s e s', step s e = some s' → I s → I s')
    (hview : ∀ s e s', I s → step s e = some s' → v s' = v s ∨
      ∃ d, acts e d ∧ step' (v s) d = some (v s'))
    {es : List ε} (hrun : run step s es = some s') (hs : I s) :
    ∃ ds, run step' (v s) ds = some (v s') ∧ ∀ d ∈ ds, ∃ e ∈ es, acts e d := by
  induction es generalizing s with
  | nil =>
    cases hrun
    exact ⟨[], rfl, by simp⟩
  | cons e es ih =>
    obtain ⟨t, ht, hrest⟩ := run_cons_eq_some.mp hrun
    obtain ⟨ds, hds, hacts⟩ := ih hrest (hI s e t ht hs)
    rcases hview s e t hs ht with hsame | ⟨d, hd, hstep⟩
    · refine ⟨ds, hsame ▸ hds, fun d hd => ?_⟩
      obtain ⟨e', he', ha⟩ := hacts d hd
      exact ⟨e', .tail _ he', ha⟩
    · refine ⟨d :: ds, run_cons_eq_some.mpr ⟨_, hstep, hds⟩, fun d' hd' => ?_⟩
      rcases List.mem_cons.mp hd' with rfl | hd'
      · exact ⟨e, .head _, hd⟩
      · obtain ⟨e', he', ha⟩ := hacts d' hd'
        exact ⟨e', .tail _ he', ha⟩

end Kindling.Machine
