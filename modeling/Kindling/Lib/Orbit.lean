import Mathlib.Order.WellFoundedSet

/-!
# One-way decisions

A decision rule maps the current level to the next one. It is one-way when a rise ends at a level the
rule keeps and a fall is never followed by a rise: then the levels it visits from any start never turn,
and they come to rest as soon as they stay among finitely many.
-/

namespace Kindling

/-- What one decision does: a rise is over in one step, and a fall is followed by no rise. -/
structure OneWay {α : Type*} [LinearOrder α] (f : α → α) : Prop where
  rise : ∀ c, c < f c → f (f c) = f c
  fall : ∀ c, f c < c → f (f c) ≤ f c

namespace OneWay

variable {α : Type*} [LinearOrder α] {f : α → α} (h : OneWay f) {x : α}
include h

theorem iterate_of_rise (hx : x < f x) (k : ℕ) : f^[k + 1] x = f x := by
  induction k with
  | zero => rfl
  | succ k ih =>
    rw [Function.iterate_succ_apply', ih]
    exact h.rise x hx

theorem iterate_of_fall (hx : f x ≤ x) (k : ℕ) : f^[k + 1] x ≤ f^[k] x := by
  induction k with
  | zero => exact hx
  | succ k ih =>
    rw [Function.iterate_succ_apply'] at ih
    rw [Function.iterate_succ_apply', Function.iterate_succ_apply']
    rcases ih.lt_or_eq with hlt | heq
    · exact h.fall _ hlt
    · rw [heq]
      exact heq.le

theorem not_turns (i j : ℕ) : ¬(f^[i] x < f^[i + 1] x ∧ f^[j + 1] x < f^[j] x) := by
  rintro ⟨hup, hdown⟩
  rcases le_or_gt (f x) x with hfall | hrise
  · exact absurd hup (h.iterate_of_fall hfall i).not_gt
  · cases j with
    | zero => exact absurd hdown hrise.le.not_gt
    | succ j =>
      rw [h.iterate_of_rise hrise, h.iterate_of_rise hrise] at hdown
      exact hdown.false

theorem settles (hfin : (Set.range fun k => f^[k] x).Finite) :
    ∃ k, ∀ j, k ≤ j → f^[j] x = f^[k] x := by
  rcases le_or_gt (f x) x with hfall | hrise
  · -- the levels only fall, so they rest at the least one
    have hanti : Antitone fun k => f^[k] x := antitone_nat_of_succ_le (h.iterate_of_fall hfall)
    obtain ⟨k, hk⟩ := hfin.isWF.min_mem (Set.range_nonempty _)
    refine ⟨k, fun j hj => (hanti hj).antisymm ?_⟩
    have hmin := hfin.isWF.not_lt_min (Set.range_nonempty _) (Set.mem_range_self j)
    rw [← hk] at hmin
    exact not_lt.mp hmin
  · refine ⟨1, fun j hj => ?_⟩
    obtain ⟨k, rfl⟩ := Nat.exists_eq_add_of_le' hj
    exact h.iterate_of_rise hrise k

end OneWay

end Kindling
