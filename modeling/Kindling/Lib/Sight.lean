import Kindling.Lib.Typestate

/-!
# Programs that look before they write

A program reads a row, finds that its status is not yet at its end, and later writes the row on the
strength of what it has read. Programs that do so never write a row that they have seen at its end;
whether the row still is what they have seen is a matter of the interleaving.
-/

namespace Kindling

/-- A row and its status, as a program has last read or written it. -/
abbrev Sight (κ St : Type) := Option (κ × St)

/-- What the calls of a signature have to do with the status of rows: the row, if any, whose status
must not be at its end for the call, and what the call tells about a row. -/
structure Watch (E : Type → Type 1) (κ St : Type) where
  ended : St → Bool
  relies {β : Type} : E β → Option κ
  tells {β : Type} : E β → β → Sight κ St

namespace Watch
variable {E : Type → Type 1} {κ St ε α β : Type} {W : Watch E κ St}
  {possible : {β : Type} → Sight κ St → E β → β → Prop} {m : Sight κ St} {k : κ}

def Live (W : Watch E κ St) (k : κ) (m : Sight κ St) : Prop :=
  ∃ st, m = some (k, st) ∧ W.ended st = false

/-- Rows are looked at before the calls that rely on them. -/
def typestate (W : Watch E κ St) (possible : {β : Type} → Sight κ St → E β → β → Prop) :
    Typestate E (Sight κ St) where
  start := none
  allows m op := ∀ k ∈ W.relies op, W.Live k m
  possible := possible
  next m op v := (W.tells op v).or m

/-- A program that relies on nothing may do anything. -/
theorem admits_of_uses (h : p.Uses fun _ op => W.relies op = none) (m : Sight κ St) :
    (W.typestate possible).Admits p (fun _ _ => True) m := by
  refine .of_uses (h.mono fun _ op hop m k hk => ?_) m
  rw [hop] at hk
  cases hk

/-- A call that relies on a row does not find it at its end, if it is as the program has seen it. -/
theorem ended_of_allows (hallows : (W.typestate possible).allows m op) (hk : k ∈ W.relies op)
    (hm : m = some (k, st)) : W.ended st = false := by
  obtain ⟨st', hm', hst'⟩ := hallows k hk
  obtain ⟨-, rfl⟩ := Prod.mk.inj (Option.some.inj (hm.symm.trans hm'))
  exact hst'

end Watch
end Kindling
