import Kindling.Lib.Prog
import Mathlib.Logic.Relation

/-!
# Interleaved programs

Programs over one signature run side by side on a shared state. A step is one call of one of them,
or the start of another program. An invariant of the calls is an invariant of every interleaving,
whatever the programs are; a program that runs alone is one of the interleavings.
-/

namespace Kindling

/-- The programs that are running, with what is left of each, and the state they share. -/
structure Pool (E : Type → Type 1) (σ : Type) where
  threads : List ((α : Type) × Prog E α)
  state : σ

namespace Pool
variable {E : Type → Type 1} {A σ : Type} [Effect E A σ] {G : Prog.Guard E A σ}

inductive Step (G : Prog.Guard E A σ) : Pool E σ → Pool E σ → Prop
  | call (before after : List ((α : Type) × Prog E α)) {α β : Type} (op : E β) (k : β → Prog E α)
      (as : List A) (s : σ) (guard : G β op as s) :
      Step G ⟨before ++ ⟨α, .call op k⟩ :: after, s⟩
        ⟨before ++ ⟨α, k (Effect.exec op as s).value⟩ :: after, (Effect.exec op as s).state⟩
  | spawn (threads : List ((α : Type) × Prog E α)) (s : σ) {α : Type} (p : Prog E α) :
      Step G ⟨threads, s⟩ ⟨⟨α, p⟩ :: threads, s⟩

abbrev Run (G : Prog.Guard E A σ) : Pool E σ → Pool E σ → Prop := Relation.ReflTransGen (Step G)

theorem Run.invariant {I : σ → Prop} {c c' : Pool E σ}
    (hI : ∀ β op as s, G β op as s → I s → I (Effect.exec op as s).state)
    (hrun : Run G c c') (hc : I c.state) : I c'.state := by
  induction hrun with
  | refl => exact hc
  | tail _ hstep ih =>
    cases hstep with
    | call before after op k as s guard => exact hI _ op as s guard ih
    | spawn threads s p => exact ih

theorem Run.alone {α : Type} (p : Prog E α) (as : List A) (hm : p.Meets G as s) :
    Run G ⟨[⟨α, p⟩], s⟩ ⟨[⟨α, .ret (p.run as s).value⟩], (p.run as s).state⟩ := by
  induction p generalizing as s with
  | ret a => exact .refl
  | call op k ih => exact .head (.call [] [] op k as s hm.1) (ih _ _ hm.2)

end Pool
end Kindling
