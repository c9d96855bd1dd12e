import Mathlib.Data.List.Induction

/-!
# Programs over an effect signature

A program is a finite tree of calls to the operations of a signature `E`, each continued by its
result. `Prog.run` executes a program against a state, taking the answers of the environment
(failures, clock readings, fresh identifiers) from a list. `Prog.Holds` is the matching program
logic. A signature may be implemented by programs over a lower one (`Prog.interp`).
-/

namespace Kindling

/-- What an execution leaves behind: its result, the state, and the answers not used. -/
structure Outcome (α σ A : Type) where
  value : α
  state : σ
  rest : List A

/-- An effect signature whose operations can be executed. -/
class Effect (E : Type → Type 1) (A σ : outParam Type) where
  exec {β : Type} : E β → List A → σ → Outcome β σ A

/-- A signature each of whose operations uses exactly one answer. -/
class Atomic (E : Type → Type 1) (A σ : outParam Type) where
  step {β : Type} : E β → A → σ → β × σ

instance [Inhabited A] [Atomic E A σ] : Effect E A σ where
  exec op as s :=
    let r := Atomic.step op (as.headD default) s
    ⟨r.1, r.2, as.tail⟩

/-- A call that takes one answer. -/
def answering [Inhabited A] (as : List A) (step : A → β × σ) : Outcome β σ A :=
  ⟨(step (as.headD default)).1, (step (as.headD default)).2, as.tail⟩

/-- The answers that an operation used can be isolated, and followed by any others; an operation
without answers leaves none. -/
class Replayable (E : Type → Type 1) {A σ : Type} [Effect E A σ] : Prop where
  rest_nil {β : Type} (op : E β) (s : σ) : (Effect.exec op [] s).rest = []
  replay {β : Type} (op : E β) (as : List A) (s : σ) :
    ∃ pre, ∀ more, Effect.exec op (pre ++ more) s =
      ⟨(Effect.exec op as s).value, (Effect.exec op as s).state, more⟩

instance [Inhabited A] [Atomic E A σ] : Replayable E where
  rest_nil _ _ := rfl
  replay _ as _ := ⟨[as.headD default], fun _ => rfl⟩

inductive Prog (E : Type → Type 1) (α : Type) : Type 1
  | ret (a : α)
  | call {β : Type} (op : E β) (k : β → Prog E α)

namespace Prog
variable {E F : Type → Type 1} {A σ α β : Type} {p : Prog E α} {f : α → Prog E β}

protected def bind : Prog E α → (α → Prog E β) → Prog E β
  | ret a, f => f a
  | call op k, f => call op fun b => (k b).bind f

instance : Monad (Prog E) where
  pure := ret
  bind := Prog.bind

def lift (op : E α) : Prog E α := call op ret

/-- Replace every call by the program implementing it. -/
def interp (f : (β : Type) → E β → Prog F β) : Prog E α → Prog F α
  | ret a => ret a
  | call op k => (f _ op).bind fun b => (k b).interp f

@[simp] theorem pure_eq : (pure a : Prog E α) = ret a := rfl

@[simp] theorem bind_eq : p >>= f = p.bind f := rfl

@[simp] theorem ret_bind : (ret a).bind f = f a := rfl

@[simp] theorem call_bind (op : E γ) (k : γ → Prog E α) (f : α → Prog E β) :
    (call op k).bind f = call op fun b => (k b).bind f := rfl

@[simp] theorem lift_bind : (lift op).bind f = call op f := rfl

/-- Every call in the program satisfies `P`, whatever the results of the calls before it. -/
def Uses (P : (β : Type) → E β → Prop) : Prog E α → Prop
  | ret _ => True
  | call op k => P _ op ∧ ∀ b, (k b).Uses P

variable {P : (β : Type) → E β → Prop}

theorem Uses.mono (h : p.Uses P) (hPQ : ∀ β op, P β op → Q β op) : p.Uses Q := by
  induction p with
  | ret a => trivial
  | call op k ih => exact ⟨hPQ _ _ h.1, fun b => ih b (h.2 b)⟩

theorem Uses.of_forall (h : ∀ β op, P β op) (p : Prog E α) : p.Uses P := by
  induction p with
  | ret a => trivial
  | call op k ih => exact ⟨h _ op, ih⟩

theorem Uses.bind (h : p.Uses P) (hf : ∀ a, (f a).Uses P) : (p.bind f).Uses P := by
  induction p with
  | ret a => exact hf a
  | call op k ih => exact ⟨h.1, fun b => ih b (h.2 b)⟩

/-- A result that the program can end with. -/
def Returns (a : α) : Prog E α → Prop
  | ret b => b = a
  | call _ k => ∃ b, (k b).Returns a

theorem uses_bind : (p.bind f).Uses P ↔ p.Uses P ∧ ∀ a, p.Returns a → (f a).Uses P := by
  induction p with
  | ret b => simp [Uses, Returns]
  | call op k ih =>
    simp only [Prog.bind, Uses, Returns, ih, forall_and, and_assoc, forall_exists_index]
    exact and_congr_right fun _ => and_congr_right fun _ => forall_comm

theorem Uses.interp {f : (β : Type) → E β → Prog F β}
    (h : p.Uses P) (hf : ∀ β op, P β op → (f β op).Uses Q) :
    (p.interp f).Uses Q := by
  induction p with
  | ret a => trivial
  | call op k ih => exact (hf _ op h.1).bind fun b => ih b (h.2 b)

section run
variable [Effect E A σ]
open Effect

/-- Execute a program on the answers `as` from the state `s`. -/
def run : Prog E α → List A → σ → Outcome α σ A
  | ret a, as, s => ⟨a, s, as⟩
  | call op k, as, s =>
    let o := exec op as s
    (k o.value).run o.rest o.state

theorem run_bind (p : Prog E α) (f : α → Prog E β) (as : List A) (s : σ) :
    (p.bind f).run as s = (f (p.run as s).value).run (p.run as s).rest (p.run as s).state := by
  induction p generalizing as s with
  | ret a => rfl
  | call op k ih => exact ih _ _ _

theorem run_interp [Effect F A σ] (f : (β : Type) → F β → Prog E β)
    (hf : ∀ β op as s, (f β op).run as s = exec op as s)
    (p : Prog F α) (as : List A) (s : σ) : (p.interp f).run as s = p.run as s := by
  induction p generalizing as s with
  | ret a => rfl
  | call op k ih =>
    simp only [interp, run_bind, hf, ih]
    rfl

theorem run_rest_nil [Replayable E] (p : Prog E α) (s : σ) : (p.run [] s).rest = [] := by
  induction p generalizing s with
  | ret a => rfl
  | call op k ih =>
    simp only [run, Replayable.rest_nil]
    exact ih _ _

theorem run_replay [Replayable E] (p : Prog E α) (as : List A) (s : σ) :
    ∃ pre, ∀ more, p.run (pre ++ more) s = ⟨(p.run as s).value, (p.run as s).state, more⟩ := by
  induction p generalizing as s with
  | ret a => exact ⟨[], fun _ => rfl⟩
  | call op k ih =>
    obtain ⟨pre₁, h₁⟩ := Replayable.replay op as s
    obtain ⟨pre₂, h₂⟩ := ih (exec op as s).value (exec op as s).rest (exec op as s).state
    refine ⟨pre₁ ++ pre₂, fun more => ?_⟩
    simp [run, h₁, h₂]

/-- A condition on a call: the operation, the answers it may use, and the state before it. -/
def Guard (E : Type → Type 1) (A σ : Type) := (β : Type) → E β → List A → σ → Prop

/-- Every call that the execution makes meets the guard. -/
def Meets (G : Guard E A σ) : Prog E α → List A → σ → Prop
  | ret _, _, _ => True
  | call op k, as, s => G _ op as s ∧
    (k (exec op as s).value).Meets G (exec op as s).rest (exec op as s).state

instance decidableMeets {G : Guard E A σ} [∀ β (op : E β) as s, Decidable (G β op as s)] :
    (p : Prog E α) → (as : List A) → (s : σ) → Decidable (p.Meets G as s)
  | ret _, _, _ => .isTrue trivial
  | call op k, as, s =>
    have := decidableMeets (G := G) (k (exec op as s).value) (exec op as s).rest (exec op as s).state
    inferInstanceAs (Decidable (_ ∧ _))

/-- The states after the calls of an execution, in order. -/
def visits : Prog E α → List A → σ → List σ
  | ret _, _, _ => []
  | call op k, as, s => (exec op as s).state ::
    (k (exec op as s).value).visits (exec op as s).rest (exec op as s).state

theorem meets_bind (p : Prog E α) (f : α → Prog E β) (as : List A) (s : σ) :
    (p.bind f).Meets G as s ↔ p.Meets G as s ∧
      (f (p.run as s).value).Meets G (p.run as s).rest (p.run as s).state := by
  induction p generalizing as s with
  | ret a => simp [Meets, run]
  | call op k ih =>
    simp only [call_bind, Meets, ih, and_assoc]
    rfl

theorem meets_interp [Effect F A σ] (f : (β : Type) → E β → Prog F β)
    (hf : ∀ β op as s, (f β op).run as s = exec op as s)
    (p : Prog E α) (as : List A) (s : σ) :
    (p.interp f).Meets G as s ↔ p.Meets (fun β op as s => (f β op).Meets G as s) as s := by
  induction p generalizing as s with
  | ret a => exact .rfl
  | call op k ih =>
    simp only [interp, meets_bind, hf, ih]
    rfl

theorem Meets.mono (h : p.Meets G as s)
    (hG : ∀ β op as s, G β op as s → G' β op as s) : p.Meets G' as s := by
  induction p generalizing as s with
  | ret a => trivial
  | call op k ih => exact ⟨hG _ _ _ _ h.1, ih _ h.2⟩

theorem Meets.and_uses (h : p.Meets G as s) (hp : p.Uses P) :
    p.Meets (fun β op as s => P β op ∧ G β op as s) as s := by
  induction p generalizing as s with
  | ret a => trivial
  | call op k ih => exact ⟨⟨hp.1, h.1⟩, ih _ h.2 (hp.2 _)⟩

theorem meets_nil [Replayable E] (hG : ∀ β op s, G β op [] s) (p : Prog E α) (s : σ) :
    p.Meets G [] s := by
  induction p generalizing s with
  | ret a => trivial
  | call op k ih =>
    refine ⟨hG _ op s, ?_⟩
    rw [Replayable.rest_nil]
    exact ih _ _

/-! ## The program logic -/

/-- Every execution of the program from `s` whose calls meet `G` keeps `I` in each state it
passes through and ends in `Q`. -/
def Holds (G : Guard E A σ) (I : σ → Prop) : Prog E α → (α → σ → Prop) → σ → Prop
  | ret a, Q, s => Q a s
  | call op k, Q, s => ∀ as, G _ op as s → I (exec op as s).state ∧
    (k (exec op as s).value).Holds G I Q (exec op as s).state

variable {G : Guard E A σ} {I : σ → Prop}

theorem holds_ret : (ret a : Prog E α).Holds G I Q s ↔ Q a s := .rfl

theorem holds_call :
    (call op k).Holds G I Q s ↔ ∀ as, G _ op as s → I (exec op as s).state ∧
      (k (exec op as s).value).Holds G I Q (exec op as s).state := .rfl

theorem holds_bind (p : Prog E α) (f : α → Prog E β) (Q : β → σ → Prop) (s : σ) :
    (p.bind f).Holds G I Q s ↔ p.Holds G I (fun a s' => (f a).Holds G I Q s') s := by
  induction p generalizing s with
  | ret a => rfl
  | call op k ih => simp only [call_bind, holds_call, ih]

theorem Holds.mono (h : p.Holds G I Q s) (hQ : ∀ a s', Q a s' → R a s') : p.Holds G I R s := by
  induction p generalizing s with
  | ret a => exact hQ _ _ h
  | call op k ih => exact fun as hg => ⟨(h as hg).1, ih _ (h as hg).2⟩

theorem Holds.bind {s : σ} (h : p.Holds G I Q s) (hf : ∀ a s', Q a s' → (f a).Holds G I R s') :
    (p.bind f).Holds G I R s :=
  (holds_bind ..).mpr (h.mono hf)

/-- Two guards and invariants at once: the stronger guard carries the stronger invariant. -/
theorem Holds.guard_mono (h : p.Holds G I Q s)
    (hG : ∀ β op as s, G' β op as s → G β op as s) (hI : ∀ s, I s → I' s) :
    p.Holds G' I' Q s := by
  induction p generalizing s with
  | ret a => exact h
  | call op k ih =>
    intro as hg
    obtain ⟨hi, hk⟩ := h as (hG _ _ _ _ hg)
    exact ⟨hI _ hi, ih _ hk⟩

theorem Holds.and (h : p.Holds G I Q s) (h' : p.Holds G I R s) :
    p.Holds G I (fun a s' => Q a s' ∧ R a s') s := by
  induction p generalizing s with
  | ret a => exact ⟨h, h'⟩
  | call op k ih => exact fun as hg => ⟨(h as hg).1, ih _ (h as hg).2 (h' as hg).2⟩

theorem Holds.run (h : p.Holds G I Q s) (hm : p.Meets G as s) :
    Q (p.run as s).value (p.run as s).state ∧ ∀ s' ∈ p.visits as s, I s' := by
  induction p generalizing as s with
  | ret a => exact ⟨h, by simp [visits]⟩
  | call op k ih =>
    obtain ⟨hi, hk⟩ := h as hm.1
    obtain ⟨hq, hv⟩ := ih _ hk hm.2
    refine ⟨hq, fun s' hs' => ?_⟩
    rcases List.mem_cons.mp hs' with rfl | hs'
    · exact hi
    · exact hv s' hs'

/-- A guard no call can fail. -/
def unguarded : Guard E A σ := fun _ _ _ _ => True

instance : Decidable (unguarded β op as s) := .isTrue trivial

theorem meets_unguarded (p : Prog E α) (as : List A) (s : σ) : p.Meets unguarded as s := by
  induction p generalizing as s with
  | ret a => trivial
  | call op k ih => exact ⟨trivial, ih _ _ _⟩

theorem meets_answers {E : Type → Type 1} {A σ : Type} [Inhabited A] [Atomic E A σ] {P : A → Prop}
    (hdefault : P default) (p : Prog E α) {as : List A} (has : ∀ a ∈ as, P a) (s : σ) :
    p.Meets (fun _ _ as _ => P (as.headD default)) as s := by
  induction p generalizing as s with
  | ret a => trivial
  | call op k ih =>
    refine ⟨?_, ih _ (fun a ha => has a (List.mem_of_mem_tail ha)) _⟩
    cases as with
    | nil => exact hdefault
    | cons a as => exact has a List.mem_cons_self

theorem holds_of_call_invariant
    (hI : ∀ β op as s, G β op as s → I s → I (exec op as s).state) (p : Prog E α) (hs : I s)
    : p.Holds G I (fun _ s' => I s') s := by
  induction p generalizing s with
  | ret a => exact hs
  | call op k ih => exact fun as hg => ⟨hI _ _ _ _ hg hs, ih _ (hI _ _ _ _ hg hs)⟩

theorem Uses.holds (h : p.Uses P)
    (hI : ∀ β op, P β op → ∀ as s, I s → I (exec op as s).state) (hs : I s) :
    p.Holds G I (fun _ s' => I s') s := by
  induction p generalizing s with
  | ret a => exact hs
  | call op k ih =>
    intro as _
    have hi := hI _ op h.1 as s hs
    exact ⟨hi, ih _ (h.2 _) hi⟩

theorem Uses.run (h : p.Uses P)
    (hI : ∀ β op, P β op → ∀ as s, I s → I (exec op as s).state) (hs : I s) :
    I (p.run as s).state :=
  ((h.holds hI hs).run (meets_unguarded p as s)).1

/-- Every execution of the program from `s` makes only calls that meet `G`, and ends in `Q`. -/
def Complies (G : Guard E A σ) : Prog E α → (α → σ → Prop) → σ → Prop
  | ret a, Q, s => Q a s
  | call op k, Q, s => ∀ as, G _ op as s ∧
    (k (exec op as s).value).Complies G Q (exec op as s).state

theorem Complies.mono (h : p.Complies G Q s) (hQ : ∀ a s', Q a s' → R a s') : p.Complies G R s := by
  induction p generalizing s with
  | ret a => exact hQ _ _ h
  | call op k ih => exact fun as => ⟨(h as).1, ih _ (h as).2⟩

theorem Complies.bind {s : σ} (h : p.Complies G Q s) (hf : ∀ a s', Q a s' → (f a).Complies G R s') :
    (p.bind f).Complies G R s := by
  induction p generalizing s with
  | ret a => exact hf _ _ h
  | call op k ih => exact fun as => ⟨(h as).1, ih _ (h as).2⟩

theorem Complies.run (h : p.Complies G Q s) (as : List A) :
    p.Meets G as s ∧ Q (p.run as s).value (p.run as s).state := by
  induction p generalizing as s with
  | ret a => exact ⟨trivial, h⟩
  | call op k ih =>
    obtain ⟨hmeets, hq⟩ := ih _ (h as).2 (exec op as s).rest
    exact ⟨⟨(h as).1, hmeets⟩, hq⟩

theorem Uses.complies (h : p.Uses P)
    (hP : ∀ β op, P β op → ∀ as s, I s → G β op as s ∧ I (exec op as s).state) (hs : I s) :
    p.Complies G (fun _ s' => I s') s := by
  induction p generalizing s with
  | ret a => exact hs
  | call op k ih =>
    intro as
    obtain ⟨hg, hi⟩ := hP _ op h.1 as s hs
    exact ⟨hg, ih _ (h.2 _) hi⟩

/-! ## Requests, and executions that cannot be told apart -/

theorem interp_bind (f : (β : Type) → E β → Prog F β) (p : Prog E α) (g : α → Prog E β) :
    (p.bind g).interp f = (p.interp f).bind fun a => (g a).interp f := by
  induction p with
  | ret a => rfl
  | call op k ih =>
    simp only [call_bind, interp, ih]
    induction f _ op with
    | ret b => rfl
    | call op' k' ih' => simp only [call_bind, ih']

end run
end Prog

/-- A call as it is made, without its result. -/
structure Prog.Request (E : Type → Type 1) where
  {type : Type}
  op : E type

namespace Prog
variable {E F : Type → Type 1} {A σ α β : Type} [Effect E A σ]
open Effect

def requests : Prog E α → List A → σ → List (Request E)
  | ret _, _, _ => []
  | call op k, as, s => ⟨op⟩ :: (k (exec op as s).value).requests (exec op as s).rest (exec op as s).state

theorem requests_bind (p : Prog E α) (f : α → Prog E β) (as : List A) (s : σ) :
    (p.bind f).requests as s = p.requests as s ++
      (f (p.run as s).value).requests (p.run as s).rest (p.run as s).state := by
  induction p generalizing as s with
  | ret a => rfl
  | call op k ih => exact congrArg _ (ih _ _ _)

/-- A call of an execution, with whose execution it is, the answers it may use and the state before. -/
structure Moment (ι : Type) (E : Type → Type 1) (A σ : Type) extends Request E where
  owner : ι
  answers : List A
  before : σ

def Moment.after (m : Moment ι E A σ) : σ := (exec m.op m.answers m.before).state

/-- The calls that an execution makes, in order. -/
def moments (owner : ι) : Prog E α → List A → σ → List (Moment ι E A σ)
  | ret _, _, _ => []
  | call op k, as, s => { op, owner, answers := as, before := s } ::
    (k (exec op as s).value).moments owner (exec op as s).rest (exec op as s).state

/-- The calls follow one another, from one state to another. -/
def Connected : σ → List (Moment ι E A σ) → σ → Prop
  | s, [], s' => s = s'
  | s, m :: ms, s' => m.before = s ∧ Connected m.after ms s'

theorem connected_moments (owner : ι) (p : Prog E α) (as : List A) (s : σ) :
    Connected s (p.moments owner as s) (p.run as s).state := by
  induction p generalizing as s with
  | ret a => exact rfl
  | call op k ih => exact ⟨rfl, ih _ _ _⟩

theorem Connected.append {ms ms' : List (Moment ι E A σ)} (h : Connected s ms s₁)
    (h' : Connected s₁ ms' s₂) : Connected s (ms ++ ms') s₂ := by
  induction ms generalizing s with
  | nil => exact h.symm ▸ h'
  | cons m ms ih => exact ⟨h.1, ih h.2⟩

theorem Connected.before_eq {m m' : Moment ι E A σ} (h : Connected s (pre ++ m :: m' :: post) s') :
    m'.before = m.after := by
  induction pre generalizing s with
  | nil => exact h.2.1
  | cons _ pre ih => exact ih h.2

/-- What each earlier call carries on to the history with that call, holds before a call. -/
theorem Connected.invariant {I : List (Moment ι E A σ) → σ → Prop} {s s' : σ}
    {pre post : List (Moment ι E A σ)} {m : Moment ι E A σ} (h : Connected s (pre ++ m :: post) s')
    (hs : I [] s) (hstep : ∀ done, ∀ m' ∈ pre, I done m'.before → I (done ++ [m']) m'.after) :
    I pre m.before := by
  induction pre using List.reverseRecOn generalizing m post with
  | nil => exact h.1.symm ▸ hs
  | append_singleton pre m' ih =>
    rw [List.append_assoc] at h
    rw [h.before_eq]
    exact hstep pre m' (by simp) (ih h fun done m hm => hstep done m (List.mem_append_left _ hm))

/-- A call returns the same in two states, and leads to states that are alike again. -/
def Alike (R : σ → σ → Prop) (op : E β) (as : List A) (s s' : σ) : Prop :=
  (exec op as s).value = (exec op as s').value ∧ (exec op as s).rest = (exec op as s').rest ∧
    R (exec op as s).state (exec op as s').state

/-- Executions of one program from states that are alike cannot be told apart, if no call of the
first tells the states apart. -/
theorem Meets.same (hR : ∀ β op as s s', R s s' → G β op as s → Alike R op as s s')
    {p : Prog E α} (h : p.Meets G as s) (hs : R s s') :
    p.requests as s = p.requests as s' ∧ (p.run as s).value = (p.run as s').value ∧
      (p.run as s).rest = (p.run as s').rest ∧ R (p.run as s).state (p.run as s').state := by
  induction p generalizing as s s' with
  | ret a => exact ⟨rfl, rfl, rfl, hs⟩
  | call op k ih =>
    obtain ⟨hvalue, hrest, hstate⟩ := hR _ op as s s' hs h.1
    obtain ⟨hrequests, hrun⟩ := ih _ h.2 hstate
    simp only [requests, run]
    rw [hvalue, hrest] at hrequests hrun ⊢
    exact ⟨congrArg _ hrequests, hrun⟩

end Prog
end Kindling
