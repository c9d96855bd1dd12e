import Kindling.Lib.Fallible
import Mathlib.Logic.Relation

/-!
# Typestates of interleaved programs

Programs run side by side on a shared state, each of them one call at a time, and each remembers the
calls it has made. A typestate says which calls a program may make, given what it has learnt from the
calls before. An invariant that ties what the programs know to the shared state is then an invariant
of every interleaving.
-/

namespace Kindling

/-- A call that has returned. -/
structure Call (E : Type → Type 1) where
  {type : Type}
  op : E type
  value : type

/-- What a program knows at the start, the calls it may make given what it knows, the values it
reckons with, and what it knows after a call. -/
structure Typestate (E : Type → Type 1) (μ : Type) where
  start : μ
  allows {β : Type} : μ → E β → Prop
  possible {β : Type} : μ → E β → β → Prop
  next {β : Type} : μ → E β → β → μ

namespace Typestate
variable {E : Type → Type 1} {μ ε α β : Type} (P : Typestate E μ)

/-- What a program knows after the calls in a log, of which the last comes first. -/
def after (log : List (Call E)) : μ := log.foldr (fun c m => P.next m c.op c.value) P.start

@[simp] theorem after_nil : P.after [] = P.start := rfl

@[simp] theorem after_cons : P.after (c :: log) = P.next (P.after log) c.op c.value := rfl

/-- The program makes only calls that the typestate allows, and ends in `Q`. -/
def Admits : Prog E α → (α → μ → Prop) → μ → Prop
  | .ret a, Q, m => Q a m
  | .call op k, Q, m => P.allows m op ∧ ∀ v, P.possible m op v → Admits (k v) Q (P.next m op v)

variable {P} {m : μ} {p : Prog E α}

theorem Admits.mono (h : P.Admits p Q m) (hQ : ∀ a m', Q a m' → R a m') : P.Admits p R m := by
  induction p generalizing m with
  | ret a => exact hQ _ _ h
  | call op k ih => exact ⟨h.1, fun v hv => ih v (h.2 v hv)⟩

theorem Admits.bind (h : P.Admits p Q m) (hf : ∀ a m', Q a m' → P.Admits (f a) R m') :
    P.Admits (p.bind f) R m := by
  induction p generalizing m with
  | ret a => exact hf _ _ h
  | call op k ih => exact ⟨h.1, fun v hv => ih v (h.2 v hv)⟩

theorem admits_bind {f : α → Prog E β} :
    P.Admits (p.bind f) Q m ↔ P.Admits p (fun a m' => P.Admits (f a) Q m') m := by
  induction p generalizing m with
  | ret a => rfl
  | call op k ih =>
    exact and_congr_right fun _ => forall_congr' fun v => imp_congr_right fun _ => ih v

/-- A program all of whose calls are allowed while `I` holds of what it knows, and keep `I`. -/
theorem Admits.keeping {I : μ → Prop} (h : p.Uses fun _ op => ∀ m, I m →
    P.allows m op ∧ ∀ v, P.possible m op v → I (P.next m op v)) (hm : I m) :
    P.Admits p (fun _ m' => I m') m := by
  induction p generalizing m with
  | ret a => exact hm
  | call op k ih =>
    obtain ⟨hallows, hnext⟩ := h.1 m hm
    exact ⟨hallows, fun v hv => ih v (h.2 v) (hnext v hv)⟩

theorem Admits.of_uses (h : p.Uses fun _ op => ∀ m, P.allows m op) (m : μ) :
    P.Admits p (fun _ _ => True) m :=
  .keeping (h.mono fun _ _ hop m _ => ⟨hop m, fun _ _ => trivial⟩) trivial

/-- The calls of a program that reckons with every value. -/
theorem Admits.uses {R : (β : Type) → E β → Prop} (hP : ∀ β m (op : E β) v, P.possible m op v)
    (hR : ∀ β m op, P.allows m op → R β op) (h : P.Admits p Q m) : p.Uses R := by
  induction p generalizing m with
  | ret a => trivial
  | call op k ih => exact ⟨hR _ _ _ h.1, fun v => ih v (h.2 v (hP _ _ _ v))⟩

/-- The typestate for the calls that a function maps to calls of another signature. -/
@[simps] def comap {F : Type → Type 1} (f : (β : Type) → F β → E β) (P : Typestate E μ) :
    Typestate F μ where
  start := P.start
  allows m op := P.allows m (f _ op)
  possible m op v := P.possible m (f _ op) v
  next m op v := P.next m (f _ op) v

/-- Programs over a coarser signature, whose calls are programs themselves: what is known of the
whole is tied by `R` to what is known at the level below. -/
theorem Admits.refine {P' : Typestate F ν} {f : (β : Type) → F β → Prog E β} {R : ν → μ → Prop}
    (hf : ∀ β op n m, R n m → P'.allows n op →
      P.Admits (f β op) (fun v m' => P'.possible n op v ∧ R (P'.next n op v) m') m)
    {p : Prog F α} {Q : α → ν → Prop} {n : ν} (h : P'.Admits p Q n) (hR : R n m) :
    P.Admits (p.interp f) (fun a m' => ∃ n', R n' m' ∧ Q a n') m := by
  induction p generalizing n m with
  | ret a => exact ⟨n, hR, h⟩
  | call op k ih =>
    refine (hf _ op n m hR h.1).bind fun v m' hv => ?_
    exact ih v (h.2 v hv.1) hv.2

theorem Admits.interp {F : Type → Type 1} {f : (β : Type) → F β → E β} {p : Prog F α}
    (h : (P.comap f).Admits p Q m) :
    P.Admits (p.interp fun β op => .lift (f β op)) Q m := by
  induction p generalizing m with
  | ret a => exact h
  | call op k ih => exact ⟨h.1, fun v hv => ih v (h.2 v hv)⟩

/-- The same typestate, with an account of the calls that has no say in what is allowed. -/
def observing (P : Typestate E μ) {ν : Type} (start : ν) (f : {β : Type} → ν → E β → β → ν) :
    Typestate E (μ × ν) where
  start := (P.start, start)
  allows m op := P.allows m.1 op
  possible m op v := P.possible m.1 op v
  next m op v := (P.next m.1 op v, f m.2 op v)

theorem Admits.observing {ν : Type} {start : ν} {f : {β : Type} → ν → E β → β → ν}
    (h : P.Admits p Q m) (n : ν) :
    (P.observing start f).Admits p (fun a m' => Q a m'.1) (m, n) := by
  induction p generalizing m n with
  | ret a => exact h
  | call op k ih => exact ⟨h.1, fun v hv => ih v (h.2 v hv) _⟩

theorem after_observing {start : ν} {f : {β : Type} → ν → E β → β → ν}
    (log : List (Call E)) : ((P.observing start f).after log).1 = P.after log := by
  induction log with
  | nil => rfl
  | cons c log ih =>
    rw [after_cons, after_cons, ← ih]
    rfl

/-! ## Programs that can fail -/

section fallible

variable (P) in
/-- `Admits` for a program that can fail. -/
def Follows (p : Fallible ε E α) (Q : Except ε α → μ → Prop) (m : μ) : Prop := P.Admits p Q m

variable {p : Fallible ε E α} {Q : Except ε α → μ → Prop}

theorem Follows.mono (h : P.Follows p Q m) (hQ : ∀ r m', Q r m' → R r m') : P.Follows p R m :=
  Admits.mono h hQ

theorem Follows.any (h : P.Follows p Q m) : P.Follows p (fun _ _ => True) m :=
  h.mono fun _ _ _ => trivial

theorem Follows.pure (h : Q (.ok a) m) : P.Follows (Pure.pure a : Fallible ε E α) Q m := h

theorem Follows.throw (h : Q (.error e) m) :
    P.Follows (MonadExcept.throw e : Fallible ε E α) Q m := h

theorem Follows.ofResult (h : Q r m) : P.Follows (.ofResult r : Fallible ε E α) Q m := h

theorem Follows.ofCall (hop : P.allows m op)
    (h : ∀ r, P.possible m op r → Q r (P.next m op r)) : P.Follows (.ofCall op) Q m :=
  ⟨hop, h⟩

theorem Follows.call (hop : P.allows m op) : P.Follows (.ofCall op) (fun _ _ => True) m :=
  .ofCall hop fun _ _ => trivial

theorem Follows.ofTotal (hop : P.allows m op)
    (h : ∀ v, P.possible m op v → Q (.ok v) (P.next m op v)) :
    P.Follows (.ofTotal op : Fallible ε E α) Q m := ⟨hop, h⟩

theorem Follows.ofTotal_bind (hop : P.allows m op)
    (h : ∀ v, P.possible m op v → P.Follows (f v) R (P.next m op v)) :
    P.Follows (.ofTotal op >>= f) R m := ⟨hop, h⟩

theorem Follows.bind (h : P.Follows p Q m) (hok : ∀ a m', Q (.ok a) m' → P.Follows (f a) R m')
    (herr : ∀ e m', Q (.error e) m' → R (.error e) m') : P.Follows (p >>= f) R m := by
  refine Admits.bind h fun r m' hr => ?_
  cases r with
  | ok a => exact hok a m' hr
  | error e => exact herr e m' hr

theorem Follows.andThen (h : P.Follows p Q m)
    (hok : ∀ a m', Q (.ok a) m' → P.Follows (f a) (fun _ _ => True) m') :
    P.Follows (p >>= f) (fun _ _ => True) m := h.bind hok fun _ _ _ => trivial

theorem Follows.attempt_bind (h : P.Follows p Q m) (hf : ∀ r m', Q r m' → P.Follows (f r) R m') :
    P.Follows (p.attempt >>= f) R m := by
  have hattempt : P.Follows p.attempt (fun r m' => ∃ a, r = .ok a ∧ Q a m') m :=
    Admits.bind h fun r _ hr => ⟨r, rfl, hr⟩
  refine hattempt.bind (fun r m' ⟨a, hr, hQ⟩ => ?_) fun _ _ ⟨_, hr, _⟩ => nomatch hr
  cases hr
  exact hf _ m' hQ

theorem Follows.mapError {R : Except δ α → μ → Prop} (h : P.Follows p Q m)
    (hok : ∀ a m', Q (.ok a) m' → R (.ok a) m')
    (herr : ∀ e m', Q (.error e) m' → R (.error (g e)) m') : P.Follows (p.mapError g) R m := by
  refine Admits.bind h fun r m' hr => ?_
  cases r with
  | ok a => exact hok a m' hr
  | error e => exact herr e m' hr

theorem Follows.wrap (h : P.Follows p Q m) (hok : ∀ a m', Q (.ok a) m' → R (.ok a) m')
    (herr : ∀ e m', Q (.error e) m' → R (.error (g e)) m') : P.Follows (p.wrap g) R m :=
  h.mapError hok herr

theorem Follows.wrapped (h : P.Follows p Q m) : P.Follows (p.wrap g) (fun _ _ => True) m :=
  h.wrap (fun _ _ _ => trivial) fun _ _ _ => trivial

section yields
variable {Q : α → μ → Prop} {R : μ → Prop}

theorem Follows.ofCall_yields {op : E (Except ε α)} (hop : P.allows m op)
    (hok : ∀ a, P.possible m op (.ok a) → Q a (P.next m op (.ok a)))
    (herr : ∀ e, P.possible m op (.error e) → R (P.next m op (.error e))) :
    P.Follows (.ofCall op) (Fallible.Yields Q R) m := by
  refine .ofCall hop fun r hr => ?_
  cases r with
  | ok a => exact hok a hr
  | error e => exact herr e hr

theorem Follows.bind_yields (h : P.Follows p (Fallible.Yields Q R) m)
    (hok : ∀ a m', Q a m' → P.Follows (f a) S m') (herr : ∀ e m', R m' → S (.error e) m') :
    P.Follows (p >>= f) S m := h.bind hok herr

theorem Follows.yields_andThen (h : P.Follows p (Fallible.Yields Q R) m)
    (hok : ∀ a m', Q a m' → P.Follows (f a) (fun _ _ => True) m') :
    P.Follows (p >>= f) (fun _ _ => True) m := h.andThen hok

theorem Follows.andThen_yields {Q' : β → μ → Prop} (h : P.Follows p (Fallible.Yields Q R) m)
    (hok : ∀ a m', Q a m' → P.Follows (f a) (Fallible.Yields Q' fun _ => True) m') :
    P.Follows (p >>= f) (Fallible.Yields Q' fun _ => True) m :=
  h.bind_yields hok fun _ _ _ => trivial

theorem Follows.wrap_yields (h : P.Follows p (Fallible.Yields Q R) m) :
    P.Follows (p.wrap g) (Fallible.Yields Q R) m := h.wrap (fun _ _ => id) fun _ _ => id

end yields

/-- A loop keeps what each of its rounds keeps, also when a round fails. -/
theorem Follows.forEach {I : μ → Prop} {xs : List β} {f : β → Fallible ε E Unit}
    (h : ∀ x ∈ xs, ∀ m, I m → P.Follows (f x) (fun _ m' => I m') m) (hm : I m) :
    P.Follows (.forEach xs f) (fun _ m' => I m') m := by
  induction xs generalizing m with
  | nil => exact .pure hm
  | cons x xs ih =>
    refine .bind (h x List.mem_cons_self m hm) (fun _ m' hm' => ?_) fun _ _ hm' => hm'
    exact ih (fun y hy => h y (List.mem_cons_of_mem x hy)) hm'

theorem Follows.quietly {R : μ → Prop} (h : P.Follows p (fun _ m' => R m') m) :
    P.Admits p.quietly (fun _ m' => R m') m := .bind h fun _ _ hm => hm

theorem Follows.deferring (h : P.Follows p Q m)
    (hcleanup : ∀ r m', Q r m' → P.Follows cleanup (fun _ m'' => R r m'') m') :
    P.Follows (.deferring cleanup p) R m :=
  h.attempt_bind fun r m' hr => (hcleanup r m' hr).attempt_bind fun _ _ hR => .ofResult hR

theorem Follows.hoist {F : Type → Type 1} {f : (β : Type) → F β → E β} {p : Fallible ε F α}
    (h : (P.comap f).Follows p Q m) : P.Follows (.hoist f p) Q m := .interp h

theorem Follows.of_uses (h : Fallible.Uses (fun _ op => P.allows m op ∧
    ∀ v, P.possible m op v → P.next m op v = m) p) : P.Follows p (fun _ m' => m' = m) m :=
  .keeping (.mono h fun _ _ hop _ hm => by rwa [hm]) rfl

theorem Follows.mapError_yields {Q : α → μ → Prop} {R : μ → Prop}
    (h : P.Follows p (Fallible.Yields Q R) m) :
    P.Follows (p.mapError g) (Fallible.Yields Q R) m := h.mapError (fun _ _ => id) fun _ _ => id

/-! The weakest precondition of each construct, by which `simp` goes through a program. -/

variable (P) in
/-- What has to hold after a program for the rest to follow. -/
def seq (f : α → Fallible ε E β) (Q : Except ε β → μ → Prop) : Except ε α → μ → Prop
  | .ok a, m => P.Follows (f a) Q m
  | .error e, m => Q (.error e) m

@[simp] theorem seq_ok : P.seq f Q (.ok a) m ↔ P.Follows (f a) Q m := .rfl

@[simp] theorem seq_error : P.seq f Q (.error e) m ↔ Q (.error e) m := .rfl

@[simp] theorem follows_bind {p : Fallible ε E β} :
    P.Follows (p >>= f) Q m ↔ P.Follows p (P.seq f Q) m := by
  refine admits_bind.trans (iff_of_eq (congrArg (P.Admits p · m) (funext₂ fun r m' => ?_)))
  cases r <;> rfl

@[simp] theorem follows_pure : P.Follows (Pure.pure a : Fallible ε E α) Q m ↔ Q (.ok a) m := .rfl

@[simp] theorem follows_throw : P.Follows (throw e : Fallible ε E α) Q m ↔ Q (.error e) m := .rfl

@[simp] theorem follows_ofResult : P.Follows (.ofResult r : Fallible ε E α) Q m ↔ Q r m := .rfl

@[simp] theorem follows_ofCall :
    P.Follows (.ofCall op) Q m ↔ P.allows m op ∧
      (∀ e, P.possible m op (.error e) → Q (.error e) (P.next m op (.error e))) ∧
      ∀ a, P.possible m op (.ok a) → Q (.ok a) (P.next m op (.ok a)) :=
  and_congr_right fun _ => Fallible.forall_except

@[simp] theorem follows_ofTotal :
    P.Follows (.ofTotal op : Fallible ε E α) Q m ↔
      P.allows m op ∧ ∀ a, P.possible m op a → Q (.ok a) (P.next m op a) := .rfl

@[simp] theorem follows_attempt {Q : Except ε (Except ε α) → μ → Prop} :
    P.Follows p.attempt Q m ↔ P.Follows p (fun r => Q (.ok r)) m := admits_bind

@[simp] theorem follows_wrap :
    P.Follows (p.wrap f) Q m ↔ P.Follows p (fun r => Q (r.mapError f)) m := admits_bind

@[simp] theorem follows_mapError {Q : Except ε' α → μ → Prop} :
    P.Follows (p.mapError g) Q m ↔ P.Follows p (fun r => Q (r.mapError g)) m := admits_bind

@[simp] theorem follows_ite [Decidable c] {q : Fallible ε E α} :
    P.Follows (if c then p else q) Q m ↔ (c → P.Follows p Q m) ∧ (¬c → P.Follows q Q m) := by
  split <;> simp_all

end fallible
end Typestate

/-- The calls that an execution makes, in order. -/
def Prog.calls [Effect E A σ] : Prog E α → List A → σ → List (Call E)
  | ret _, _, _ => []
  | call op k, as, s => ⟨op, (Effect.exec op as s).value⟩ ::
    (k (Effect.exec op as s).value).calls (Effect.exec op as s).rest (Effect.exec op as s).state

def Fallible.calls [Effect E A σ] (p : Fallible ε E α) (as : List A) (s : σ) : List (Call E) :=
  Prog.calls p as s

namespace Typestate
variable {E : Type → Type 1} {A σ μ α : Type} [Effect E A σ] {P : Typestate E μ} {p : Prog E α}
  {Q : α → μ → Prop} {m : μ} {s : σ} {G : Prog.Guard E A σ}

def Obeys (P : Typestate E μ) : μ → List (Call E) → Prop
  | _, [] => True
  | m, c :: cs => P.allows m c.op ∧ P.Obeys (P.next m c.op c.value) cs

/-- The calls of a program that the typestate admits are allowed, if the values they return in the
states of an invariant are possible. -/
theorem Admits.obeys {I : σ → Prop} (hI : ∀ β (op : E β) as s m, I s →
    P.possible m op (Effect.exec op as s).value ∧ I (Effect.exec op as s).state)
    (h : P.Admits p Q m) (as : List A) (hs : I s) :
    P.Obeys m (p.calls as s) := by
  induction p generalizing m as s with
  | ret a => trivial
  | call op k ih =>
    obtain ⟨hpossible, hs'⟩ := hI _ op as s m hs
    exact ⟨h.1, ih _ (h.2 _ hpossible) _ hs'⟩

/-- `I`, which ties what a program knows to the state, is kept by a program that runs by itself, if
the calls that are allowed and meet the guard keep it. -/
theorem Admits.run {I : μ → σ → Prop} (hI : ∀ β op as s m, I m s → P.allows m op → G β op as s →
      P.possible m op (Effect.exec op as s).value ∧
      I (P.next m op (Effect.exec op as s).value) (Effect.exec op as s).state)
    (h : P.Admits p Q m) {as : List A}
    (hs : I m s) (hmeets : p.Meets G as s) :
    ∃ m', I m' (p.run as s).state ∧ Q (p.run as s).value m' := by
  induction p generalizing m as s with
  | ret a => exact ⟨m, hs, h⟩
  | call op k ih =>
    obtain ⟨hpossible, hs'⟩ := hI _ op as s m hs h.1 hmeets.1
    exact ih _ (h.2 _ hpossible) hs' hmeets.2

/-- A program that runs by itself meets a guard, if `I` ties what it knows to the state and the calls
that are allowed then meet the guard. -/
theorem Admits.meets {I : μ → σ → Prop} (hI : ∀ β op as s m, I m s → P.allows m op → G β op as s ∧
      P.possible m op (Effect.exec op as s).value ∧
      I (P.next m op (Effect.exec op as s).value) (Effect.exec op as s).state)
    (h : P.Admits p Q m) (as : List A)
    (hs : I m s) : p.Meets G as s := by
  induction p generalizing m as s with
  | ret a => trivial
  | call op k ih =>
    obtain ⟨hg, hpossible, hs'⟩ := hI _ op as s m hs h.1
    exact ⟨hg, ih _ (h.2 _ hpossible) _ hs'⟩

end Typestate

/-! ## Interleavings -/

/-- Programs with an index, what is left of each, the calls each has made, and the state they
share. -/
structure Team (ι : Type) (E : Type → Type 1) (ρ σ : Type) where
  prog : ι → Prog E ρ
  log : ι → List (Call E)
  state : σ

namespace Team
variable {ι ρ A σ μ : Type} {E : Type → Type 1} [DecidableEq ι] [Effect E A σ]
  {starts : ι → Prog E ρ → Prop} {crash : ι → σ → σ} {G : ι → List (Call E) → Prog.Guard E A σ}

/-- One of the programs makes a call that meets the guard `G`, which may depend on the calls it has
made before; or an index whose program has ended starts another one; or a program is lost, together
with the part of the state that is lost with it. -/
inductive Step (starts : ι → Prog E ρ → Prop) (crash : ι → σ → σ)
    (G : ι → List (Call E) → Prog.Guard E A σ) (c : Team ι E ρ σ) : Team ι E ρ σ → Prop
  | call (i : ι) {β : Type} (op : E β) (k : β → Prog E ρ) (as : List A) (hprog : c.prog i = .call op k)
      (guard : G i (c.log i) β op as c.state) :
    Step starts crash G c
      { prog := Function.update c.prog i (k (Effect.exec op as c.state).value)
        log := Function.update c.log i (⟨op, (Effect.exec op as c.state).value⟩ :: c.log i)
        state := (Effect.exec op as c.state).state }
  | start (i : ι) (r : ρ) (p : Prog E ρ) (hprog : c.prog i = .ret r) (hp : starts i p) :
    Step starts crash G c
      { prog := Function.update c.prog i p
        log := Function.update c.log i []
        state := c.state }
  | crash (i : ι) (r : ρ) :
    Step starts crash G c
      { prog := Function.update c.prog i (.ret r)
        log := Function.update c.log i []
        state := crash i c.state }

abbrev Run (starts : ι → Prog E ρ → Prop) (crash : ι → σ → σ)
    (G : ι → List (Call E) → Prog.Guard E A σ) : Team ι E ρ σ → Team ι E ρ σ → Prop :=
  Relation.ReflTransGen (Step starts crash G)

def knows (P : ι → Typestate E μ) (c : Team ι E ρ σ) (i : ι) : μ := (P i).after (c.log i)

/-- Each program follows its typestate from here on, and ends in `Q`. -/
def Follow (P : ι → Typestate E μ) (Q : ι → μ → Prop) (c : Team ι E ρ σ) : Prop :=
  ∀ i, (P i).Admits (c.prog i) (fun _ m => Q i m) (c.knows P i)

section invariant
variable {P : ι → Typestate E μ} {Q : ι → μ → Prop} {I : (ι → μ) → σ → Prop} {c c' : Team ι E ρ σ}

theorem knows_update (P : ι → Typestate E μ) (prog : ι → Prog E ρ) (s : σ)
    (log : ι → List (Call E)) (i : ι) (l : List (Call E)) :
    knows P (⟨prog, Function.update log i l, s⟩ : Team ι E ρ σ) =
      Function.update (fun j => (P j).after (log j)) i ((P i).after l) := by
  funext j
  simp only [knows, Function.update_apply]
  split
  · next h => rw [h]
  · rfl

theorem follow_update {prog : ι → Prog E ρ} {log : ι → List (Call E)} {s s' : σ} {i : ι}
    {p : Prog E ρ} {l : List (Call E)} (h : Follow P Q ⟨prog, log, s⟩)
    (hi : (P i).Admits p (fun _ m => Q i m) ((P i).after l)) :
    Follow P Q ⟨Function.update prog i p, Function.update log i l, s'⟩ := by
  intro j
  rw [knows_update]
  by_cases hj : j = i
  · subst hj
    simpa using hi
  · have := h j
    simpa [knows, Function.update_of_ne hj] using this

/-- The program of the index has ended. -/
def AtRest (c : Team ι E ρ σ) (i : ι) : Prop := ∃ r, c.prog i = .ret r

/-- Of the programs with an index in `S`, one runs at a time. -/
def Apart (S : ι → Prop) (c : Team ι E ρ σ) : Prop :=
  ∀ i j, S i → S j → i ≠ j → c.AtRest i ∨ c.AtRest j

/-- Rules for an invariant of what the programs know and the state they share, where the programs with an
index in `S` run one at a time: the calls that the typestates allow keep it and return values that the
typestates reckon with, and so do the start of a program by an index at rest, and a crash. -/
structure KeepsApart (S : ι → Prop) (starts : ι → Prog E ρ → Prop) (crash : ι → σ → σ)
    (G : ι → List (Call E) → Prog.Guard E A σ) (P : ι → Typestate E μ) (Q : ι → μ → Prop)
    (I : (ι → μ) → σ → Prop) : Prop where
  starts : ∀ i p, starts i p → (P i).Admits p (fun _ m => Q i m) (P i).start
  rest : ∀ i, Q i (P i).start
  call : ∀ (M : ι → μ) (i : ι) (log : List (Call E)) (s : σ) {β : Type} (op : E β) (as : List A),
    M i = (P i).after log → (P i).allows (M i) op → G i log β op as s →
    (∀ j, S i → S j → i ≠ j → Q j (M j)) → I M s →
    (P i).possible (M i) op (Effect.exec op as s).value ∧
      I (Function.update M i ((P i).next (M i) op (Effect.exec op as s).value))
        (Effect.exec op as s).state
  start : ∀ (M : ι → μ) (i : ι) (s : σ), Q i (M i) → I M s → I (Function.update M i (P i).start) s
  crash : ∀ (M : ι → μ) (i : ι) (s : σ), I M s → I (Function.update M i (P i).start) (crash i s)

theorem KeepsApart.step (h : KeepsApart S starts crash G P Q I) (hapart : c.Apart S)
    (hfollow : Follow P Q c) (hI : I (c.knows P) c.state) (hstep : Step starts crash G c c') :
    Follow P Q c' ∧ I (c'.knows P) c'.state := by
  cases hstep with
  | call i op k as hprog guard =>
    have hi := hfollow i
    rw [hprog] at hi
    have hothers : ∀ j, S i → S j → i ≠ j → Q j (c.knows P j) := by
      intro j hSi hSj hij
      rcases hapart i j hSi hSj hij with ⟨r, hr⟩ | ⟨r, hr⟩
      · rw [hprog] at hr
        cases hr
      · have hj := hfollow j
        rw [hr] at hj
        exact hj
    obtain ⟨hpossible, hI'⟩ :=
      h.call (c.knows P) i (c.log i) c.state op as rfl hi.1 guard hothers hI
    refine ⟨follow_update hfollow (hi.2 _ hpossible), ?_⟩
    rw [knows_update]
    exact hI'
  | start i r p hprog hp =>
    have hi := hfollow i
    rw [hprog] at hi
    refine ⟨follow_update hfollow (h.starts i p hp), ?_⟩
    rw [knows_update]
    exact h.start (c.knows P) i c.state hi hI
  | crash i r =>
    refine ⟨follow_update hfollow (h.rest i), ?_⟩
    rw [knows_update]
    exact h.crash (c.knows P) i c.state hI

/-- The rules for programs that all run side by side. -/
structure Keeps (starts : ι → Prog E ρ → Prop) (crash : ι → σ → σ)
    (G : ι → List (Call E) → Prog.Guard E A σ) (P : ι → Typestate E μ) (Q : ι → μ → Prop)
    (I : (ι → μ) → σ → Prop) : Prop where
  starts : ∀ i p, starts i p → (P i).Admits p (fun _ m => Q i m) (P i).start
  rest : ∀ i, Q i (P i).start
  call : ∀ (M : ι → μ) (i : ι) (log : List (Call E)) (s : σ) {β : Type} (op : E β) (as : List A),
    M i = (P i).after log → (P i).allows (M i) op → G i log β op as s → I M s →
    (P i).possible (M i) op (Effect.exec op as s).value ∧
      I (Function.update M i ((P i).next (M i) op (Effect.exec op as s).value))
        (Effect.exec op as s).state
  start : ∀ (M : ι → μ) (i : ι) (s : σ), Q i (M i) → I M s → I (Function.update M i (P i).start) s
  crash : ∀ (M : ι → μ) (i : ι) (s : σ), I M s → I (Function.update M i (P i).start) (crash i s)

theorem Keeps.apart (h : Keeps starts crash G P Q I) :
    KeepsApart (fun _ => False) starts crash G P Q I where
  starts := h.starts
  rest := h.rest
  call M i log s _ op as hM hallows hguard _ hI := h.call M i log s op as hM hallows hguard hI
  start := h.start
  crash := h.crash

theorem Keeps.step (h : Keeps starts crash G P Q I) (hfollow : Follow P Q c)
    (hI : I (c.knows P) c.state) (hstep : Step starts crash G c c') :
    Follow P Q c' ∧ I (c'.knows P) c'.state :=
  h.apart.step (fun _ _ h => h.elim) hfollow hI hstep

/-- When what the programs know are facts about the state: an invariant `S` of the state, and facts
that remain true once they are. -/
theorem Keeps.of_facts {P : ι → Typestate E (List φ)} {S : σ → Prop} {H : φ → σ → Prop}
    (hstarts : ∀ i p, starts i p → (P i).Admits p (fun _ _ => True) (P i).start)
    (hstart : ∀ i, (P i).start = [])
    (hcall : ∀ i log s {β : Type} op as,
      (P i).allows ((P i).after log) op → G i log β op as s → S s →
      (∀ f ∈ (P i).after log, H f s) →
      (P i).possible ((P i).after log) op (Effect.exec op as s).value ∧
        S (Effect.exec op as s).state ∧ (∀ f, H f s → H f (Effect.exec op as s).state) ∧
        ∀ f ∈ (P i).next ((P i).after log) op (Effect.exec op as s).value,
          f ∈ (P i).after log ∨ H f (Effect.exec op as s).state)
    (hcrash : ∀ i s, S s → S (crash i s) ∧ ∀ f, H f s → H f (crash i s)) :
    Keeps starts crash G P (fun _ _ => True) fun M s => S s ∧ ∀ i, ∀ f ∈ M i, H f s where
  starts := hstarts
  rest _ := trivial
  call M i log s β op as hM hallows hguard hI := by
    rw [hM] at hallows ⊢
    obtain ⟨hpossible, hS, hstays, hnext⟩ := hcall i log s op as hallows hguard hI.1 (hM ▸ hI.2 i)
    refine ⟨hpossible, hS, fun j f hf => ?_⟩
    rw [Function.update_apply] at hf
    split at hf
    · exact (hnext f hf).elim (fun hold => hstays f (hI.2 i f (hM ▸ hold))) id
    · exact hstays f (hI.2 j f hf)
  start M i s _ hI := by
    refine ⟨hI.1, fun j f hf => ?_⟩
    rw [Function.update_apply] at hf
    split at hf
    · rw [hstart] at hf
      cases hf
    · exact hI.2 j f hf
  crash M i s hI := by
    obtain ⟨hS, hstays⟩ := hcrash i s hI.1
    refine ⟨hS, fun j f hf => ?_⟩
    rw [Function.update_apply] at hf
    split at hf
    · rw [hstart] at hf
      cases hf
    · exact hstays f (hI.2 j f hf)

theorem Keeps.run (h : Keeps starts crash G P Q I) (hfollow : Follow P Q c)
    (hI : I (c.knows P) c.state) (hrun : Run starts crash G c c') :
    Follow P Q c' ∧ I (c'.knows P) c'.state := by
  induction hrun with
  | refl => exact ⟨hfollow, hI⟩
  | tail _ hstep ih => exact h.step ih.1 ih.2 hstep

/-- Runs in which the programs with an index in `S` run one at a time. -/
abbrev RunApart (S : ι → Prop) (starts : ι → Prog E ρ → Prop) (crash : ι → σ → σ)
    (G : ι → List (Call E) → Prog.Guard E A σ) : Team ι E ρ σ → Team ι E ρ σ → Prop :=
  Relation.ReflTransGen fun c c' => Step starts crash G c c' ∧ c'.Apart S

theorem KeepsApart.run (h : KeepsApart S starts crash G P Q I) (hapart : c.Apart S)
    (hfollow : Follow P Q c) (hI : I (c.knows P) c.state) (hrun : RunApart S starts crash G c c') :
    Follow P Q c' ∧ I (c'.knows P) c'.state := by
  have hall : c'.Apart S ∧ Follow P Q c' ∧ I (c'.knows P) c'.state := by
    induction hrun with
    | refl => exact ⟨hapart, hfollow, hI⟩
    | tail _ hstep ih => exact ⟨hstep.2, h.step ih.1 ih.2.1 ih.2.2 hstep.1⟩
  exact hall.2

theorem Run.invariant {I : σ → Prop} (hcall : ∀ i log β op as s, G i log β op as s → I s →
      I (Effect.exec op as s).state) (hcrash : ∀ i s, I s → I (crash i s))
    (hrun : Run starts crash G c c') (h : I c.state) : I c'.state := by
  induction hrun with
  | refl => exact h
  | tail _ hstep ih =>
    cases hstep with
    | call i op k as hprog guard => exact hcall i _ _ op as _ guard ih
    | start => exact ih
    | crash i => exact hcrash i _ ih

def idle (r : ρ) (s : σ) : Team ι E ρ σ := ⟨fun _ => .ret r, fun _ => [], s⟩

omit [DecidableEq ι] in
theorem apart_idle (S : ι → Prop) (r : ρ) (s : σ) : (idle r s : Team ι E ρ σ).Apart S :=
  fun _ _ _ _ _ => .inl ⟨r, rfl⟩

theorem Keeps.follow_idle (h : Keeps starts crash G P Q I) (r : ρ) (s : σ) :
    Follow P Q (idle r s) := h.rest

end invariant

/-! ## Given schedules -/

/-- Let the program of an index make its next call, with the given answers. -/
def turn (c : Team ι E ρ σ) (i : ι) (as : List A) : Team ι E ρ σ :=
  match c.prog i with
  | .ret _ => c
  | .call op k =>
    { prog := Function.update c.prog i (k (Effect.exec op as c.state).value)
      log := Function.update c.log i (⟨op, (Effect.exec op as c.state).value⟩ :: c.log i)
      state := (Effect.exec op as c.state).state }

def turns (c : Team ι E ρ σ) (schedule : List (ι × List A)) : Team ι E ρ σ :=
  schedule.foldl (fun c t => c.turn t.1 t.2) c

def TurnMeets (G : ι → List (Call E) → Prog.Guard E A σ) (c : Team ι E ρ σ) (i : ι) (as : List A) :
    Prop :=
  match c.prog i with
  | .ret _ => True
  | .call op _ => G i (c.log i) _ op as c.state

def TurnsMeet (G : ι → List (Call E) → Prog.Guard E A σ) : Team ι E ρ σ → List (ι × List A) → Prop
  | _, [] => True
  | c, t :: rest => TurnMeets G c t.1 t.2 ∧ TurnsMeet G (c.turn t.1 t.2) rest

section decidable
variable [∀ i log β op as s, Decidable (G i log β op as s)]

instance : Decidable (TurnMeets G c i as) :=
  match hp : c.prog i with
  | .ret _ => .isTrue (by rw [TurnMeets, hp]; trivial)
  | .call op _ => decidable_of_iff (G i (c.log i) _ op as c.state) (by rw [TurnMeets, hp])

instance TurnsMeet.decidable : (c : Team ι E ρ σ) → (schedule : List (ι × List A)) →
    Decidable (TurnsMeet G c schedule)
  | _, [] => .isTrue trivial
  | c, t :: rest =>
    have := TurnsMeet.decidable (c.turn t.1 t.2) rest
    inferInstanceAs (Decidable (_ ∧ _))

end decidable

theorem Run.turn (h : TurnMeets G c i as) : Run starts crash G c (c.turn i as) := by
  unfold TurnMeets at h
  unfold Team.turn
  cases hp : c.prog i with
  | ret r => exact .refl
  | call op k =>
    rw [hp] at h
    exact .single (.call i op k as hp h)

theorem Run.turns (h : TurnsMeet G c schedule) : Run starts crash G c (c.turns schedule) := by
  induction schedule generalizing c with
  | nil => exact .refl
  | cons t rest ih => exact (Run.turn h.1).trans (ih h.2)

theorem turnsMeet_unguarded (c : Team ι E ρ σ) (schedule : List (ι × List A)) :
    TurnsMeet (fun _ _ => Prog.unguarded) c schedule := by
  induction schedule generalizing c with
  | nil => trivial
  | cons t rest ih =>
    refine ⟨?_, ih _⟩
    unfold TurnMeets
    split <;> trivial

/-- Put a program to an index at rest. -/
def begin (c : Team ι E ρ σ) (i : ι) (p : Prog E ρ) : Team ι E ρ σ :=
  { prog := Function.update c.prog i p, log := Function.update c.log i [], state := c.state }

theorem Run.begin (i : ι) (p : Prog E ρ) (hp : c.prog i = .ret r) (h : starts i p) :
    Run starts crash G c (c.begin i p) := .single (.start i r p hp h)

def resting (c : Team ι E ρ σ) (i : ι) : Bool :=
  match c.prog i with
  | .ret _ => true
  | .call _ _ => false

variable {c : Team ι E ρ σ}

omit [DecidableEq ι] in
theorem atRest_of_resting (h : c.resting i = true) : c.AtRest i := by
  unfold resting at h
  split at h
  · next r hr => exact ⟨r, hr⟩
  · cases h

/-- Of the programs with an index in `S`, only that of `i` has not ended. -/
def OnlyRuns (S : ι → Prop) (i : ι) (c : Team ι E ρ σ) : Prop := ∀ j, S j → j ≠ i → c.AtRest j

theorem OnlyRuns.apart (h : c.OnlyRuns S i) : c.Apart S := by
  intro j k hj hk hjk
  by_cases hji : j = i
  · exact .inr (h k hk fun hki => hjk (hji.trans hki.symm))
  · exact .inl (h j hj hji)

theorem OnlyRuns.turn (h : c.OnlyRuns S i) : (c.turn j as).OnlyRuns S i := by
  intro k hk hki
  obtain ⟨r, hr⟩ := h k hk hki
  unfold Team.turn
  cases hp : c.prog j with
  | ret r' => exact ⟨r, hr⟩
  | call op next =>
    have hkj : k ≠ j := by
      rintro rfl
      rw [hp] at hr
      cases hr
    exact ⟨r, by simpa [Function.update_of_ne hkj] using hr⟩

theorem OnlyRuns.begin (h : c.OnlyRuns S i) (hj : S j → j = i) : (c.begin j p).OnlyRuns S i := by
  intro k hk hki
  have hkj : k ≠ j := fun hkj => hki (hkj.trans (hj (hkj ▸ hk)))
  obtain ⟨r, hr⟩ := h k hk hki
  exact ⟨r, by simpa [Team.begin, Function.update_of_ne hkj] using hr⟩

theorem RunApart.turns {schedule : List (ι × List A)}
    (h : TurnsMeet G c schedule) (hc : c.OnlyRuns S i) :
    RunApart S starts crash G c (c.turns schedule) ∧ (c.turns schedule).OnlyRuns S i := by
  induction schedule generalizing c with
  | nil => exact ⟨.refl, hc⟩
  | cons t rest ih =>
    obtain ⟨hrest, hend⟩ := ih h.2 hc.turn
    refine ⟨.trans ?_ hrest, hend⟩
    have hturn := h.1
    have happ := (hc.turn : (c.turn t.1 t.2).OnlyRuns S i).apart
    unfold TurnMeets at hturn
    unfold Team.turn at happ ⊢
    cases hp : c.prog t.1 with
    | ret r => exact .refl
    | call op k =>
      rw [hp] at hturn happ
      exact .single ⟨.call t.1 op k t.2 hp hturn, happ⟩

theorem RunApart.begin (j : ι) (p : Prog E ρ) (hp : c.AtRest j) (h : starts j p)
    (hj : S j → j = i) (hc : c.OnlyRuns S i) :
    RunApart S starts crash G c (c.begin j p) ∧ (c.begin j p).OnlyRuns S i := by
  obtain ⟨r, hr⟩ := hp
  exact ⟨.single ⟨.start j r p hr h, (hc.begin hj).apart⟩, hc.begin hj⟩

end Team
end Kindling
