import Kindling.Lib.Prog

/-!
# Programs that can fail

A fallible program is a program whose result is an error or a value; sequencing stops at the first
error. For each construct there is an equation for executions (`outcome_…`) and a rule for invariants
(`Keeps.…`).
-/

namespace Kindling

abbrev Fallible (ε : Type) (E : Type → Type 1) := ExceptT ε (Prog E)

namespace Fallible
variable {ε α β : Type} {E : Type → Type 1} {p : Fallible ε E α}

/-- One call whose own result says whether it failed. -/
def ofCall (op : E (Except ε α)) : Fallible ε E α := ExceptT.mk (Prog.lift op)

/-- One call that cannot fail. -/
def ofTotal (op : E α) : Fallible ε E α := ExceptT.mk (.call op fun a => .ret (.ok a))

/-- The result of a computation without calls. -/
def ofResult (r : Except ε α) : Fallible ε E α := ExceptT.mk (.ret r)

/-- Run a program and return its error, if any, as a value. -/
def attempt (p : Fallible ε E α) : Fallible ε E (Except ε α) :=
  ExceptT.mk (Prog.bind p fun r => .ret (.ok r))

/-- Replace the error of a program. -/
def wrap (f : ε → ε) (p : Fallible ε E α) : Fallible ε E α :=
  ExceptT.mk (Prog.bind p fun r => .ret (r.mapError f))

/-- The same program with errors of another kind. -/
def mapError (f : ε → δ) (p : Fallible ε E α) : Fallible δ E α :=
  ExceptT.mk (Prog.bind p fun r => .ret (r.mapError f))

/-- Run a program and ignore its result. -/
def quietly (p : Fallible ε E α) : Prog E Unit := Prog.bind p fun _ => .ret ()

/-- Run a program, then a deferred call whatever the result; an error of the latter is ignored. -/
def deferring (cleanup : Fallible ε E β) (p : Fallible ε E α) : Fallible ε E α := do
  let r ← attempt p
  let _ ← attempt cleanup
  ofResult r

/-- Run a program, then a cleanup if it has failed; an error of the latter replaces its error. -/
def cleaningUp (cleanup : Fallible ε E Unit) (p : Fallible ε E α) : Fallible ε E α := do
  match ← attempt p with
  | .ok a => return a
  | .error e =>
    cleanup
    throw e

/-- The same program over another signature. -/
def hoist {F : Type → Type 1} (f : (β : Type) → E β → F β) (p : Fallible ε E α) : Fallible ε F α :=
  ExceptT.mk (Prog.interp (fun β op => Prog.lift (f β op)) p)

/-- Run the body for each element, up to the first failure. -/
def forEach : List α → (α → Fallible ε E Unit) → Fallible ε E Unit
  | [], _ => pure ()
  | x :: xs, f => do
    f x
    forEach xs f

/-! ## Which calls a program can make -/

section uses
variable {P : (β : Type) → E β → Prop}

/-- Every call in the program satisfies `P`. -/
def Uses (P : (β : Type) → E β → Prop) (p : Fallible ε E α) : Prop := Prog.Uses P p

theorem Uses.mono (h : Uses P p) (hPQ : ∀ β op, P β op → Q β op) : Uses Q p := Prog.Uses.mono h hPQ

@[simp] theorem Uses.pure : Uses P (Pure.pure a : Fallible ε E α) := trivial

@[simp] theorem Uses.throw : Uses P (MonadExcept.throw e : Fallible ε E α) := trivial

@[simp] theorem Uses.ofResult : Uses P (ofResult r : Fallible ε E α) := trivial

theorem Uses.ofCall (h : P _ op) : Uses P (ofCall op) := ⟨h, fun _ => trivial⟩

theorem Uses.ofTotal (h : P _ op) : Uses P (ofTotal op : Fallible ε E α) := ⟨h, fun _ => trivial⟩

theorem Uses.bind (h : Uses P p) (hf : ∀ a, Uses P (f a)) : Uses P (p >>= f) := by
  refine Prog.Uses.bind h fun r => ?_
  cases r with
  | ok a => exact hf a
  | error e => trivial

theorem Uses.attempt (h : Uses P p) : Uses P p.attempt := Prog.Uses.bind h fun _ => trivial

theorem Uses.mapError (h : Uses P p) : Uses P (p.mapError f) := Prog.Uses.bind h fun _ => trivial

theorem Uses.wrap (h : Uses P p) : Uses P (p.wrap f) := h.mapError

theorem Uses.quietly (h : Uses P p) : p.quietly.Uses P := .bind h fun _ => trivial

@[simp] theorem Uses.cleaningUp (hc : Uses P cleanup) (hp : Uses P p) : Uses P (cleaningUp cleanup p) := by
  refine .bind hp.attempt fun r => ?_
  cases r with
  | ok a => exact .pure
  | error e => exact .bind hc fun _ => .throw

theorem Uses.ite [Decidable c] (hp : Uses P p) (hq : Uses P q) : Uses P (if c then p else q) := by
  split
  · exact hp
  · exact hq

@[simp] theorem Uses.forEach (h : ∀ x ∈ xs, Uses P (f x)) : Uses P (forEach xs f) := by
  induction xs with
  | nil => trivial
  | cons x xs ih =>
    exact .bind (h x List.mem_cons_self) fun _ => ih fun y hy => h y (List.mem_cons_of_mem x hy)

/-! The same as equations, by which `simp` goes through a program. -/

/-- A value that the program can return. -/
def Returns (p : Fallible ε E α) (a : α) : Prop := Prog.Returns (.ok a) p

@[simp] theorem uses_bind {f : α → Fallible ε E β} :
    Uses P (p >>= f) ↔ Uses P p ∧ ∀ a, p.Returns a → Uses P (f a) := by
  refine Prog.uses_bind.trans (and_congr_right fun _ => ⟨fun h a => h (.ok a), fun h r hr => ?_⟩)
  cases r with
  | ok a => exact h a hr
  | error e => trivial

@[simp] theorem uses_ofCall {op : E (Except ε α)} : Uses P (ofCall op) ↔ P _ op :=
  and_iff_left fun _ => trivial

@[simp] theorem uses_ofTotal : Uses P (ofTotal op : Fallible ε E α) ↔ P _ op :=
  and_iff_left fun _ => trivial

@[simp] theorem uses_attempt : Uses P p.attempt ↔ Uses P p :=
  Prog.uses_bind.trans (and_iff_left fun _ _ => trivial)

@[simp] theorem uses_mapError : Uses P (p.mapError f) ↔ Uses P p :=
  Prog.uses_bind.trans (and_iff_left fun _ _ => trivial)

@[simp] theorem uses_wrap : Uses P (p.wrap f) ↔ Uses P p :=
  Prog.uses_bind.trans (and_iff_left fun _ _ => trivial)

@[simp] theorem uses_ite [Decidable c] {p q : Fallible ε E α} :
    Uses P (if c then p else q) ↔ (c → Uses P p) ∧ (¬c → Uses P q) := by
  split <;> simp_all

@[simp] theorem forall_except {p : Except ε α → Prop} :
    (∀ r, p r) ↔ (∀ e, p (.error e)) ∧ ∀ a, p (.ok a) :=
  ⟨fun h => ⟨fun e => h (.error e), fun a => h (.ok a)⟩, fun h r => by cases r <;> simp [h]⟩

end uses

section outcome
variable {A σ : Type} [Effect E A σ] {as : List A} {s : σ}

/-- The execution of a fallible program. -/
def outcome (p : Fallible ε E α) (as : List A) (s : σ) : Outcome (Except ε α) σ A := Prog.run p as s

@[simp] theorem outcome_pure : (pure a : Fallible ε E α).outcome as s = ⟨.ok a, s, as⟩ := rfl

@[simp] theorem outcome_throw : (throw e : Fallible ε E α).outcome as s = ⟨.error e, s, as⟩ := rfl

@[simp] theorem outcome_ofResult : (ofResult r : Fallible ε E α).outcome as s = ⟨r, s, as⟩ := rfl

theorem outcome_ofCall {op : E (Except ε α)} : (ofCall op).outcome as s = Effect.exec op as s := rfl

theorem outcome_ofTotal :
    (ofTotal op : Fallible ε E α).outcome as s =
      ⟨.ok (Effect.exec op as s).value, (Effect.exec op as s).state, (Effect.exec op as s).rest⟩ :=
  rfl

/-- Continue an execution that returned a value. -/
def andThen (o : Outcome (Except ε α) σ A) (f : α → Fallible ε E β) : Outcome (Except ε β) σ A :=
  match o.value with
  | .ok a => (f a).outcome o.rest o.state
  | .error e => ⟨.error e, o.state, o.rest⟩

@[simp] theorem andThen_ok {f : α → Fallible ε E β} :
    andThen ⟨.ok a, s, as⟩ f = (f a).outcome as s := rfl

@[simp] theorem andThen_error {f : α → Fallible ε E β} :
    andThen ⟨.error e, s, as⟩ f = ⟨.error e, s, as⟩ := rfl

theorem outcome_bind (p : Fallible ε E α) (f : α → Fallible ε E β) (as : List A) (s : σ) :
    (p >>= f).outcome as s = andThen (p.outcome as s) f := by
  change Prog.run (.bind p _) as s = _
  rw [Prog.run_bind, andThen]
  change Prog.run (ExceptT.bindCont f (p.outcome as s).value) _ _ = _
  cases (p.outcome as s).value <;> rfl

theorem outcome_attempt (p : Fallible ε E α) (as : List A) (s : σ) :
    p.attempt.outcome as s =
      ⟨.ok (p.outcome as s).value, (p.outcome as s).state, (p.outcome as s).rest⟩ :=
  Prog.run_bind p _ as s

theorem outcome_mapError (f : ε → δ) (p : Fallible ε E α) (as : List A) (s : σ) :
    (p.mapError f).outcome as s =
      ⟨(p.outcome as s).value.mapError f, (p.outcome as s).state, (p.outcome as s).rest⟩ :=
  Prog.run_bind p _ as s

theorem outcome_wrap (f : ε → ε) (p : Fallible ε E α) (as : List A) (s : σ) :
    (p.wrap f).outcome as s =
      ⟨(p.outcome as s).value.mapError f, (p.outcome as s).state, (p.outcome as s).rest⟩ :=
  outcome_mapError f p as s

theorem outcome_bind_ok (h : (p >>= f).outcome as s = ⟨.ok b, s₂, as₂⟩) :
    ∃ a s₁ as₁, p.outcome as s = ⟨.ok a, s₁, as₁⟩ ∧ (f a).outcome as₁ s₁ = ⟨.ok b, s₂, as₂⟩ := by
  rw [outcome_bind] at h
  rcases hp : p.outcome as s with ⟨_ | a, s₁, as₁⟩
  · rw [hp] at h
    cases h
  · rw [hp] at h
    exact ⟨a, s₁, as₁, rfl, h⟩

theorem outcome_replay [Replayable E] (p : Fallible ε E α) (as : List A) (s : σ) :
    ∃ pre, ∀ more, p.outcome (pre ++ more) s =
      ⟨(p.outcome as s).value, (p.outcome as s).state, more⟩ := Prog.run_replay p as s

theorem mapError_eq_ok {r : Except ε α} : r.mapError f = .ok a ↔ r = .ok a := by
  cases r <;> simp [Except.mapError]

theorem outcome_wrap_ok :
    (p.wrap f).outcome as s = ⟨.ok a, s₂, as₂⟩ ↔ p.outcome as s = ⟨.ok a, s₂, as₂⟩ := by
  rw [outcome_wrap]
  rcases p.outcome as s with ⟨_ | _, _, _⟩ <;> simp [Except.mapError]

end outcome

/-! ## Pre- and postconditions -/

section ensures
variable {A σ : Type} [Effect E A σ] {G : Prog.Guard E A σ} {s : σ}

/-- Every call that the execution makes meets the guard. -/
def Meets (G : Prog.Guard E A σ) (p : Fallible ε E α) (as : List A) (s : σ) : Prop :=
  Prog.Meets G p as s

instance [∀ β (op : E β) as s, Decidable (G β op as s)] :
    Decidable (Meets G p as s) := Prog.decidableMeets p as s

theorem meets_unguarded (p : Fallible ε E α) (as : List A) (s : σ) : Meets Prog.unguarded p as s :=
  Prog.meets_unguarded p as s

theorem meets_bind :
    Meets G (p >>= f) as s ↔ Meets G p as s ∧ ∀ a, (p.outcome as s).value = .ok a →
      Meets G (f a) (p.outcome as s).rest (p.outcome as s).state := by
  change Prog.Meets G (.bind p (ExceptT.bindCont f)) as s ↔ _
  rw [Prog.meets_bind]
  refine and_congr_right fun _ => ?_
  change Prog.Meets G (ExceptT.bindCont f (p.outcome as s).value) _ _ ↔ _
  cases (p.outcome as s).value with
  | ok a => exact ⟨fun h b hb => by cases hb; exact h, fun h => h a rfl⟩
  | error e => exact ⟨fun _ _ => nofun, fun _ => trivial⟩

theorem meets_ofCall : Meets G (ofCall op) as s ↔ G _ op as s := and_iff_left trivial

theorem meets_ofCall_bind :
    Meets G (ofCall op >>= f) as s ↔ G _ op as s ∧ ∀ a, (Effect.exec op as s).value = .ok a →
      Meets G (f a) (Effect.exec op as s).rest (Effect.exec op as s).state :=
  meets_bind.trans (and_congr_left' meets_ofCall)

theorem meets_attempt_bind : Meets G (p.attempt >>= f) as s ↔ Meets G p as s ∧
      Meets G (f (p.outcome as s).value) (p.outcome as s).rest (p.outcome as s).state := by
  rw [meets_bind, outcome_attempt]
  refine and_congr ((Prog.meets_bind ..).trans (and_iff_left trivial)) ⟨fun h => h _ rfl, ?_⟩
  intro h r hr
  cases hr
  exact h

theorem meets_mapError : Meets G (p.mapError f) as s ↔ Meets G p as s :=
  (Prog.meets_bind ..).trans (and_iff_left trivial)

theorem meets_wrap : Meets G (p.wrap f) as s ↔ Meets G p as s := meets_mapError

/-- Every execution from `s` whose calls meet `G` ends with a result and a state in `Q`. -/
def Ensures (G : Prog.Guard E A σ) (p : Fallible ε E α) (Q : Except ε α → σ → Prop) (s : σ) : Prop :=
  Prog.Holds G (fun _ => True) p Q s

theorem Ensures.mono (h : Ensures G p Q s) (hQ : ∀ r s', Q r s' → R r s') : Ensures G p R s :=
  Prog.Holds.mono h hQ

theorem Ensures.and (h : Ensures G p Q s) (h' : Ensures G p R s) :
    Ensures G p (fun r s' => Q r s' ∧ R r s') s :=
  Prog.Holds.and h h'

theorem Ensures.true (p : Fallible ε E α) (s : σ) : Ensures G p (fun _ _ => True) s :=
  Prog.holds_of_call_invariant (fun _ _ _ _ _ _ => trivial) p trivial

theorem Ensures.pure (h : Q (.ok a) s) : Ensures G (Pure.pure a : Fallible ε E α) Q s := h

theorem Ensures.throw (h : Q (.error e) s) :
    Ensures G (MonadExcept.throw e : Fallible ε E α) Q s := h

theorem Ensures.ofCall {Q : Except ε α → σ → Prop}
    (h : ∀ as, G _ op as s → Q (Effect.exec op as s).value (Effect.exec op as s).state) :
    Ensures G (ofCall op) Q s := fun as hg => ⟨trivial, h as hg⟩

theorem Ensures.ofTotal
    (h : ∀ as, G _ op as s → Q (.ok (Effect.exec op as s).value) (Effect.exec op as s).state) :
    Ensures G (ofTotal op : Fallible ε E α) Q s := fun as hg => ⟨trivial, h as hg⟩

theorem Ensures.bind (h : Ensures G p Q s) (hok : ∀ a s', Q (.ok a) s' → Ensures G (f a) R s')
    (herr : ∀ e s', Q (.error e) s' → R (.error e) s') : Ensures G (p >>= f) R s := by
  refine Prog.Holds.bind h fun r s' hr => ?_
  cases r with
  | ok a => exact hok a s' hr
  | error e => exact herr e s' hr

theorem Ensures.bind_ok {Q : α → σ → Prop}
    {R : Except ε β → σ → Prop} (h : Ensures G p (fun r s' => ∃ a, r = .ok a ∧ Q a s') s)
    (hf : ∀ a s', Q a s' → Ensures G (f a) R s') : Ensures G (p >>= f) R s := by
  refine .bind h (fun a s' hr => ?_) fun e s' hr => ?_
  · obtain ⟨b, hb, hq⟩ := hr
    cases hb
    exact hf _ s' hq
  · obtain ⟨b, hb, -⟩ := hr
    cases hb

theorem Ensures.attempt (h : Ensures G p Q s) :
    Ensures G p.attempt (fun r s' => ∃ r', r = .ok r' ∧ Q r' s') s :=
  Prog.Holds.bind h fun r _ hr => ⟨r, rfl, hr⟩

theorem Ensures.attempt_bind (h : Ensures G p Q s) (hf : ∀ r s', Q r s' → Ensures G (f r) R s') :
    Ensures G (p.attempt >>= f) R s :=
  .bind h.attempt (fun _ s' ⟨_, he, hq⟩ => by cases he; exact hf _ s' hq)
    fun _ _ ⟨_, he, _⟩ => by cases he

theorem Ensures.wrap (h : Ensures G p (fun r s' => Q (r.mapError f) s') s) :
    Ensures G (p.wrap f) Q s :=
  Prog.Holds.bind h fun _ _ hr => hr

/-- A postcondition for values and one for errors. -/
def Yields (Q : α → σ → Prop) (R : σ → Prop) : Except ε α → σ → Prop
  | .ok a, s => Q a s
  | .error _, s => R s

theorem Ensures.bind_yields (h : Ensures G p (Yields Q R) s)
    (hok : ∀ a s', Q a s' → Ensures G (f a) T s') (herr : ∀ e s', R s' → T (.error e) s') :
    Ensures G (p >>= f) T s :=
  .bind h hok herr

theorem Ensures.mapError_yields (h : Ensures G p (Yields Q R) s) :
    Ensures G (p.mapError f) (Yields Q R) s := by
  refine Prog.Holds.bind h fun r s' hr => Prog.holds_ret.mpr ?_
  cases r <;> exact hr

theorem Ensures.wrap_yields (h : Ensures G p (Yields Q R) s) :
    Ensures G (p.wrap f) (Yields Q R) s := h.mapError_yields

theorem Ensures.guard_mono (h : Ensures G p Q s)
    (hG : ∀ β op as s, G' β op as s → G β op as s) : Ensures G' p Q s :=
  Prog.Holds.guard_mono h hG fun _ h => h

/-- A loop whose iterations all return keeps what each iteration keeps. -/
theorem Ensures.forEach {I : σ → Prop} {xs : List α} {f : α → Fallible ε E Unit}
    (h : ∀ x ∈ xs, ∀ s, I s → Ensures G (f x) (fun r s' => r = .ok () ∧ I s') s) (hs : I s) :
    Ensures G (forEach xs f) (fun r s' => r = .ok () ∧ I s') s := by
  induction xs generalizing s with
  | nil => exact .pure ⟨rfl, hs⟩
  | cons x xs ih =>
    refine .bind (h x List.mem_cons_self s hs) (fun _ s' hr => ?_) fun _ _ hr => by cases hr.1
    exact ih (fun y hy => h y (List.mem_cons_of_mem x hy)) hr.2

theorem Uses.ensures {I : σ → Prop}
    (h : Uses P p) (hI : ∀ β op, P β op → ∀ as s, I s → I (Effect.exec op as s).state)
    (hs : I s) : Ensures G p (fun _ s' => I s') s :=
  (Prog.Uses.holds h hI hs).guard_mono (fun _ _ _ _ hg => hg) fun _ _ => trivial

theorem Ensures.outcome (h : Ensures G p Q s) (hm : Meets G p as s) :
    Q (p.outcome as s).value (p.outcome as s).state := (Prog.Holds.run h hm).1

end ensures

/-! ## Invariants -/

section keeps
variable {A σ : Type} [Effect E A σ] {G : Prog.Guard E A σ} {I : σ → Prop} {s : σ}

/-- Every execution from a state in `I` whose calls meet `G` stays in `I`, and returns an error or
a value in `Q`. -/
def Keeps (G : Prog.Guard E A σ) (I : σ → Prop) (p : Fallible ε E α) (Q : α → Prop) : Prop :=
  ∀ s, I s → Prog.Holds G I p (fun r s' => I s' ∧ ∀ a, r = .ok a → Q a) s

/-- Every execution from `s` whose calls meet `G` stays in `I`, and returns an error, or a value in
`Q` for the state it ends in. -/
def KeepsFrom (G : Prog.Guard E A σ) (I : σ → Prop) (p : Fallible ε E α) (Q : α → σ → Prop) (s : σ) :
    Prop := Prog.Holds G I p (fun r s' => I s' ∧ ∀ a, r = .ok a → Q a s') s

theorem KeepsFrom.pure (hs : I s) (h : Q a s) : KeepsFrom G I (Pure.pure a : Fallible ε E α) Q s :=
  Prog.holds_ret.mpr ⟨hs, fun b hb => by cases hb; exact h⟩

theorem KeepsFrom.throw (hs : I s) : KeepsFrom G I (MonadExcept.throw e : Fallible ε E α) Q s :=
  Prog.holds_ret.mpr ⟨hs, fun _ hb => by cases hb⟩

theorem KeepsFrom.ofCall {op : E (Except ε α)} {Q : α → σ → Prop}
    (h : ∀ as, G _ op as s → I (Effect.exec op as s).state ∧
      ∀ a, (Effect.exec op as s).value = .ok a → Q a (Effect.exec op as s).state) :
    KeepsFrom G I (.ofCall op) Q s :=
  fun as hm => ⟨(h as hm).1, Prog.holds_ret.mpr (h as hm)⟩

theorem KeepsFrom.bind (h : KeepsFrom G I p Q s)
    (hf : ∀ a s', I s' → Q a s' → KeepsFrom G I (f a) R s') : KeepsFrom G I (p >>= f) R s := by
  refine Prog.Holds.bind h fun r s' hr => ?_
  cases r with
  | ok a => exact hf a s' hr.1 (hr.2 a rfl)
  | error e => exact KeepsFrom.throw hr.1

theorem KeepsFrom.mapError (h : KeepsFrom G I p Q s) : KeepsFrom G I (p.mapError f) Q s := by
  refine Prog.Holds.bind h fun r s' hr => Prog.holds_ret.mpr ⟨hr.1, fun a ha => ?_⟩
  cases r with
  | ok b => cases ha; exact hr.2 _ rfl
  | error e => cases ha

theorem KeepsFrom.wrap (h : KeepsFrom G I p Q s) : KeepsFrom G I (p.wrap f) Q s := h.mapError

theorem Keeps.mono (h : Keeps G I p Q) (hQ : ∀ a, Q a → R a) : Keeps G I p R :=
  fun s hs => (h s hs).mono fun _ _ hr => ⟨hr.1, fun a ha => hQ a (hr.2 a ha)⟩

theorem Keeps.pure (h : Q a) : Keeps G I (Pure.pure a : Fallible ε E α) Q :=
  fun _ hs => KeepsFrom.pure hs h

theorem Keeps.throw : Keeps G I (MonadExcept.throw e : Fallible ε E α) Q :=
  fun _ hs => KeepsFrom.throw hs

theorem Keeps.ofResult (h : ∀ a, r = .ok a → Q a) :
    Keeps G I (ofResult r : Fallible ε E α) Q := fun _ hs => Prog.holds_ret.mpr ⟨hs, h⟩

theorem Keeps.ofCall {op : E (Except ε α)} {Q : α → Prop}
    (h : ∀ as s, G _ op as s → I s → I (Effect.exec op as s).state ∧
      ∀ a, (Effect.exec op as s).value = .ok a → Q a) : Keeps G I (ofCall op) Q :=
  fun s hs => KeepsFrom.ofCall fun as hg => h as s hg hs

/-- Sequencing after a program that says something about the state its value is returned in. -/
theorem Keeps.bind_from (h : ∀ s, I s → KeepsFrom G I p Q s)
    (hf : ∀ a s, I s → Q a s → KeepsFrom G I (f a) (fun b _ => R b) s) : Keeps G I (p >>= f) R :=
  fun s hs => (h s hs).bind hf

theorem Keeps.bind (h : Keeps G I p Q) (hf : ∀ a, Q a → Keeps G I (f a) R) :
    Keeps G I (p >>= f) R := .bind_from h fun a s hs ha => hf a ha s hs

theorem Keeps.attempt (h : Keeps G I p Q) :
    Keeps G I p.attempt (fun r => ∀ a, r = .ok a → Q a) := by
  intro s hs
  refine .bind (h s hs) fun r s' hr => Prog.holds_ret.mpr ⟨hr.1, fun r' hr' => ?_⟩
  cases hr'
  exact hr.2

theorem Keeps.mapError (h : Keeps G I p Q) : Keeps G I (p.mapError f) Q :=
  fun s hs => KeepsFrom.mapError (h s hs)

theorem Keeps.wrap (h : Keeps G I p Q) : Keeps G I (p.wrap f) Q := h.mapError

theorem KeepsFrom.attempt_bind (h : KeepsFrom G I p Q s) (hf : ∀ r, Keeps G I (f r) R) :
    KeepsFrom G I (p.attempt >>= f) (fun b _ => R b) s := by
  have hp : Prog.Holds G I p.attempt (fun r s' => ∃ r', r = .ok r' ∧ I s') s :=
    .bind h fun r s' hr => Prog.holds_ret.mpr ⟨r, rfl, hr.1⟩
  refine Prog.Holds.bind hp fun r s' hr => ?_
  obtain ⟨r', rfl, hs'⟩ := hr
  exact hf r' s' hs'

theorem Keeps.ite [Decidable c] (hp : c → Keeps G I p Q) (hq : ¬c → Keeps G I q Q) :
    Keeps G I (if c then p else q) Q := by
  split
  · exact hp ‹c›
  · exact hq ‹¬c›

theorem Keeps.forEach (h : ∀ x ∈ xs, Keeps G I (f x) fun _ => True) :
    Keeps G I (forEach xs f) fun _ => True := by
  induction xs with
  | nil => exact .pure trivial
  | cons x xs ih =>
    refine .bind (h x List.mem_cons_self) fun _ _ => ih fun y hy => h y ?_
    exact List.mem_cons_of_mem x hy

theorem Uses.keeps (h : Uses P p)
    (hI : ∀ β op, P β op → ∀ as s, I s → I (Effect.exec op as s).state) :
    Keeps G I p fun _ => True :=
  fun _ hs => (Prog.Uses.holds h hI hs).mono fun _ _ hi => ⟨hi, fun _ _ => trivial⟩

theorem Keeps.true (p : Fallible ε E α) : Keeps G (fun _ => True) p fun _ => True :=
  Uses.keeps (.of_forall (fun _ _ => trivial) p) fun _ _ _ _ _ _ => trivial

theorem Keeps.outcome (h : Keeps G I p Q) (hs : I s) (hm : Meets G p as s) :
    I (p.outcome as s).state ∧ ∀ a, (p.outcome as s).value = .ok a → Q a :=
  ((h s hs).run hm).1

end keeps

section complies
variable {A σ : Type} [Effect E A σ] {G : Prog.Guard E A σ} {s : σ}

/-- Every execution from `s` makes only calls that meet `G`, and ends in `Q`. -/
def Complies (G : Prog.Guard E A σ) (p : Fallible ε E α) (Q : Except ε α → σ → Prop) (s : σ) : Prop :=
  Prog.Complies G p Q s

theorem Complies.mono (h : Complies G p Q s) (hQ : ∀ r s', Q r s' → R r s') : Complies G p R s :=
  Prog.Complies.mono h hQ

theorem Complies.ofCall {Q : Except ε α → σ → Prop}
    (h : ∀ as, G _ op as s ∧ Q (Effect.exec op as s).value (Effect.exec op as s).state) :
    Complies G (ofCall op) Q s := h

theorem Complies.bind (h : Complies G p Q s) (hok : ∀ a s', Q (.ok a) s' → Complies G (f a) R s')
    (herr : ∀ e s', Q (.error e) s' → R (.error e) s') : Complies G (p >>= f) R s := by
  refine Prog.Complies.bind h fun r s' hr => ?_
  cases r with
  | ok a => exact hok a s' hr
  | error e => exact herr e s' hr

theorem Complies.attempt_bind (h : Complies G p Q s) (hf : ∀ r s', Q r s' → Complies G (f r) R s') :
    Complies G (p.attempt >>= f) R s :=
  .bind (Q := fun r s' => ∃ r', r = .ok r' ∧ Q r' s')
    (Prog.Complies.bind h fun r _ hr => ⟨r, rfl, hr⟩)
    (fun _ s' ⟨_, he, hq⟩ => by cases he; exact hf _ s' hq) fun _ _ ⟨_, he, _⟩ => by cases he

theorem Complies.meets (h : Complies G p Q s) (as : List A) :
    Meets G p as s := (Prog.Complies.run h as).1

theorem Uses.complies {I : σ → Prop} (h : Uses P p)
    (hP : ∀ β op, P β op → ∀ as s, I s → G β op as s ∧ I (Effect.exec op as s).state)
    (hs : I s) : Complies G p (fun _ s' => I s') s := Prog.Uses.complies h hP hs

end complies
end Fallible
end Kindling
