import Kindling.Lib.Typestate

/-!
# Transactions with advisory locks

Sessions of a database at the isolation level *read committed*: a statement sees what is committed at
that moment, with the changes of its own transaction on top. These are kept as a function of the
committed state, which is what a database shows of transactions that insert rows and read. A lock
belongs to a transaction until it ends.
-/

namespace Kindling

variable {ι κ ε A σ α β : Type} {E : Type → Type 1}

/-- The calls of the sessions `ι`, with locks named by `κ` and statements `E`. -/
inductive SessionOp (ι κ ε : Type) (E : Type → Type 1) : Type → Type 1
  | begin (i : ι) : SessionOp ι κ ε E (Except ε Unit)
  | lock (i : ι) (key : κ) : SessionOp ι κ ε E (Except ε Unit)
  | stmt (i : ι) {β : Type} (op : E β) : SessionOp ι κ ε E β
  | commit (i : ι) : SessionOp ι κ ε E (Except ε Unit)
  | rollback (i : ι) : SessionOp ι κ ε E Unit

/-- How the environment answers: it may refuse a call, and a commit that it refuses may have taken
effect all the same. -/
structure SessionAnswer (ε A : Type) where
  refuse : Option ε := none
  applied : Bool := false
  answer : A

instance [Inhabited A] : Inhabited (SessionAnswer ε A) := ⟨{ answer := default }⟩

structure Sessions (ι κ σ : Type) where
  committed : σ
  /-- The changes of the open transactions. -/
  own : ι → Option (σ → σ) := fun _ => none
  /-- The transactions that hold the locks. -/
  holder : κ → Option ι := fun _ => none

namespace Sessions

/-- What a session sees. -/
def view (db : Sessions ι κ σ) (i : ι) : σ := (db.own i).getD id db.committed

variable [DecidableEq ι]

/-- The transaction of a session ends, with or without its changes. -/
def close (db : Sessions ι κ σ) (i : ι) (committed : σ) : Sessions ι κ σ where
  committed := committed
  own := Function.update db.own i none
  holder key := if db.holder key = some i then none else db.holder key

theorem close_own_of_ne (db : Sessions ι κ σ) (s : σ) (h : j ≠ i) :
    (db.close i s).own j = db.own j := Function.update_of_ne h ..

theorem close_holder {db : Sessions ι κ σ} {key : κ} (h : j ≠ i) (hkey : db.holder key = some j) :
    (db.close i s).holder key = some j := by
  simp [close, hkey, h]

end Sessions

variable [DecidableEq ι] [Atomic E A σ]

def SessionOp.step [DecidableEq κ] : SessionOp ι κ ε E β → SessionAnswer ε A → Sessions ι κ σ → β × Sessions ι κ σ
  | begin i, a, db => match a.refuse with
    | some e => (.error e, db)
    | none => (.ok (), { db with own := Function.update db.own i (some id) })
  | lock i key, a, db => match a.refuse with
    | some e => (.error e, db)
    | none => (.ok (), { db with holder := Function.update db.holder key (some i) })
  | stmt i op, a, db =>
    let change (s : σ) := (Atomic.step op a.answer ((db.own i).getD id s)).2
    ((Atomic.step op a.answer (db.view i)).1, { db with own := Function.update db.own i (some change) })
  | commit i, a, db => match a.refuse with
    | some e => (.error e, db.close i (if a.applied then db.view i else db.committed))
    | none => (.ok (), db.close i (db.view i))
  | rollback i, _, db => ((), db.close i db.committed)

instance [DecidableEq κ] : Atomic (SessionOp ι κ ε E) (SessionAnswer ε A) (Sessions ι κ σ) where
  step := SessionOp.step

/-- A lock that another transaction holds is not granted. -/
def SessionOp.Granted (a : SessionAnswer ε A) (db : Sessions ι κ σ) : SessionOp ι κ ε E β → Prop
  | lock i key => a.refuse.isSome ∨ db.holder key = none ∨ db.holder key = some i
  | _ => True

instance (op : SessionOp ι κ ε E β) : Decidable (op.Granted a db) := by
  cases op <;> unfold SessionOp.Granted <;> infer_instance

/-- Programs wait for their locks. -/
def SessionOp.waiting [Inhabited A] (_ : ι) (_ : List (Call (SessionOp ι κ ε E))) :
    Prog.Guard (SessionOp ι κ ε E) (SessionAnswer ε A) (Sessions ι κ σ) :=
  fun _ op as db => op.Granted (as.headD default) db

instance [Inhabited A] (as : List (SessionAnswer ε A)) (db : Sessions ι κ σ) :
    Decidable (SessionOp.waiting i log β op as db) :=
  inferInstanceAs (Decidable (op.Granted (as.headD default) db))

section transaction

/-- The end of a transaction: the deferred rollback, which changes nothing after a commit. -/
def SessionOp.closing (i : ι) (r : Except ε α) : Prog (SessionOp ι κ ε E) (Except ε α) :=
  .call (.rollback i) fun _ => .ret r

/-- After the statements: commit, unless one of them has failed. -/
def SessionOp.finish (i : ι) : Except ε α → Prog (SessionOp ι κ ε E) (Except ε α)
  | .ok a => .call (.commit i) fun
    | .ok _ => closing i (.ok a)
    | .error e => closing i (.error e)
  | .error e => closing i (.error e)

/-- What is left of the statements, and the end. -/
def SessionOp.inside (i : ι) (p : Fallible ε E α) : Prog (SessionOp ι κ ε E) (Except ε α) :=
  (Prog.interp (fun _ op => .lift (.stmt i op)) p).bind (finish i)

/-- The lock, and what comes after it. -/
def SessionOp.locking (failed : ε → ε) (i : ι) (key : κ) (body : Fallible ε E α) :
    Prog (SessionOp ι κ ε E) (Except ε α) :=
  .call (.lock i key) fun
    | .ok _ => inside i body
    | .error e => closing i (.error (failed e))

def SessionOp.transaction (beginFailed lockFailed : ε → ε) (i : ι) (key : κ) (body : Fallible ε E α) :
    Prog (SessionOp ι κ ε E) (Except ε α) :=
  .call (.begin i) fun
    | .ok _ => locking lockFailed i key body
    | .error e => .ret (.error (beginFailed e))

end transaction

/-! ## Transactions under one lock take effect one after the other -/

/-- Statements of a program executed so far, and what is left of it. -/
inductive Prog.Reaches [Atomic E A σ] (p : Prog E α) (s : σ) : Prog E α → σ → Prop
  | refl : Reaches p s p s
  | step {β : Type} {op : E β} {k : β → Prog E α} {s' : σ} (a : A) (h : Reaches p s (.call op k) s') :
    Reaches p s (k (Atomic.step op a s').1) (Atomic.step op a s').2

theorem Prog.Reaches.run [Inhabited A] {p q : Prog E α} (h : p.Reaches s q s') :
    ∃ as, ∀ more, p.run (as ++ more) s = q.run more s' := by
  induction h with
  | refl => exact ⟨[], fun _ => rfl⟩
  | step a _ ih =>
    obtain ⟨as, has⟩ := ih
    refine ⟨as ++ [a], fun more => ?_⟩
    rw [List.append_assoc, has]
    rfl

namespace Sessions
open SessionOp

section serial
variable [Inhabited A] (key : κ) (bodies : ι → Fallible ε E α → Prop)

/-- One of the bodies, executed without interruption, returns a value. -/
def Executes (s s' : σ) : Prop :=
  ∃ i body, bodies i body ∧ ∃ as a, body.outcome as s = ⟨.ok a, s', []⟩

inductive Stage (beginFailed lockFailed : ε → ε) (db : Sessions ι κ σ) (i : ι) :
    Prog (SessionOp ι κ ε E) (Except ε α) → Prop
  | rest (r : Except ε α) : Stage beginFailed lockFailed db i (.ret r)
  | start (body : Fallible ε E α) (h : bodies i body) :
    Stage beginFailed lockFailed db i (transaction beginFailed lockFailed i key body)
  | locking (body : Fallible ε E α) (h : bodies i body) (own : db.own i = some id) :
    Stage beginFailed lockFailed db i (SessionOp.locking lockFailed i key body)
  /-- The lock is held, and the statements so far were executed on what is still committed. -/
  | inside (body p : Fallible ε E α) (h : bodies i body) (held : db.holder key = some i)
      (reaches : Prog.Reaches body db.committed p (db.view i)) :
    Stage beginFailed lockFailed db i (SessionOp.inside i p)
  | closing (r : Except ε α) : Stage beginFailed lockFailed db i (SessionOp.closing i r)

def commits : Call (SessionOp ι κ ε E) → Bool
  | ⟨.commit _, .ok _⟩ => true
  | _ => false

section runs
variable {key bodies} {beginFailed lockFailed : ε → ε} {db db' : Sessions ι κ σ} {i : ι}

omit [DecidableEq ι] [Inhabited A] in
/-- The calls of other sessions leave a session where it is, if they do not take its lock and commit
nothing while it holds it. -/
theorem Stage.frame (h : Stage key bodies beginFailed lockFailed db i p)
    (hown : db'.own i = db.own i)
    (hheld : db.holder key = some i → db'.holder key = some i ∧ db'.committed = db.committed) :
    Stage key bodies beginFailed lockFailed db' i p := by
  cases h with
  | rest r => exact .rest r
  | start body h => exact .start body h
  | locking body h own => exact .locking body h (hown.trans own)
  | inside body p h held reaches =>
    obtain ⟨hholder, hcommitted⟩ := hheld held
    refine .inside body p h hholder ?_
    rwa [view, hown, hcommitted]
  | closing r => exact .closing r

variable (key bodies beginFailed lockFailed) in
/-- Everything that is committed comes from bodies executed one after the other, and each session is
at a stage of its transaction. -/
structure Serial (s : σ) (c : Team ι (SessionOp ι κ ε E) (Except ε α) (Sessions ι κ σ)) : Prop where
  history : Relation.ReflTransGen (Executes bodies) s c.state.committed
  stages : ∀ i, Stage key bodies beginFailed lockFailed c.state i (c.prog i)
  done : ∀ i, (∃ x ∈ c.log i, commits x = true) → Relation.TransGen (Executes bodies) s c.state.committed

variable {s : σ} {c c' : Team ι (SessionOp ι κ ε E) (Except ε α) (Sessions ι κ σ)}

theorem Serial.move (h : Serial key bodies beginFailed lockFailed s c)
    (hcommitted : db'.committed = c.state.committed)
    (hi : Stage key bodies beginFailed lockFailed db' i p)
    (hother : ∀ j, j ≠ i → db'.own j = c.state.own j ∧
      (c.state.holder key = some j → db'.holder key = some j))
    (hl : ∀ x ∈ l, commits x = true → x ∈ c.log i) :
    Serial key bodies beginFailed lockFailed s
      ⟨Function.update c.prog i p, Function.update c.log i l, db'⟩ := by
  refine ⟨hcommitted ▸ h.history, fun j => ?_, fun j ⟨x, hx, hdone⟩ => ?_⟩
  · by_cases hj : j = i
    · subst hj
      simpa using hi
    · simp only [Function.update_of_ne hj]
      exact (h.stages j).frame (hother j hj).1 fun held => ⟨(hother j hj).2 held, hcommitted⟩
  · rw [hcommitted]
    by_cases hj : j = i
    · subst hj
      simp only [Function.update_self] at hx
      exact h.done j ⟨x, hl x hx hdone, hdone⟩
    · simp only [Function.update_of_ne hj] at hx
      exact h.done j ⟨x, hx, hdone⟩

omit [DecidableEq ι] [Atomic E A σ] [Inhabited A] in
theorem mem_of_commits (hx : commits x = false) : ∀ y ∈ x :: l, commits y = true → y ∈ l := by
  intro y hy hdone
  refine (List.mem_cons.mp hy).resolve_left fun he => ?_
  rw [he, hx] at hdone
  cases hdone

theorem Serial.commit (h : Serial key bodies beginFailed lockFailed s c)
    (held : c.state.holder key = some i)
    (hexec : Executes bodies c.state.committed (c.state.view i)) :
    Serial key bodies beginFailed lockFailed s
      ⟨Function.update c.prog i (SessionOp.closing i r), Function.update c.log i l,
        c.state.close i (c.state.view i)⟩ := by
  have htrans := Relation.TransGen.tail' h.history hexec
  refine ⟨htrans.to_reflTransGen, fun j => ?_, fun _ _ => htrans⟩
  by_cases hj : j = i
  · subst hj
    simpa using .closing r
  · simp only [Function.update_of_ne hj]
    refine (h.stages j).frame (close_own_of_ne _ _ hj) fun hheld => ?_
    exact absurd (Option.some.inj (held.symm.trans hheld)).symm hj

variable (key bodies beginFailed lockFailed) in
def Starts (i : ι) (p : Prog (SessionOp ι κ ε E) (Except ε α)) : Prop :=
  ∃ body, bodies i body ∧ p = transaction beginFailed lockFailed i key body

/-- A session that is lost is rolled back. -/
def lost (i : ι) (db : Sessions ι κ σ) : Sessions ι κ σ := db.close i db.committed

theorem Serial.step [DecidableEq κ] (h : Serial key bodies beginFailed lockFailed s c)
    (hstarts : ∀ i p, starts i p → Starts key bodies beginFailed lockFailed i p)
    (hstep : Team.Step starts lost waiting c c') :
    Serial key bodies beginFailed lockFailed s c' := by
  cases hstep with
  | start i r p hprog hp =>
    obtain ⟨body, hbody, rfl⟩ := hstarts i p hp
    exact h.move rfl (.start body hbody) (fun _ _ => ⟨rfl, id⟩) nofun
  | crash i r =>
    exact h.move rfl (.rest r) (fun j hj => ⟨close_own_of_ne _ _ hj, close_holder hj⟩) nofun
  | call i op k as hprog guard =>
    have hstage := h.stages i
    rw [hprog] at hstage
    generalize hp : Prog.call op k = p at hstage
    cases hstage with
    | rest r => cases hp
    | start body hbody =>
      cases hp
      simp only [Effect.exec, Atomic.step, SessionOp.step]
      cases (as.headD default).refuse with
      | some e => exact h.move rfl (.rest _) (fun _ _ => ⟨rfl, id⟩) (mem_of_commits rfl)
      | none =>
        refine h.move rfl (.locking body hbody (Function.update_self ..)) (fun j hj => ⟨?_, id⟩)
          (mem_of_commits rfl)
        exact Function.update_of_ne hj ..
    | locking body hbody own =>
      cases hp
      have hgranted : (lock i key : SessionOp ι κ ε E _).Granted (as.headD default) c.state := guard
      simp only [Effect.exec, Atomic.step, SessionOp.step]
      cases hrefuse : (as.headD default).refuse with
      | some e => exact h.move rfl (.closing _) (fun _ _ => ⟨rfl, id⟩) (mem_of_commits rfl)
      | none =>
        simp only [Granted, hrefuse, Option.isSome_none, Bool.false_eq_true, false_or] at hgranted
        refine h.move rfl (.inside body body hbody (Function.update_self ..) ?_) (fun j hj => ⟨rfl, ?_⟩)
          (mem_of_commits rfl)
        · rw [view, own]
          exact .refl
        · -- the lock was free, or the session's own
          intro hheld
          rcases hgranted with hfree | hmine
          · exact absurd (hheld.symm.trans hfree) nofun
          · exact absurd (Option.some.inj (hheld.symm.trans hmine)) hj
    | inside body p hbody held reaches =>
      cases p with
      | call op' k' =>
        cases hp
        refine h.move rfl (.inside body _ hbody held ?_) (fun j hj => ⟨?_, id⟩) (mem_of_commits rfl)
        · simp only [Effect.exec, Atomic.step, SessionOp.step, view, Function.update_self]
          exact .step (as.headD default).answer reaches
        · exact Function.update_of_ne hj ..
      | ret r =>
        cases r with
        | error e =>
          cases hp
          exact h.move rfl (.rest _) (fun j hj => ⟨close_own_of_ne _ _ hj, close_holder hj⟩)
            (mem_of_commits rfl)
        | ok a =>
          cases hp
          have hexec : Executes bodies c.state.committed (c.state.view i) := by
            obtain ⟨as, has⟩ := reaches.run
            have hrun := has []
            rw [List.append_nil] at hrun
            exact ⟨i, body, hbody, as, a, hrun⟩
          simp only [Effect.exec, Atomic.step, SessionOp.step]
          cases (as.headD default).refuse with
          | none => exact h.commit held hexec
          | some e =>
            cases (as.headD default).applied with
            | true => exact h.commit held hexec
            | false =>
              exact h.move rfl (.closing _) (fun j hj => ⟨close_own_of_ne _ _ hj, close_holder hj⟩)
                (mem_of_commits rfl)
    | closing r =>
      cases hp
      exact h.move rfl (.rest r) (fun j hj => ⟨close_own_of_ne _ _ hj, close_holder hj⟩)
        (mem_of_commits rfl)

/-- Transactions under one lock: in every interleaving of any number of them, what is committed is
what some of their bodies, executed one after the other, make of the state at the start; and once a
commit has succeeded, there is at least one of them. -/
theorem serial [DecidableEq κ]
    (hstarts : ∀ i p, starts i p → Starts key bodies beginFailed lockFailed i p)
    (hrun : Team.Run starts lost waiting (.idle r { committed := s }) c) :
    Serial key bodies beginFailed lockFailed s c := by
  induction hrun with
  | refl => exact ⟨.refl, fun _ => .rest r, fun _ ⟨_, hx, _⟩ => nomatch hx⟩
  | tail _ hstep ih => exact ih.step hstarts hstep

end runs
end serial

end Sessions

end Kindling
