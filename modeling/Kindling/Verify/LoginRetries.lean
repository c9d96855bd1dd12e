import Kindling.Verify.Principals

/-!
# Logins after a failed login

The first external login of a user creates the user, the organizations and the identity in separate
statements. After a failure the next login does not find the identity, which is written last, and stops
at the user of the failed one.
-/

namespace Kindling

open Fallible

def Unavailable : Except Err α → Prop
  | .ok _ => False
  | .error e => e.root = .unavailable

theorem unavailable_wrap : Unavailable (r.mapError (·.wrap c)) ↔ Unavailable r := by
  cases r with
  | ok a => exact .rfl
  | error e => exact .rfl

def WritesFail : Prog.Guard AuthOp AuthAnswer AuthDB := fun _ op as _ =>
  match op with
  | .query _ => (as.headD default).fail = false
  | _ => True

/-- If a user is created, this is what fails. -/
def CreationFails : Prog.Guard AuthOp AuthAnswer AuthDB := fun _ op as _ =>
  op.createsUser = true → (as.headD default).fail = true

def NoFailures : Prog.Guard AuthOp AuthAnswer AuthDB := fun _ _ as _ => (as.headD default).fail = false

instance : Decidable (Unavailable r) :=
  match r with
  | .ok _ => .isFalse id
  | .error e => inferInstanceAs (Decidable (e.root = .unavailable))

instance : Decidable (WritesFail β op as db) := by
  unfold WritesFail
  induction op using AuthOp.casesOn <;> infer_instance

instance : Decidable (CreationFails β op as db) :=
  inferInstanceAs (Decidable (op.createsUser = true → (as.headD default).fail = true))

/-! ## Calls -/

section calls
variable {db : AuthDB}

theorem one_available : ¬ Unavailable (one o) := by
  cases o with
  | none => exact fun h => by cases h
  | some a => exact fun h => h

theorem one_eq_error (h : one o = .error e) : o = none := by
  cases o with
  | none => rfl
  | some a => cases h

theorem AuthQuery.eval_available (q : AuthQuery β) (now : Time) : ¬ Unavailable (q.eval now db) := by
  cases q with
  | userCount | organizationsForUser | organizationsListAll | orgProviderConnectionListByProvider =>
    exact fun h => h
  | _ => exact one_available

theorem insertingUnless_available [DecidableEq κ] {key : ρ → κ} {taken : Bool} {t : Table κ ρ key}
    {x : ρ} : ¬ Unavailable (insertingUnless taken t x).1 := by
  unfold insertingUnless inserting
  split
  · exact fun h => by cases h
  split
  · exact fun h => h
  · exact fun h => by cases h

theorem AuthStmt.exec_available (s : AuthStmt β) (now : Time) : ¬ Unavailable (s.exec now db).1 := by
  cases s with
  | userCreate | organizationCreate | userSessionCreate | userApiKeyCreate | userIdentityCreate =>
    exact insertingUnless_available
  | organizationMembershipCreate m =>
    have hinsert : ¬ Unavailable (insertingUnless false db.memberships m).1 :=
      insertingUnless_available
    exact hinsert
  | organizationMembershipUpdatePendingStatus | userSessionUpdateCurrentOrg => exact one_available
  | userIdentityUpdateByID =>
    dsimp only [exec]
    split
    · exact fun h => by cases h
    · exact one_available
  | _ => exact fun h => h

theorem authQuery_ensures :
    Ensures WritesFail (authQuery q) (fun r db' => db' = db ∧ ∃ now, r = q.eval now db) db :=
  .ofCall fun as hg => ⟨rfl, (as.headD default).now, if_neg (by rw [hg]; decide)⟩

theorem write_step (h : a.fail = false) :
    AuthOp.step (.write s) a db = s.exec a.now db := if_neg (by rw [h]; decide)

theorem authStmt_ensures :
    Ensures WritesFail (authStmt s) (fun r db' => Unavailable r → db' = db) db := by
  refine .ofCall fun as _ => ?_
  change Unavailable (AuthOp.step (.write s) (as.headD default) db).1 →
    (AuthOp.step (.write s) (as.headD default) db).2 = db
  dsimp only [AuthOp.step]
  split
  · exact fun _ => rfl
  · exact fun h => absurd h (s.exec_available _)

theorem context_ensures {p : Go AuthOp β} {c : String}
    {db' : AuthDB} (h : Ensures G p (fun r s => Unavailable r → s = db) db') :
    Ensures G (context c p) (fun r s => Unavailable r → s = db) db' :=
  .wrap (h.mono fun _ _ hr hu => hr (unavailable_wrap.mp hu))

theorem updateIdentity_ensures {id : Id} :
    Ensures WritesFail (updateIdentity id identity) (fun r db' => Unavailable r → db' = db) db :=
  .bind authStmt_ensures (fun _ _ _ => .pure fun h => h.elim) fun _ _ h => h

theorem linkExternalIdentity_ensures :
    Ensures WritesFail (linkExternalIdentity user provider identity)
      (fun r db' => Unavailable r → db' = db) db := by
  unfold linkExternalIdentity
  split
  · exact .throw fun h => by cases h
  refine .attempt_bind authQuery_ensures fun r db' hr => ?_
  obtain ⟨rfl, now, hr⟩ := hr
  have havailable : ¬ Unavailable r := hr ▸ AuthQuery.eval_available _ now
  split
  · split
    · exact .throw fun h => by cases h
    · exact context_ensures updateIdentity_ensures
  split
  · exact .throw fun h => absurd h havailable
  refine .attempt_bind authQuery_ensures fun r db' hr => ?_
  obtain ⟨rfl, now, hr⟩ := hr
  have havailable : ¬ Unavailable r := hr ▸ AuthQuery.eval_available _ now
  split
  · exact context_ensures updateIdentity_ensures
  split
  · exact .throw fun h => absurd h havailable
  refine .bind (Q := fun _ db'' => db'' = db') (.ofTotal fun _ _ => rfl) (fun id db'' h => ?_)
    fun _ _ h _ => h
  subst h
  exact .bind (context_ensures authStmt_ensures) (fun _ _ _ => .pure fun h => h.elim) fun _ _ h => h

theorem enrolUser_ensures :
    Ensures WritesFail (enrolUser cfg user provider identity orgLogins)
      (fun r db' => Unavailable r → db'.users = db.users ∧ db'.identities = db.identities) db := by
  have hrest : ∀ {T : List AuthPart} {β : Type} {p : Go AuthOp β}, Uses (WritesOnly T) p →
      .users ∉ T → .identities ∉ T → ∀ {db' : AuthDB},
      db'.users = db.users ∧ db'.identities = db.identities →
      Ensures WritesFail p (fun _ s => s.users = db.users ∧ s.identities = db.identities) db' := by
    intro T β p huses husers hidentities db' hdb'
    refine huses.ensures ?_ hdb'
    intro γ op hop as s hs
    exact ⟨(hop.users_step husers _).trans hs.1, (hop.identities_step hidentities _).trans hs.2⟩
  refine .bind (hrest joinByDomain_writes (by decide) (by decide) ⟨rfl, rfl⟩) (fun _ _ h => ?_)
    fun _ _ h _ => h
  refine .bind (hrest createPersonalOrganization_writes (by decide) (by decide) h)
    (fun _ _ h => ?_) fun _ _ h _ => h
  refine .bind (hrest joinGitHubOrganizations_writes (by decide) (by decide) h)
    (fun _ db' h => ?_) fun _ _ h _ => h
  refine .bind (context_ensures linkExternalIdentity_ensures)
    (fun _ _ _ => .pure fun h => h.elim) fun _ s hs hu => ?_
  rw [hs hu]
  exact h

end calls

/-! ## What a failed login leaves -/

section failed
variable {provider : Provider} {identity : Identity} {db : AuthDB}

/-- The row that a login looks up first. -/
def AuthDB.identity? (db : AuthDB) (provider : Provider) (identity : Identity) :
    Option UserIdentity :=
  db.identities.rows.find? fun i =>
    i.provider == provider && i.providerSubject == trimSpace identity.subject

/-- There is a user with the address of the identity, but not the identity. -/
def Registered (provider : Provider) (identity : Identity) (db : AuthDB) : Prop :=
  (∃ u ∈ db.users.rows, u.email = normalizeEmail identity.email) ∧
    db.identity? provider identity = none

/-- When a write fails, either no user has been created, and the database is as it was, or the user is
there without the identity. -/
def Aftermath (provider : Provider) (identity : Identity) (p : Go AuthOp User)
    (as : List AuthAnswer) (db : AuthDB) : Prop :=
  Meets WritesFail p as db → Unavailable (p.outcome as db).value →
    Meets CreationFails p as db ∧ (p.outcome as db).state = db ∨
    ¬ Meets CreationFails p as db ∧ Registered provider identity (p.outcome as db).state

theorem meets_creationFails (huses : Uses (WritesOnly T) p) (hT : .users ∉ T) (as : List AuthAnswer)
    (db : AuthDB) : Meets CreationFails p as db := by
  refine (huses.complies (I := fun _ => True) (fun γ op hop _ _ _ => ⟨?_, trivial⟩) trivial).meets as
  exact fun hcreates => absurd hcreates (hop.not_createsUser hT)

theorem Aftermath.of_ensures (huses : Uses (WritesOnly T) p) (hT : .users ∉ T)
    (h : Ensures WritesFail p (fun r db' => Unavailable r → db' = db) db) (as : List AuthAnswer) :
    Aftermath provider identity p as db :=
  fun hm hu => .inl ⟨meets_creationFails huses hT as db, h.outcome hm hu⟩

theorem Aftermath.throw (he : e.root ≠ .unavailable) (as : List AuthAnswer) :
    Aftermath provider identity (MonadExcept.throw e) as db := fun _ hu => absurd hu he

/-- Calls that only read come first. -/
theorem Aftermath.bind {p : Go AuthOp α} {f : α → Go AuthOp User} {P : Except Err α → Prop}
    (huses : Uses (WritesOnly []) p)
    (hp : Ensures WritesFail p (fun r db' => db' = db ∧ P r) db) (hP : ∀ r, P r → ¬ Unavailable r)
    (hf : ∀ a as, P (.ok a) → Aftermath provider identity (f a) as db) (as : List AuthAnswer) :
    Aftermath provider identity (p >>= f) as db := by
  intro hm hu
  obtain ⟨hm, hrest⟩ := meets_bind.mp hm
  obtain ⟨hstate, hr⟩ := hp.outcome hm
  have hcreates := meets_creationFails huses List.not_mem_nil as db
  rw [meets_bind, and_iff_right hcreates]
  rw [outcome_bind] at hu ⊢
  rcases hout : p.outcome as db with ⟨_ | a, db', as'⟩
  · rw [hout] at hu hr
    exact absurd hu (hP _ hr)
  · rw [hout] at hu hr hrest hstate
    obtain rfl : db' = db := hstate
    have hafter := hf a as' hr (hrest a rfl) hu
    refine hafter.imp (fun h => ⟨fun b hb => ?_, h.2⟩) fun h => ⟨fun hall => h.1 (hall a rfl), h.2⟩
    cases hb
    exact h.1

theorem attempt_query_ensures :
    Ensures WritesFail (attempt (authQuery q))
      (fun r db' => db' = db ∧ ∃ now, r = .ok (q.eval now db)) db :=
  authQuery_ensures.attempt.mono fun _ _ ⟨_, hr, hdb, now, h⟩ => ⟨hdb, now, h ▸ hr⟩

theorem userCreate_exec :
    (AuthStmt.userCreate u).exec now db = (.error (.of .uniqueViolation), db) ∨
      (∀ v ∈ db.users.rows, v.email ≠ u.email) ∧ ∃ t, db.users.insert? u = some t ∧
          (AuthStmt.userCreate u).exec now db = (.ok u, { db with users := t }) := by
  dsimp only [AuthStmt.exec, insertingUnless]
  split
  · exact .inl rfl
  next htaken =>
  unfold inserting
  split
  · next t ht =>
    refine .inr ⟨fun v hv hemail => htaken (List.any_eq_true.mpr ⟨v, hv, ?_⟩), t, ht, rfl⟩
    exact beq_iff_eq.mpr hemail
  · exact .inl rfl

theorem outcome_userCreate :
    (context c (authStmt (.userCreate u))).outcome as db =
      ⟨(AuthOp.step (.write (.userCreate u)) (as.headD default) db).1.mapError (.wrap c),
        (AuthOp.step (.write (.userCreate u)) (as.headD default) db).2, as.tail⟩ := rfl

theorem Aftermath.create (hemail : u.email = normalizeEmail identity.email)
    (hidentity : db.identity? provider identity = none) (cfg : AuthConfig) (orgLogins : List String)
    (as : List AuthAnswer) :
    Aftermath provider identity (context c (authStmt (.userCreate u)) >>= fun user =>
      enrolUser cfg user provider identity orgLogins) as db := by
  intro hm hu
  have hcall : Meets CreationFails (context c (authStmt (.userCreate u))) as db ↔
      (as.headD default).fail = true :=
    (meets_ofCall.trans ⟨fun h => h rfl, fun h _ => h⟩)
  have hrest := (meets_bind.mp hm).2
  rw [meets_bind, hcall]
  rw [outcome_bind] at hu ⊢
  rw [outcome_userCreate] at hu hrest ⊢
  cases hfail : (as.headD default).fail with
  | true =>
    have hstep : AuthOp.step (.write (.userCreate u)) (as.headD default) db =
        (.error (.of .unavailable), db) := if_pos hfail
    rw [hstep]
    exact .inl ⟨⟨rfl, fun _ h => by cases h⟩, rfl⟩
  | false =>
    rw [write_step hfail] at hu hrest ⊢
    refine .inr ⟨fun h => Bool.false_ne_true h.1, ?_⟩
    rcases userCreate_exec with hexec | ⟨-, t, ht, hexec⟩
    · rw [hexec] at hu
      cases hu
    · rw [hexec] at hu hrest ⊢
      obtain ⟨husers, hidentities⟩ := enrolUser_ensures.outcome (hrest u rfl) hu
      constructor
      · refine ⟨u, ?_, hemail⟩
        have hmem : u ∈ t := (Table.mem_insert? ht).mpr (.inr rfl)
        exact husers ▸ hmem
      · exact (congrArg (·.rows.find? fun i => i.provider == provider &&
          i.providerSubject == trimSpace identity.subject) hidentities).trans hidentity

theorem resolveExternalLogin_aftermath :
    Aftermath provider identity (resolveExternalLogin cfg provider identity orgLogins) as db := by
  have hqueries : ∀ {β : Type} (q : AuthQuery β) r,
      (∃ now, r = .ok (q.eval now db)) → ¬ Unavailable r := by
    rintro β q r ⟨now, rfl⟩ h
    exact h
  refine .bind (.attempt authQuery_writes) attempt_query_ensures (hqueries _) (fun r as hr => ?_) as
  obtain ⟨now, hr⟩ := hr
  obtain rfl := Except.ok.inj hr
  have havailable : ¬ Unavailable (AuthQuery.eval now db
      (.userIdentityByProviderSubject provider (trimSpace identity.subject))) :=
    AuthQuery.eval_available _ now
  split
  · next row hrow =>
    refine .of_ensures (T := [.identities]) ?_ (by decide) ?_ as
    · exact .bind (context_uses linkExternalIdentity_writes) fun _ => authQuery_writes
    · refine .bind (context_ensures linkExternalIdentity_ensures) (fun _ db' _ => ?_) fun _ _ h => h
      refine authQuery_ensures.mono fun r _ hr hu => ?_
      obtain ⟨-, now, rfl⟩ := hr
      exact absurd hu (AuthQuery.eval_available _ now)
  next e he =>
  rw [he] at havailable
  split
  · exact .throw havailable as
  next hrows =>
  split
  · exact .throw (fun h => by cases h) as
  refine .bind (.attempt authQuery_writes) attempt_query_ensures (hqueries _) (fun r as hr => ?_) as
  obtain ⟨now', hr⟩ := hr
  obtain rfl := Except.ok.inj hr
  have havailable' : ¬ Unavailable (AuthQuery.eval now' db (.userByEmail identity.email)) :=
    AuthQuery.eval_available _ now'
  split
  · exact .throw (fun h => by cases h) as
  next e' he' =>
  rw [he'] at havailable'
  split
  · exact .throw havailable' as
  have hcount : Ensures WritesFail (context "count users" (authQuery .userCount))
      (fun r db' => db' = db ∧ ¬ Unavailable r) db := by
    refine .wrap (authQuery_ensures.mono fun r _ hr => ⟨hr.1, fun hu => ?_⟩)
    obtain ⟨-, now, rfl⟩ := hr
    exact AuthQuery.eval_available _ now (unavailable_wrap.mp hu)
  refine .bind (context_uses authQuery_writes) hcount (fun _ h => h) (fun n as _ => ?_) as
  refine .bind (.ofTotal (by exact trivial))
    (.ofTotal fun _ _ => ⟨rfl, fun h => h⟩) (fun _ h => h) (fun id as _ => ?_) as
  exact .create rfl (one_eq_error he) cfg orgLogins as

/-- The user of an earlier login is in the way of the next one. -/
theorem registered_fails (h : Registered provider identity db) :
    Ensures NoFailures (resolveExternalLogin cfg provider identity orgLogins)
      (fun r _ => ∃ e, r = .error e) db := by
  obtain ⟨⟨v, hv, hemail⟩, hidentity⟩ := h
  have hquery : ∀ {β : Type} (q : AuthQuery β), Ensures NoFailures (authQuery q)
      (fun r db' => db' = db ∧ ∃ now, r = q.eval now db) db := by
    intro β q
    refine authQuery_ensures.guard_mono fun γ op as s hg => ?_
    cases op with
    | query => exact hg
    | _ => trivial
  refine .attempt_bind (hquery _) fun r db' hr => ?_
  obtain ⟨rfl, now, rfl⟩ := hr
  split
  · next row hrow =>
    have hrow : one (db'.identity? provider identity) = .ok row := hrow
    rw [hidentity] at hrow
    cases hrow
  split
  · exact .throw ⟨_, rfl⟩
  split
  · exact .throw ⟨_, rfl⟩
  refine .attempt_bind (hquery _) fun r db'' hr => ?_
  obtain ⟨rfl, -⟩ := hr
  split
  · exact .throw ⟨_, rfl⟩
  split
  · exact .throw ⟨_, rfl⟩
  refine .bind (Q := fun _ s => s = db'') (.wrap ((hquery _).mono fun _ _ h => h.1)) (fun n s hs => ?_)
    fun e _ _ => ⟨e, rfl⟩
  subst hs
  refine .bind (Q := fun _ s' => s' = s) (.ofTotal fun _ _ => rfl) (fun id s' hs => ?_)
    fun e _ _ => ⟨e, rfl⟩
  subst hs
  -- the address is taken
  refine .bind (Q := fun r _ => ∃ e, r = .error e) (.wrap (.ofCall fun as hg => ?_)) (fun _ _ h => ?_)
    fun _ _ h => ?_
  · change ∃ e, (AuthOp.step (.write (.userCreate _)) (as.headD default) s').1.mapError _ = .error e
    rw [write_step hg]
    rcases userCreate_exec with hexec | ⟨hfree, -⟩
    · rw [hexec]
      exact ⟨_, rfl⟩
    · exact absurd hemail (hfree v hv)
  · obtain ⟨e, he⟩ := h
    cases he
  · obtain ⟨e, he⟩ := h
    exact ⟨e, congrArg _ (Except.error.inj he)⟩

end failed

def firstLogin : Go AuthOp User :=
  resolveExternalLogin plainConfig .oidc { subject := "7", email := "a@acme.io", login := "a" } []

/-- The given number of calls work, and the next one fails. -/
def failingAt (n : Nat) : List AuthAnswer := List.replicate n default ++ [{ fail := true }]

def firstUser : User where
  id := 1000
  email := "a@acme.io"
  passwordHash := disabledPasswordHash
  displayName := "a"
  isPlatformAdmin := true

end Kindling
