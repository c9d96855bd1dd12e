import Kindling.Verify.Principals

/-!
# The first platform admin

The bootstrap and the first external login make their user a platform admin because they have counted
no users, in an earlier statement than the one that creates the user.
-/

namespace Kindling

open Fallible

def AuthDB.platformAdmin (db : AuthDB) (user : Id) : Prop :=
  ∃ u ∈ db.users.rows, u.id = user ∧ u.isPlatformAdmin = true

instance (db : AuthDB) : Decidable (db.platformAdmin user) := by
  unfold AuthDB.platformAdmin
  infer_instance

namespace NoUsers

def allows (none : Bool) : AuthOp β → Prop
  | .write (.userCreate u) => u.isPlatformAdmin = true → none = true
  | .write (.userSetPlatformAdmin ..) => False
  | _ => True

def next (none : Bool) : AuthOp β → β → Bool
  | .query .userCount, .ok n => n == 0
  | _, _ => none

end NoUsers

/-- Whether a request has counted no users. -/
@[simps] def noUsers : Typestate AuthOp Bool := ⟨false, NoUsers.allows, fun _ _ _ => True, NoUsers.next⟩

section programs
variable {m : Bool}

theorem noUsers_follows (h : Uses (WritesOnly T) p) (hT : .users ∉ T) (m : Bool) :
    noUsers.Follows p (fun _ _ => True) m := by
  refine Typestate.Admits.of_uses (h.mono fun γ op hop m => ?_) m
  cases op with
  | write s =>
    cases s with
    | userCreate | userSetPlatformAdmin => exact absurd hop hT
    | _ => trivial
  | _ => trivial

theorem noUsers_bind (h : Uses (WritesOnly T) p) (hT : .users ∉ T)
    (hf : ∀ a m, noUsers.Follows (f a) (fun _ _ => True) m) (m : Bool) :
    noUsers.Follows (p >>= f) (fun _ _ => True) m :=
  .andThen (noUsers_follows h hT m) (fun a m' _ => hf a m')

attribute [local simp] NoUsers.allows NoUsers.next.eq_def Yields Except.mapError authQuery authStmt context

theorem authBootstrap_counts :
    noUsers.Follows (authBootstrap cfg r email password displayName) (fun _ _ => True) m := by
  have hsession {m} (user : User) : noUsers.Follows (issueSessionForUser cfg user) (fun _ _ => True) m :=
    noUsers_follows issueSessionForUser_writes (by decide) m
  cases h : cfg.hashPassword password <;> simp +contextual [authBootstrap, h, hsession]

theorem resolveExternalLogin_counts :
    noUsers.Follows (resolveExternalLogin cfg provider identity orgLogins) (fun _ _ => True) m := by
  have henrol {m} (user : User) :
      noUsers.Follows (enrolUser cfg user provider identity orgLogins) (fun _ _ => True) m :=
    noUsers_follows enrolUser_writes (by decide) m
  simp [resolveExternalLogin, henrol]
  exact fun row => (noUsers_follows linkExternalIdentity_writes (by decide) m).mono (by simp)

theorem externalAuthCallback_counts :
    noUsers.Follows (externalAuthCallback cfg cb) (fun _ _ => True) m := by
  refine noUsers_bind (context_uses readExternalAuthState_writes) List.not_mem_nil (fun s m => ?_) m
  refine noUsers_bind (context_uses callbackIdentity_writes) List.not_mem_nil (fun r m => ?_) m
  dsimp only
  split
  · exact noUsers_follows (context_uses linkCallback_writes) (by decide) m
  · refine .bind (Q := fun _ _ => True) (.wrap resolveExternalLogin_counts (fun _ _ h => h)
      fun _ _ h => h) (fun user m' _ => ?_) fun _ _ h => h
    exact noUsers_bind (context_uses issueSessionForUser_writes) (by decide)
      (fun _ _ => .pure trivial) m'

end programs

/-- Bootstrap requests and external logins, and what changes the setup of providers. -/
def firstStarts (cfg : AuthConfig) : AuthActor → Prog AuthOp (Except Err Unit) → Prop
  | .request _, p =>
    (∃ r email password displayName,
      p = serveRequest cfg r (.bootstrap email password displayName)) ∨
    ∃ r cb, p = serveRequest cfg r (.externalAuthCallback cb)
  | .command _, _ => False
  | .setup, p => authStarts cfg .setup p

theorem firstStarts_follow (i : AuthActor) (p : Prog AuthOp (Except Err Unit))
    (hp : firstStarts cfg i p) : noUsers.Admits p (fun _ _ => True) false := by
  cases i with
  | request n =>
    rcases hp with ⟨r, email, password, displayName, rfl⟩ | ⟨r, cb, rfl⟩
    · refine noUsers_bind middleware_writes (by decide) (fun _ m => ?_) false
      exact .bind authBootstrap_counts (fun _ _ _ => .pure trivial) fun _ _ h => h
    · exact noUsers_bind middleware_writes (by decide)
        (fun _ _ => externalAuthCallback_counts) false
  | command n => exact hp.elim
  | setup =>
    obtain ⟨setup, rfl⟩ := hp
    exact noUsers_follows (T := [.setup]) (.ofTotal List.mem_cons_self) (by decide) false

/-! ## Statements -/

/-- A request that has counted no users creates its user while there is still none. -/
def StillNone (log : List (Call AuthOp)) : Prog.Guard AuthOp AuthAnswer AuthDB :=
  fun _ op _ db => op.createsUser = true → noUsers.after log = true → db.users.rows = []

instance : Decidable (StillNone log β op as db) :=
  inferInstanceAs (Decidable (op.createsUser = true → noUsers.after log = true → db.users.rows = []))

section calls
variable {m : Bool} {db : AuthDB}

theorem platformAdmin_update {id : Id} (hid : ∀ u, (f u).id = u.id)
    (hflag : ∀ u, (f u).isPlatformAdmin = u.isPlatformAdmin) (a : Id) :
    ({ db with users := (db.users.updateKey id (fun _ => true) f hid).2 } : AuthDB).platformAdmin a ↔
      db.platformAdmin a := by
  have hsame : ∀ u : User, (if u.id = id && true then f u else u).id = u.id ∧
      (if u.id = id && true then f u else u).isPlatformAdmin = u.isPlatformAdmin := by
    intro u
    split
    · exact ⟨hid u, hflag u⟩
    · exact ⟨rfl, rfl⟩
  have hmem : ∀ v, v ∈ (db.users.updateKey id (fun _ => true) f hid).2 ↔
      ∃ u ∈ db.users, (if u.id = id && true then f u else u) = v := fun _ => Table.mem_updateKey
  constructor
  · rintro ⟨v, hv, hva, hadmin⟩
    obtain ⟨u, hu, rfl⟩ := (hmem v).mp hv
    exact ⟨u, hu, (hsame u).1 ▸ hva, (hsame u).2 ▸ hadmin⟩
  · rintro ⟨u, hu, hua, hadmin⟩
    exact ⟨_, (hmem _).mpr ⟨u, hu, rfl⟩, (hsame u).1.trans hua, (hsame u).2.trans hadmin⟩

theorem AuthStmt.admins_exec (now : Time) (hs : NoUsers.allows m (.write s))
    (hnone : AuthOp.createsUser (.write s) = true → m = true → db.users.rows = []) :
    (∀ a, (s.exec now db).2.platformAdmin a ↔ db.platformAdmin a) ∨
      db.users.rows = [] ∧ ∃ u, ∀ v ∈ (s.exec now db).2.users.rows, v = u := by
  by_cases hpart : s.part = .users
  · cases s with
    | userCreate u =>
      cases hadmin : u.isPlatformAdmin with
      | true =>
        have hempty := hnone rfl (hs hadmin)
        refine .inr ⟨hempty, u, fun v hv => ?_⟩
        rcases mem_insertingUnless hv with hold | hnew
        · have hold : v ∈ db.users.rows := hold
          rw [hempty] at hold
          cases hold
        · exact hnew
      | false =>
        refine .inl fun a => ⟨?_, ?_⟩
        · rintro ⟨v, hv, hid, hflag⟩
          rcases mem_insertingUnless hv with hold | rfl
          · exact ⟨v, hold, hid, hflag⟩
          · rw [hadmin] at hflag
            cases hflag
        · rintro ⟨v, hv, hid, hflag⟩
          exact ⟨v, mem_insertingUnless_of_mem hv, hid, hflag⟩
    | userUpdatePasswordHash => exact .inl (platformAdmin_update (fun _ => by rfl) fun _ => rfl)
    | userUpdateDisplayName => exact .inl (platformAdmin_update (fun _ => by rfl) fun _ => rfl)
    | userSetPlatformAdmin => exact hs.elim
    | _ => cases hpart
  · refine .inl fun a => ?_
    unfold AuthDB.platformAdmin
    rw [AuthStmt.users_exec hpart]

/-- The platform admins of an earlier state still are, and there is at most one. -/
structure SoleAdmin (before db : AuthDB) : Prop where
  stays : ∀ a, before.platformAdmin a → db.platformAdmin a
  sole : ∀ a b, db.platformAdmin a → db.platformAdmin b → a = b

theorem SoleAdmin.step {before : AuthDB} (h : SoleAdmin before db) (hop : NoUsers.allows m op)
    (hnone : op.createsUser = true → m = true → db.users.rows = []) (a : AuthAnswer) :
    SoleAdmin before (op.step a db).2 := by
  cases op with
  | write s =>
    dsimp only [AuthOp.step]
    split
    · exact h
    · rcases AuthStmt.admins_exec a.now hop hnone with hsame | ⟨hempty, u, hu⟩
      · exact ⟨fun b hb => (hsame b).mpr (h.stays b hb),
          fun b c hb hc => h.sole b c ((hsame b).mp hb) ((hsame c).mp hc)⟩
      · constructor
        · intro b hb
          obtain ⟨v, hv, -⟩ := h.stays b hb
          rw [hempty] at hv
          cases hv
        · rintro b c ⟨v, hv, rfl, -⟩ ⟨v', hv', rfl, -⟩
          rw [hu v hv, hu v' hv']
  | configure setup => exact ⟨h.stays, h.sole⟩
  | _ => exact h

end calls

theorem soleAdmin_keeps (cfg : AuthConfig) (before : AuthDB) :
    Team.Keeps (firstStarts cfg) (fun _ db => db) (fun _ => StillNone) (fun _ => noUsers)
      (fun _ _ => True) fun _ db => SoleAdmin before db where
  starts := firstStarts_follow
  rest _ := trivial
  call M i log db β op as hM hallows hguard h := by
    refine ⟨trivial, h.step hallows (fun hcreates hnone => ?_) _⟩
    exact hguard hcreates (hM ▸ hnone)
  start _ _ _ _ h := h
  crash _ _ _ h := h

/-- **One platform admin.** Let bootstrap requests and external logins interleave, statement by
statement, with each other and with changes of the setup, on a system without users, such that a
request that has counted no users creates its user while there is still none. Whoever is a platform
admin at one time and whoever is one later are the same user. -/
theorem one_platform_admin (cfg : AuthConfig) (db : AuthDB) (hdb : db.users.rows = [])
    (c c' : AuthTeam)
    (hc : Team.Run (firstStarts cfg) (fun _ db => db) (fun _ => StillNone)
      (Team.idle (.ok ()) db) c)
    (hc' : Team.Run (firstStarts cfg) (fun _ db => db) (fun _ => StillNone) c c')
    (a b : Id) (ha : c.state.platformAdmin a) (hb : c'.state.platformAdmin b) : a = b := by
  have hnone : ∀ a, ¬ db.platformAdmin a := by
    rintro a ⟨u, hu, -⟩
    rw [hdb] at hu
    cases hu
  obtain ⟨hfollow, hsole⟩ := (soleAdmin_keeps cfg db).run ((soleAdmin_keeps cfg db).follow_idle _ db)
    ⟨fun _ h => h, fun a _ h => absurd h (hnone a)⟩ hc
  obtain ⟨-, hlater⟩ := (soleAdmin_keeps cfg c.state).run hfollow ⟨fun _ h => h, hsole.sole⟩ hc'
  exact hlater.sole a b (hlater.stays a ha) hb

def bootstrapAs (email : String) : Prog AuthOp (Except Err Unit) := serveRequest plainConfig
    { method := .post, path := "/api/auth/bootstrap", peerLoopback := some true }
    (.bootstrap email "password" "")

def freshSystem : AuthDB where
  organizations := .single { id := bootstrapOrganizationID, name := "default", slug := "default" }

def bootstrapTeam : AuthTeam :=
  ((Team.idle (.ok ()) freshSystem).begin (.request 0) (bootstrapAs "a@acme.io")).begin (.request 1)
    (bootstrapAs "b@acme.io")

theorem bootstrapTeam_run :
    Team.Run (firstStarts plainConfig) (fun _ db => db) G (.idle (.ok ()) freshSystem)
      bootstrapTeam :=
  (Team.Run.begin (.request 0) _ rfl (.inl ⟨_, _, _, _, rfl⟩)).trans
    (Team.Run.begin (AuthActor.request 1) _ rfl (.inl ⟨_, _, _, _, rfl⟩))

/-- The second bootstrap counts the users before the first one has created its user. -/
def bothCounted : AuthTeam :=
  bootstrapTeam.turns [(.request 0, []), (.request 1, []), (.request 0, []), (.request 0, []),
    (.request 1, [{ uuid := 1001 }]), (.request 1, [])]

/-- The second bootstrap counts the users after the first one has created its user. -/
def oneCounted : AuthTeam :=
  bootstrapTeam.turns [(.request 0, []), (.request 0, []), (.request 0, []), (.request 1, [])]

theorem first_bootstrap_sole :
    oneCounted.state.platformAdmin 1000 ∧ ¬ oneCounted.state.platformAdmin 1001 := by
  have hrun : Team.Run (firstStarts plainConfig) (fun _ db => db) (fun _ => StillNone)
      (Team.idle (.ok ()) freshSystem) oneCounted :=
    bootstrapTeam_run.trans (Team.Run.turns (by decide +kernel))
  have hfirst : oneCounted.state.platformAdmin 1000 := by decide +kernel
  refine ⟨hfirst, fun hsecond => ?_⟩
  have heq := one_platform_admin plainConfig freshSystem rfl oneCounted oneCounted hrun .refl
    1000 1001 hfirst hsecond
  exact absurd heq (by decide)

/-- Two bootstraps that both count no users make two platform admins. -/
theorem two_platform_admins :
    Team.Run (firstStarts plainConfig) (fun _ db => db) (fun _ _ => Prog.unguarded)
      (Team.idle (.ok ()) freshSystem) bothCounted ∧
    bothCounted.state.platformAdmin 1000 ∧ bothCounted.state.platformAdmin 1001 :=
  ⟨bootstrapTeam_run.trans (Team.Run.turns (Team.turnsMeet_unguarded _ _)), by decide +kernel,
    by decide +kernel⟩

end Kindling
