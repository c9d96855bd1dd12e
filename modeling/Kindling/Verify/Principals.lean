import Kindling.Auth.Footprint
import Kindling.Deploy.Executions

/-!
# Principals

The middleware looks up the membership behind a session or an API key, and not its status. Sessions and
API keys are for active members, except where a session is switched to another organization or a key is
created for one.
-/

namespace Kindling

open Fallible

variable {db : AuthDB} {key : ρ → κ} {t : Table κ ρ key}

def AuthDB.activeMember (db : AuthDB) (user org : Id) : Bool :=
  db.membershipStatus user org == some .active

namespace ActiveMembers

/-- A request makes a session, and goes on as a principal, for a user and an organization in which it
has found the user to be active. -/
def allows (m : List (Id × Id)) : AuthOp β → Prop
  | .withPrincipal p => (p.userId, p.orgId) ∈ m
  | .write (.userSessionCreate s) => (s.userId, s.currentOrganizationId) ∈ m
  | _ => True

def possible : AuthOp β → β → Prop
  | .query (.userByID id), .ok u => u.id = id
  | _, _ => True

/-- Sessions and API keys are for active members, and organizations are listed for active members. -/
def next (m : List (Id × Id)) : AuthOp β → β → List (Id × Id)
  | .query (.userSessionByTokenHash _), .ok s => (s.userId, s.currentOrganizationId) :: m
  | .query (.userApiKeyByTokenHash _), .ok k => (k.userId, k.organizationId) :: m
  | .query (.organizationsForUser u), .ok orgs => orgs.map (fun o => (u, o.id)) ++ m
  | _, _ => m

end ActiveMembers

@[simps] def activeMembers : Typestate AuthOp (List (Id × Id)) :=
  ⟨[], ActiveMembers.allows, fun _ op v => ActiveMembers.possible op v, ActiveMembers.next⟩

/-! ## Programs -/

section programs
variable {m : List (Id × Id)}

attribute [local simp] ActiveMembers.allows ActiveMembers.possible.eq_def ActiveMembers.next.eq_def Yields
  Except.mapError authQuery authStmt context discard

/-- The call neither makes a session nor goes on as a principal. -/
def Free (β : Type) (op : AuthOp β) : Prop := ∀ m, ActiveMembers.allows m op

theorem follows_free (h : Uses Free p) (m : List (Id × Id)) :
    activeMembers.Follows p (fun _ _ => True) m :=
  Typestate.Admits.of_uses (P := activeMembers) h m

theorem follows_bind (h : Uses Free p)
    (hf : ∀ a m, activeMembers.Follows (f a) (fun _ _ => True) m) :
    activeMembers.Follows (p >>= f) (fun _ _ => True) m :=
  .andThen (follows_free h m) (fun a m' _ => hf a m')

theorem chooseOrganization_follows (user : Id) (orgs : List Organization)
    (chosen : Option (Organization × OrgRole)) :
    activeMembers.Follows (chooseOrganization user orgs chosen)
      (Yields (fun r m' => m' = m ∧ ∀ o role, r = some (o, role) → o ∈ orgs ∨ chosen = some (o, role))
        fun _ => True) m := by
  induction orgs generalizing chosen with
  | nil => simp [chooseOrganization]
  | cons candidate rest ih =>
    simp [chooseOrganization]
    intro mem _
    refine (ih _).mono fun r m' hr => ?_
    cases r with
    | error e => trivial
    | ok r =>
      refine ⟨hr.1, fun o role h => ?_⟩
      rcases hr.2 o role h with hmem | hchosen
      · exact .inl (.inr hmem)
      · cases chosen <;> simp_all

theorem issueSessionForUser_follows :
    activeMembers.Follows (issueSessionForUser cfg user) (fun _ _ => True) m := by
  simp [issueSessionForUser]
  intro orgs
  refine (chooseOrganization_follows user.id orgs none).mono fun r m' hr => ?_
  rcases r with e | (_ | ⟨org, role⟩)
  · trivial
  · trivial
  obtain ⟨rfl, hmem⟩ := hr
  have horg : org ∈ orgs := (hmem org role rfl).resolve_right nofun
  simp
  exact .inl ⟨org, horg, rfl⟩

/-! ### The middleware -/

theorem admitSession_follows : activeMembers.Follows (admitSession cfg r) (fun _ _ => True) m := by
  unfold admitSession
  split
  · exact .throw trivial
  · cases sessionToken _ <;> simp +contextual [byToken, memberOf, withPrincipal]

theorem middleware_follows (cfg : AuthConfig) (r : Request) :
    activeMembers.Follows (middleware cfg r) (fun _ _ => True) m := by
  cases h : bearerValue r.authorization <;>
    simp +contextual [middleware, h, admitAPIKey, admitWorker, admitSession_follows, byToken, memberOf,
      withPrincipal]

/-! ### The handlers -/

attribute [local simp] Free

theorem free_of_writes (h : Uses (WritesOnly T) p) (hsessions : .sessions ∉ T)
    (hcontext : .context ∉ T) : Uses Free p := by
  refine h.mono fun γ op hop m => ?_
  cases op with
  | write s =>
    cases s with
    | userSessionCreate => exact absurd hop hsessions
    | _ => trivial
  | withPrincipal => exact absurd hop hcontext
  | _ => trivial

@[simp] theorem requireTrustedOrigin_free : Uses Free (requireTrustedOrigin cfg r) :=
  free_of_writes requireTrustedOrigin_writes (by decide) (by decide)

@[simp] theorem mustPrincipal_free : Uses Free (mustPrincipal p) :=
  free_of_writes mustPrincipal_writes (by decide) (by decide)

@[simp] theorem requireOrgAdmin_free : Uses Free (requireOrgAdmin p) :=
  free_of_writes requireOrgAdmin_writes (by decide) (by decide)

theorem authBootstrap_follows (cfg : AuthConfig) (r : Request) (email password displayName : String)
    (m : List (Id × Id)) :
    activeMembers.Follows (authBootstrap cfg r email password displayName) (fun _ _ => True) m := by
  cases h : cfg.hashPassword password <;> simp [authBootstrap, h, issueSessionForUser_follows]

theorem authLogin_follows (cfg : AuthConfig) (email password : String) (m : List (Id × Id)) :
    activeMembers.Follows (authLogin cfg email password) (fun _ _ => True) m := by
  simp [authLogin]
  intros
  exact issueSessionForUser_follows.mono (by simp)

theorem authLogout_free (cfg : AuthConfig) (r : Request) : Uses Free (authLogout cfg r) := by
  cases h : sessionTokenHashFromRequest cfg r <;> simp [authLogout, h]

theorem authSwitchOrg_free (cfg : AuthConfig) (r : Request) (p : Option Principal) (org : String) :
    Uses Free (authSwitchOrg cfg r p org) := by
  cases h : cfg.parseUUID (trimSpace org) <;> simp [authSwitchOrg, h]
  all_goals exact fun _ _ p _ => by cases p.sessionId <;> simp

theorem authChangePassword_free (cfg : AuthConfig) (r : Request) (p : Option Principal)
    (current new : String) : Uses Free (authChangePassword cfg r p current new) := by
  cases h : sessionTokenHashFromRequest cfg r <;> simp [authChangePassword, h]

theorem resolveExternalLogin_free :
    Uses Free (resolveExternalLogin cfg provider identity orgLogins) := by
  have hlink (user) : Uses Free (linkExternalIdentity user provider identity) :=
    free_of_writes linkExternalIdentity_writes (by decide) (by decide)
  have henrol (user) : Uses Free (enrolUser cfg user provider identity orgLogins) :=
    free_of_writes enrolUser_writes (by decide) (by decide)
  simp [resolveExternalLogin, hlink, henrol]

theorem externalAuthCallback_follows (cfg : AuthConfig) (cb : ExternalAuthCallback)
    (m : List (Id × Id)) :
    activeMembers.Follows (externalAuthCallback cfg cb) (fun _ _ => True) m := by
  refine follows_bind (context_uses (free_of_writes readExternalAuthState_writes (by decide)
    (by decide))) (fun s m => ?_)
  refine follows_bind (context_uses (free_of_writes callbackIdentity_writes (by decide)
    (by decide))) (fun r m => ?_)
  dsimp only
  split
  · exact follows_free (context_uses (free_of_writes linkCallback_writes (by decide) (by decide))) m
  · refine follows_bind (context_uses resolveExternalLogin_free) (fun user m => ?_)
    exact .bind (Q := fun _ _ => True) (.wrap issueSessionForUser_follows
      (fun _ _ h => h) fun _ _ h => h) (fun _ _ _ => .pure trivial) fun _ _ h => h

theorem decidePendingMember_free (cfg : AuthConfig) (p : Option Principal) (user code : String)
    (status : MembershipStatus) : Uses Free (decidePendingMember cfg p user code status) := by
  cases h : cfg.parseUUID (trimSpace user) <;> simp [decidePendingMember, h]

theorem createAPIKey_free (cfg : AuthConfig) (p : Option Principal) (name org : String) :
    Uses Free (createAPIKey cfg p name org) := by
  cases h : cfg.parseUUID (trimSpace org) <;>
    simp [createAPIKey, apiKeyOrganization, newAPIKeyToken, h]

theorem revokeAPIKey_free (cfg : AuthConfig) (p : Option Principal) (id : String) :
    Uses Free (revokeAPIKey cfg p id) := by
  cases h : cfg.parseUUID (trimSpace id) <;> simp [revokeAPIKey, h]

theorem authCreateSuperuser_free :
    Uses Free (authCreateSuperuser cfg email password displayName revokeOthers) := by
  simp [authCreateSuperuser, ensureSuperuser]

theorem handle_follows (cfg : AuthConfig) (r : Request) (p : Option Principal) (e : Endpoint)
    (m : List (Id × Id)) : activeMembers.Follows (e.handle cfg r p) (fun _ _ => True) m := by
  cases e with
  | bootstrap email password displayName =>
    exact .bind (authBootstrap_follows cfg r email password displayName m)
      (fun _ _ _ => .pure trivial) fun _ _ h => h
  | login email password =>
    exact .bind (authLogin_follows cfg email password m) (fun _ _ _ => .pure trivial) fun _ _ h => h
  | logout => exact follows_free (authLogout_free cfg r) m
  | switchOrg org => exact follows_free (authSwitchOrg_free cfg r p org) m
  | changePassword current new => exact follows_free (authChangePassword_free cfg r p current new) m
  | externalAuthCallback cb => exact externalAuthCallback_follows cfg cb m
  | approvePendingMember user => exact follows_free (decidePendingMember_free cfg p user _ _) m
  | rejectPendingMember user => exact follows_free (decidePendingMember_free cfg p user _ _) m
  | createAPIKey name org => exact follows_free (createAPIKey_free cfg p name org) m
  | revokeAPIKey id => exact follows_free (revokeAPIKey_free cfg p id) m
  | other => exact .pure trivial

theorem authStarts_follow (i : AuthActor) (p : Prog AuthOp (Except Err Unit))
    (hp : authStarts cfg i p) : activeMembers.Admits p (fun _ _ => True) [] := by
  cases i with
  | request n =>
    obtain ⟨r, e, rfl⟩ := hp
    exact Typestate.Follows.bind (middleware_follows cfg r)
      (fun a m _ => handle_follows cfg r a.principal? e m) fun _ _ h => h
  | command n =>
    obtain ⟨email, password, displayName, revokeOthers, rfl⟩ := hp
    exact follows_free authCreateSuperuser_free []
  | setup =>
    obtain ⟨setup, rfl⟩ := hp
    exact follows_free (.ofTotal fun _ => by exact trivial) []

end programs

/-! ## Statements -/

theorem activeMember_iff : db.activeMember user org = true ↔
    ∃ m, db.memberships.find? (org, user) = some m ∧ m.status = .active := by
  simp [AuthDB.activeMember, AuthDB.membershipStatus]

/-- An active member stays one: only pending memberships change their status, and none is deleted. -/
theorem AuthStmt.activeMember_exec (s : AuthStmt β) (now : Time)
    (h : db.activeMember user org = true) : (s.exec now db).2.activeMember user org = true := by
  obtain ⟨m, hm, hactive⟩ := activeMember_iff.mp h
  cases s with
  | userIdentityUpdateByID =>
    dsimp only [exec]
    split
    · exact h
    · exact h
  | organizationMembershipCreate x => exact activeMember_iff.mpr ⟨m, find?_inserting hm, hactive⟩
  | organizationMembershipUpsertOwner o u =>
    refine activeMember_iff.mpr ?_
    dsimp only [exec]
    cases hins : db.memberships.insert?
        ({ organizationId := o, userId := u, role := .owner } : OrganizationMembership) with
    | none =>
      have hfind := db.memberships.find?_updateKey (o, u) (fun _ => true) ({ · with role := .owner })
        (fun _ => rfl) (org, user)
      rw [hm] at hfind
      refine ⟨_, hfind, ?_⟩
      split
      · exact hactive
      · exact hactive
    | some t => exact ⟨m, Table.find?_insert?_of_some hins hm, hactive⟩
  | organizationMembershipUpsert o u role =>
    refine activeMember_iff.mpr ?_
    dsimp only [exec]
    cases hins : db.memberships.insert?
        ({ organizationId := o, userId := u, role } : OrganizationMembership) with
    | none => exact ⟨m, hm, hactive⟩
    | some t => exact ⟨m, Table.find?_insert?_of_some hins hm, hactive⟩
  | organizationMembershipUpdatePendingStatus o u status =>
    have hfind := db.memberships.find?_updateKey (o, u) (·.status == .pending) ({ · with status })
      (fun _ => rfl) (org, user)
    rw [hm, Option.map_some, if_neg (by simp [hactive])] at hfind
    exact activeMember_iff.mpr ⟨m, hfind, hactive⟩
  | _ => exact h

/-- The users that a statement gives access to an organization. -/
def AuthStmt.grants (db : AuthDB) : AuthStmt β → List (Id × Id)
  | userSessionCreate s => [(s.userId, s.currentOrganizationId)]
  | userSessionUpdateCurrentOrg id org => ((db.sessions.find? id).map fun s => (s.userId, org)).toList
  | userApiKeyCreate k => [(k.userId, k.organizationId)]
  | _ => []

structure GrantsActive (db : AuthDB) : Prop where
  sessions : ∀ s ∈ db.sessions, db.activeMember s.userId s.currentOrganizationId = true
  apiKeys : ∀ k ∈ db.apiKeys, db.activeMember k.userId k.organizationId = true

theorem mem_insertingUnless [DecidableEq κ] {taken : Bool}
    {x y : ρ} (h : y ∈ (insertingUnless taken t x).2) : y ∈ t ∨ y = x := by
  unfold insertingUnless inserting at h
  split at h
  · exact .inl h
  split at h
  · next ht => exact (Table.mem_insert? ht).mp h
  · exact .inl h

theorem mem_insertingUnless_of_mem [DecidableEq κ] {taken : Bool} {x y : ρ} (h : y ∈ t) :
    y ∈ (insertingUnless taken t x).2 := by
  unfold insertingUnless inserting
  split
  · exact h
  split
  · next ht => exact (Table.mem_insert? ht).mpr (.inl h)
  · exact h

theorem AuthStmt.sessions_exec {s : AuthStmt β} {now : Time} (h : GrantsActive db)
    (hs : ∀ g ∈ s.grants db, db.activeMember g.1 g.2 = true)
    {x : UserSession} (hx : x ∈ (s.exec now db).2.sessions) :
    db.activeMember x.userId x.currentOrganizationId = true := by
  cases s with
  | userIdentityUpdateByID =>
    dsimp only [exec] at hx
    split at hx
    · exact h.sessions x hx
    · exact h.sessions x hx
  | userSessionCreate y =>
    rcases mem_insertingUnless hx with hold | rfl
    · exact h.sessions x hold
    · exact hs _ List.mem_cons_self
  | userSessionDelete | userSessionDeleteAllForUser | userSessionDeleteOthersByTokenHash =>
    exact h.sessions x (Table.mem_keep.mp hx).1
  | userSessionUpdateCurrentOrg id org =>
    have hx : x ∈ (db.sessions.updateKey id (fun _ => true)
      ({ · with currentOrganizationId := org }) fun _ => rfl).2 := hx
    obtain ⟨y, hy, rfl⟩ := Table.mem_updateKey.mp hx
    split
    · next hid =>
      have hkey : y.id = id := by simpa using hid
      have hfind : db.sessions.find? id = some y := hkey ▸ Table.find?_of_mem hy
      exact hs (y.userId, org) (by simp [grants, hfind])
    · exact h.sessions y hy
  | _ => exact h.sessions x hx

theorem AuthStmt.apiKeys_exec {s : AuthStmt β} {now : Time} (h : GrantsActive db)
    (hs : ∀ g ∈ s.grants db, db.activeMember g.1 g.2 = true)
    {x : UserApiKey} (hx : x ∈ (s.exec now db).2.apiKeys) :
    db.activeMember x.userId x.organizationId = true := by
  cases s with
  | userIdentityUpdateByID =>
    dsimp only [exec] at hx
    split at hx
    · exact h.apiKeys x hx
    · exact h.apiKeys x hx
  | userApiKeyCreate y =>
    rcases mem_insertingUnless hx with hold | rfl
    · exact h.apiKeys x hold
    · exact hs _ List.mem_cons_self
  | userApiKeyRevoke id user =>
    have hx : x ∈ (db.apiKeys.updateKey id (fun k => k.userId == user && k.revokedAt.isNone)
      ({ · with revokedAt := some now }) fun _ => rfl).2 := hx
    obtain ⟨y, hy, rfl⟩ := Table.mem_updateKey.mp hx
    split
    · exact h.apiKeys y hy
    · exact h.apiKeys y hy
  | _ => exact h.apiKeys x hx

theorem AuthStmt.grantsActive_exec {s : AuthStmt β} (h : GrantsActive db)
    (hs : ∀ g ∈ s.grants db, db.activeMember g.1 g.2 = true) : GrantsActive (s.exec now db).2 where
  sessions _ hx := s.activeMember_exec now (sessions_exec h hs hx)
  apiKeys _ hx := s.activeMember_exec now (apiKeys_exec h hs hx)

/-! ## Runs -/

/-- A request gives access to an organization, other than the one it is authenticated for or those it
has been told to be the user's, only to an active member. -/
def GrantsToActive (log : List (Call AuthOp)) : Prog.Guard AuthOp AuthAnswer AuthDB :=
  fun _ op _ db =>
    match op with
    | .write s => ∀ g ∈ s.grants db, g ∉ activeMembers.after log → db.activeMember g.1 g.2 = true
    | _ => True

instance : Decidable (GrantsToActive log β op as db) := by
  unfold GrantsToActive
  induction op using AuthOp.casesOn <;> infer_instance

section calls
variable {m : List (Id × Id)} {op : AuthOp β} {a : AuthAnswer} {db : AuthDB}

theorem possible_step : ActiveMembers.possible op (op.step a db).1 := by
  cases op with
  | query q =>
    cases q with
    | userByID id =>
      dsimp only [AuthOp.step, AuthQuery.eval]
      split
      · trivial
      · cases hu : db.users.find? id with
        | none => trivial
        | some u => exact Table.find?_key hu
    | _ => trivial
  | _ => trivial

theorem activeMember_step (h : db.activeMember user org = true) :
    (op.step a db).2.activeMember user org = true := by
  cases op with
  | write s =>
    dsimp only [AuthOp.step]
    split
    · exact h
    · exact s.activeMember_exec a.now h
  | _ => exact h

theorem next_active (h : GrantsActive db) (hg : g ∈ ActiveMembers.next m op (op.step a db).1) :
    g ∈ m ∨ (op.step a db).2.activeMember g.1 g.2 = true := by
  cases op with
  | query q =>
    cases q with
    | userSessionByTokenHash token =>
      dsimp only [AuthOp.step, AuthQuery.eval] at hg ⊢
      split at hg
      · exact .inl hg
      cases hfind : db.sessions.rows.find?
          fun s => s.tokenHash == token && decide (a.now < s.expiresAt) with
      | none =>
        rw [hfind] at hg
        exact .inl hg
      | some s =>
        rw [hfind] at hg
        rcases List.mem_cons.mp hg with rfl | hold
        · exact .inr (h.sessions s (List.mem_of_find?_eq_some hfind))
        · exact .inl hold
    | userApiKeyByTokenHash token =>
      dsimp only [AuthOp.step, AuthQuery.eval] at hg ⊢
      split at hg
      · exact .inl hg
      cases hfind : db.apiKeys.rows.find? fun k => k.tokenHash == token && k.revokedAt.isNone with
      | none =>
        rw [hfind] at hg
        exact .inl hg
      | some k =>
        rw [hfind] at hg
        rcases List.mem_cons.mp hg with rfl | hold
        · exact .inr (h.apiKeys k (List.mem_of_find?_eq_some hfind))
        · exact .inl hold
    | organizationsForUser user =>
      dsimp only [AuthOp.step] at hg ⊢
      split at hg
      · exact .inl hg
      refine (List.mem_append.mp hg).symm.imp id fun hmem => ?_
      obtain ⟨o, ho, rfl⟩ := List.mem_map.mp hmem
      exact (List.mem_filter.mp (List.mem_mergeSort.mp ho)).2
    | _ => exact .inl hg
  | _ => exact .inl hg

end calls

theorem grants_active (cfg : AuthConfig) : Team.Keeps (authStarts cfg) (fun _ db => db)
    (fun _ => GrantsToActive) (fun _ => activeMembers) (fun _ _ => True)
    fun M db => GrantsActive db ∧ ∀ i, ∀ g ∈ M i, db.activeMember g.1 g.2 = true := by
  refine .of_facts authStarts_follow (fun _ => rfl) ?_ fun _ _ h => ⟨h, fun _ => id⟩
  intro i log db β op as hallows hguard h hknown
  have hgrants : GrantsActive (op.step (as.headD default) db).2 := by
    cases op with
    | write s =>
      dsimp only [AuthOp.step]
      split
      · exact h
      · refine AuthStmt.grantsActive_exec h fun g hg => ?_
        by_cases hseen : g ∈ activeMembers.after log
        · exact hknown g hseen
        · exact hguard g hg hseen
    | configure => exact ⟨h.sessions, h.apiKeys⟩
    | _ => exact h
  exact ⟨possible_step, hgrants, fun _ => activeMember_step, fun _ => next_active h⟩

/-- The principal with whom a call goes on. -/
def AuthOp.principal? : AuthOp β → Option Principal
  | .withPrincipal p => some p
  | _ => none

/-- The principal with whom the middleware is about to let a request go on. -/
def AuthTeam.accepts (c : AuthTeam) (i : AuthActor) : Option Principal :=
  match c.prog i with
  | .call op _ => op.principal?
  | .ret _ => none

/-- **Principals.** Let any requests interleave, statement by statement, with superuser commands and
changes of the setup, from a state in which sessions and API keys are for active members, such that
sessions are switched to, and API keys created for, another organization only while the user is an
active member of it. Whenever the middleware goes on with a principal for an organization, the user
is an active member. -/
theorem principal_active (cfg : AuthConfig) (db : AuthDB) (hdb : GrantsActive db) (c : AuthTeam)
    (hc : Team.Run (authStarts cfg) (fun _ db => db) (fun _ => GrantsToActive)
      (Team.idle (.ok ()) db) c)
    (i : AuthActor) (p : Principal) (hp : c.accepts i = some p) :
    c.state.membershipStatus p.userId p.orgId = some .active := by
  obtain ⟨hfollow, -, hknown⟩ := (grants_active cfg).run ((grants_active cfg).follow_idle _ db)
    ⟨hdb, fun _ _ h => nomatch h⟩ hc
  have hi := hfollow i
  unfold AuthTeam.accepts at hp
  cases hprog : c.prog i with
  | ret r =>
    rw [hprog] at hp
    cases hp
  | call op k =>
    rw [hprog] at hp hi
    cases op with
    | withPrincipal q =>
      cases hp
      exact eq_of_beq (hknown i (p.userId, p.orgId) hi.1)
    | _ => cases hp

/-- Organization 1 owns a domain of addresses, and organization 2 is connected to GitHub. -/
def twoOrganizations : AuthDB where
  organizations := ⟨[{ id := 1, name := "acme", slug := "acme", emailDomain := "acme.io" },
    { id := 2, name := "guild", slug := "guild" }], by decide⟩
  setup :=
    { providers := [{ provider := .github, enabled := true, clientId := "id"
                      clientSecretCiphertext := [1] }]
      connections := [{ organizationId := 2, externalSlug := "guild" }] }

def plainConfig : AuthConfig where
  hashSessionToken := id
  hashAPIKeyToken _ := []
  hashWorkerAgentToken _ := []
  hashPassword := .ok
  checkPassword := (· == ·)
  parseURL s := some ⟨"http", s, s⟩
  parseUUID s := if s == "1" then some 1 else none
  letterOrDigit := Char.isAlphanum
  splitHostPort _ := none

/-- The login of a user with an address of organization 1 who is in organization 2 at GitHub. -/
def guildLogin : Prog AuthOp (Except Err Unit) :=
  serveRequest plainConfig { method := .get, path := "/api/auth/providers/github/callback" }
    (.externalAuthCallback { provider := .github, cookie := some { provider := .github, state := "s" }
                             state := "s", code := "c" })

/-- The cookie of the session that the login issues. -/
def guildCookie : String := String.ofList (List.replicate 64 '0')

def switchToAcme : Prog AuthOp (Except Err Unit) := serveRequest plainConfig
    { method := .post, path := "/api/auth/switch-org", host := "api", origin := "http://api"
      cookie := some guildCookie } (.switchOrg "1")

def listProjects : Prog AuthOp (Except Err Unit) :=
  serveRequest plainConfig { method := .get, path := "/api/projects", cookie := some guildCookie }
    .other

def guildTeam : AuthTeam :=
  (((Team.idle (.ok ()) twoOrganizations).begin (.request 0) guildLogin).begin (.request 1)
    switchToAcme).begin (.request 2) listProjects

theorem guildTeam_run :
    Team.Run (authStarts plainConfig) (fun _ db => db) G (.idle (.ok ()) twoOrganizations)
      guildTeam :=
  ((Team.Run.begin (AuthActor.request 0) _ rfl ⟨_, _, rfl⟩).trans
    (Team.Run.begin (.request 1) _ rfl ⟨_, _, rfl⟩)).trans
    (Team.Run.begin (AuthActor.request 2) _ rfl ⟨_, _, rfl⟩)

def loginTurns : List (AuthActor × List AuthAnswer) :=
  List.replicate 23 (.request 0, [{ random := List.replicate 32 0
                                    identity := { subject := "7", email := "a@acme.io", login := "a" }
                                    orgLogins := ["guild"] }])

/-- The user has logged in, and the second request is about to be accepted. -/
def guildMember : AuthTeam := guildTeam.turns (loginTurns ++ List.replicate 4 (.request 2, []))

/-- The same after the session has been switched to organization 1. -/
def pendingMember : AuthTeam := guildTeam.turns
    (loginTurns ++ List.replicate 8 (.request 1, []) ++ List.replicate 4 (.request 2, []))

theorem guildMember_active : guildMember.state.membershipStatus 1000 2 = some .active :=
  principal_active plainConfig twoOrganizations ⟨nofun, nofun⟩ guildMember
    (guildTeam_run.trans (Team.Run.turns (by decide +kernel))) (.request 2)
    { userId := 1000, email := "a@acme.io", platformAdmin := true, orgId := 2, orgRole := .member
      sessionId := some 1000, apiKeyId := none } (by decide +kernel)

/-- A member whose membership is pending is accepted as a principal for the organization. -/
theorem pending_member_accepted :
    Team.Run (authStarts plainConfig) (fun _ db => db) (fun _ _ => Prog.unguarded)
      (Team.idle (.ok ()) twoOrganizations) pendingMember ∧
    (AuthTeam.accepts pendingMember (.request 2)).map (fun p => (p.userId, p.orgId)) = some (1000, 1) ∧
    pendingMember.state.membershipStatus 1000 1 = some .pending :=
  ⟨guildTeam_run.trans (Team.Run.turns (Team.turnsMeet_unguarded _ _)), by decide +kernel,
    by decide +kernel⟩

end Kindling
