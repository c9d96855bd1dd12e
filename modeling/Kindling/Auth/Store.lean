import Kindling.Deploy.Effects
import Kindling.Preview.Naming

/-!
# Users, organizations and sessions

The tables behind the API's authentication, their statements, and the other calls that the handlers
make: randomness, the clock, and the exchange of a code for an external identity. Passwords and
tokens are compared and hashed by functions of the configuration, about which nothing is assumed.
-/

namespace Kindling

/-! ## Rows -/

abbrev Bytes := List UInt8

structure User where
  id : Id
  email : String
  passwordHash : String := ""
  displayName : String := ""
  isPlatformAdmin : Bool := false
  deriving DecidableEq, Repr

structure Organization where
  id : Id
  name : String := ""
  slug : String := ""
  emailDomain : String := ""
  deriving DecidableEq, Repr

inductive OrgRole | owner | admin | member
  deriving DecidableEq, Repr

inductive MembershipStatus | active | pending | rejected
  deriving DecidableEq, Repr

structure OrganizationMembership where
  organizationId : Id
  userId : Id
  role : OrgRole
  status : MembershipStatus := .active
  deriving DecidableEq, Repr

/-- The columns of the unique constraint. -/
def OrganizationMembership.key (m : OrganizationMembership) : Id × Id := (m.organizationId, m.userId)

structure UserSession where
  id : Id
  userId : Id
  tokenHash : Bytes
  currentOrganizationId : Id
  expiresAt : Time
  deriving DecidableEq, Repr

structure UserApiKey where
  id : Id
  userId : Id
  organizationId : Id
  name : String := ""
  tokenHash : Bytes
  revokedAt : Option Time := none
  deriving DecidableEq, Repr

inductive Provider | github | oidc
  deriving DecidableEq, Repr

structure AuthProvider where
  provider : Provider
  enabled : Bool := false
  clientId : String := ""
  clientSecretCiphertext : Bytes := []
  issuerUrl : String := ""
  deriving DecidableEq, Repr

structure UserIdentity where
  id : Id
  userId : Id
  provider : Provider
  providerSubject : String
  providerLogin : String := ""
  providerEmail : String := ""
  providerDisplayName : String := ""
  deriving DecidableEq, Repr

structure OrgProviderConnection where
  organizationId : Id
  externalSlug : String
  deriving DecidableEq, Repr

structure WorkerAgent where
  id : Id
  organizationId : Id
  apiTokenHash : Bytes
  deriving DecidableEq, Repr

/-- What the login at a provider says about its user. -/
structure Identity where
  subject : String := ""
  email : String := ""
  login : String := ""
  displayName : String := ""
  deriving DecidableEq, Repr

/-- What an administrator configures, which the handlers here only read. -/
structure AuthSetup where
  providers : List AuthProvider := []
  connections : List OrgProviderConnection := []
  workerAgents : List WorkerAgent := []
  trustedOrigins : List String := []
  deriving DecidableEq, Repr

structure AuthDB where
  users : Table Id User (·.id) := .empty
  organizations : Table Id Organization (·.id) := .empty
  memberships : Table (Id × Id) OrganizationMembership (·.key) := .empty
  sessions : Table Id UserSession (·.id) := .empty
  apiKeys : Table Id UserApiKey (·.id) := .empty
  identities : Table Id UserIdentity (·.id) := .empty
  setup : AuthSetup := {}

def AuthDB.membershipStatus (db : AuthDB) (user org : Id) : Option MembershipStatus :=
  (db.memberships.find? (org, user)).map (·.status)

inductive AuthQuery : Type → Type
  | userCount : AuthQuery Nat
  | userByEmail (email : String) : AuthQuery User
  | userByID (id : Id) : AuthQuery User
  | organizationByID (id : Id) : AuthQuery Organization
  | organizationsForUser (user : Id) : AuthQuery (List Organization)
  | organizationsListAll : AuthQuery (List Organization)
  | organizationFindByEmailDomain (domain : String) : AuthQuery Organization
  | organizationMembershipByUserAndOrg (user org : Id) : AuthQuery OrganizationMembership
  | userSessionByTokenHash (tokenHash : Bytes) : AuthQuery UserSession
  | userApiKeyByTokenHash (tokenHash : Bytes) : AuthQuery UserApiKey
  | workerAgentByAPITokenHash (tokenHash : Bytes) : AuthQuery WorkerAgent
  | userIdentityByProviderSubject (provider : Provider) (subject : String) : AuthQuery UserIdentity
  | userIdentityByUserAndProvider (user : Id) (provider : Provider) : AuthQuery UserIdentity
  | authProviderByProvider (provider : Provider) : AuthQuery AuthProvider
  | orgProviderConnectionListByProvider : AuthQuery (List OrgProviderConnection)

def byName (l : List Organization) : List Organization := l.mergeSort fun a b => decide (a.name ≤ b.name)

def AuthQuery.eval (now : Time) (db : AuthDB) : AuthQuery β → Except Err β
  | userCount => .ok db.users.rows.length
  | userByEmail email => one (db.users.rows.find? fun u => lower u.email == lower email)
  | userByID id => one (db.users.find? id)
  | organizationByID id => one (db.organizations.find? id)
  | organizationsForUser user =>
    .ok (byName (db.organizations.rows.filter fun o =>
      db.membershipStatus user o.id == some .active))
  | organizationsListAll => .ok (byName db.organizations.rows)
  | organizationFindByEmailDomain domain =>
    one (db.organizations.rows.find? fun o =>
      lower o.emailDomain == lower domain && o.emailDomain != "")
  -- whatever the status is; `OrganizationMembershipByUserAndOrgWithStatus` is the same statement
  | organizationMembershipByUserAndOrg user org => one (db.memberships.find? (org, user))
  | userSessionByTokenHash h =>
    one (db.sessions.rows.find? fun s => s.tokenHash == h && decide (now < s.expiresAt))
  | userApiKeyByTokenHash h =>
    one (db.apiKeys.rows.find? fun k => k.tokenHash == h && k.revokedAt.isNone)
  | workerAgentByAPITokenHash h => one (db.setup.workerAgents.find? (·.apiTokenHash == h))
  | userIdentityByProviderSubject p s =>
    one (db.identities.rows.find? fun i => i.provider == p && i.providerSubject == s)
  | userIdentityByUserAndProvider u p =>
    one (db.identities.rows.find? fun i => i.userId == u && i.provider == p)
  | authProviderByProvider p => one (db.setup.providers.find? (·.provider == p))
  | orgProviderConnectionListByProvider => .ok db.setup.connections

/-! ## Writes -/

inductive AuthStmt : Type → Type
  | userCreate (user : User) : AuthStmt User
  | userUpdatePasswordHash (id : Id) (hash : String) : AuthStmt Unit
  | userUpdateDisplayName (id : Id) (name : String) : AuthStmt Unit
  | userSetPlatformAdmin (id : Id) (admin : Bool) : AuthStmt Unit
  | organizationCreate (org : Organization) : AuthStmt Organization
  | organizationUpdateEmailDomain (id : Id) (domain : String) : AuthStmt Unit
  | organizationMembershipCreate (m : OrganizationMembership) : AuthStmt OrganizationMembership
  | organizationMembershipUpsertOwner (org user : Id) : AuthStmt Unit
  | organizationMembershipUpsert (org user : Id) (role : OrgRole) : AuthStmt Unit
  | organizationMembershipUpdatePendingStatus (org user : Id) (status : MembershipStatus) :
      AuthStmt OrganizationMembership
  | userSessionCreate (session : UserSession) : AuthStmt UserSession
  | userSessionDelete (id : Id) : AuthStmt Unit
  | userSessionDeleteAllForUser (user : Id) : AuthStmt Unit
  | userSessionDeleteOthersByTokenHash (user : Id) (tokenHash : Bytes) : AuthStmt Unit
  | userSessionUpdateCurrentOrg (id org : Id) : AuthStmt UserSession
  | userApiKeyCreate (key : UserApiKey) : AuthStmt UserApiKey
  | userApiKeyRevoke (id user : Id) : AuthStmt Unit
  | userIdentityCreate (identity : UserIdentity) : AuthStmt UserIdentity
  | userIdentityUpdateByID (id : Id) (subject login email displayName : String) :
      AuthStmt UserIdentity

/-- An insert next to unique columns other than the key. -/
def insertingUnless [DecidableEq κ] {key : ρ → κ} (taken : Bool) (t : Table κ ρ key) (x : ρ) :
    Except Err ρ × Table κ ρ key :=
  if taken then (.error (.of .uniqueViolation), t) else inserting t x

/-- Another identity of the same provider has the subject. -/
def subjectTaken (t : Table Id UserIdentity (·.id)) (id : Id) (provider : Provider)
    (subject : String) : Bool :=
  t.rows.any fun i => i.id != id && i.provider == provider && i.providerSubject == subject

section statements
variable (db : AuthDB)

def AuthDB.onUsers (r : Except Err β × Table Id User (·.id)) : Except Err β × AuthDB :=
  (r.1, { db with users := r.2 })

def AuthDB.onOrganizations (r : Except Err β × Table Id Organization (·.id)) :
    Except Err β × AuthDB :=
  (r.1, { db with organizations := r.2 })

def AuthDB.onMemberships (r : Except Err β × Table (Id × Id) OrganizationMembership (·.key)) :
    Except Err β × AuthDB :=
  (r.1, { db with memberships := r.2 })

def AuthDB.onSessions (r : Except Err β × Table Id UserSession (·.id)) : Except Err β × AuthDB :=
  (r.1, { db with sessions := r.2 })

def AuthDB.onApiKeys (r : Except Err β × Table Id UserApiKey (·.id)) : Except Err β × AuthDB :=
  (r.1, { db with apiKeys := r.2 })

def AuthDB.onIdentities (r : Except Err β × Table Id UserIdentity (·.id)) : Except Err β × AuthDB :=
  (r.1, { db with identities := r.2 })

end statements

def AuthStmt.exec (now : Time) (db : AuthDB) : AuthStmt β → Except Err β × AuthDB
  | userCreate u => db.onUsers (insertingUnless (db.users.rows.any (·.email == u.email)) db.users u)
  | userUpdatePasswordHash id hash =>
    db.onUsers (.ok (), (db.users.updateKey id (fun _ => true) ({ · with passwordHash := hash })
      fun _ => rfl).2)
  | userUpdateDisplayName id name =>
    db.onUsers (.ok (), (db.users.updateKey id (fun _ => true) ({ · with displayName := name })
      fun _ => rfl).2)
  | userSetPlatformAdmin id admin =>
    db.onUsers (.ok (), (db.users.updateKey id (fun _ => true) ({ · with isPlatformAdmin := admin })
      fun _ => rfl).2)
  | organizationCreate o =>
    db.onOrganizations
      (insertingUnless (db.organizations.rows.any (·.slug == o.slug)) db.organizations o)
  | organizationUpdateEmailDomain id domain =>
    db.onOrganizations (.ok (), (db.organizations.updateKey id (fun _ => true)
      ({ · with emailDomain := domain }) fun _ => rfl).2)
  | organizationMembershipCreate m => db.onMemberships (inserting db.memberships m)
  -- a conflict changes the role, and leaves the status as it is
  | organizationMembershipUpsertOwner org user =>
    db.onMemberships (.ok (),
      (db.memberships.insert? { organizationId := org, userId := user, role := .owner }).getD
        (db.memberships.updateKey (org, user) (fun _ => true) ({ · with role := .owner })
          fun _ => rfl).2)
  | organizationMembershipUpsert org user role =>
    db.onMemberships (.ok (),
      (db.memberships.insert? { organizationId := org, userId := user, role }).getD db.memberships)
  | organizationMembershipUpdatePendingStatus org user status =>
    db.onMemberships (returning (db.memberships.updateKey (org, user) (·.status == .pending)
      ({ · with status }) fun _ => rfl))
  | userSessionCreate s =>
    db.onSessions (insertingUnless (db.sessions.rows.any (·.tokenHash == s.tokenHash)) db.sessions s)
  | userSessionDelete id => db.onSessions (.ok (), db.sessions.keep (·.id != id))
  | userSessionDeleteAllForUser user => db.onSessions (.ok (), db.sessions.keep (·.userId != user))
  | userSessionDeleteOthersByTokenHash user h =>
    db.onSessions (.ok (), db.sessions.keep fun s => s.userId != user || s.tokenHash == h)
  | userSessionUpdateCurrentOrg id org =>
    db.onSessions (returning (db.sessions.updateKey id (fun _ => true)
      ({ · with currentOrganizationId := org }) fun _ => rfl))
  | userApiKeyCreate k =>
    db.onApiKeys (insertingUnless
      (db.apiKeys.rows.any fun x => x.tokenHash == k.tokenHash && x.revokedAt.isNone) db.apiKeys k)
  | userApiKeyRevoke id user =>
    db.onApiKeys (.ok (), (db.apiKeys.updateKey id (fun k => k.userId == user && k.revokedAt.isNone)
      ({ · with revokedAt := some now }) fun _ => rfl).2)
  | userIdentityCreate i =>
    db.onIdentities (insertingUnless
      (subjectTaken db.identities i.id i.provider i.providerSubject ||
        db.identities.rows.any fun x => x.userId == i.userId && x.provider == i.provider)
      db.identities i)
  | userIdentityUpdateByID id subject login email displayName =>
    if (db.identities.find? id).any fun i => subjectTaken db.identities id i.provider subject then
      (.error (.of .uniqueViolation), db)
    else
      db.onIdentities (returning (db.identities.updateKey id (fun _ => true)
        ({ · with providerSubject := subject, providerLogin := login, providerEmail := email
                  providerDisplayName := displayName }) fun _ => rfl))

/-- A user in an organization, on whose behalf a request is made. -/
structure Principal where
  userId : Id
  email : String
  platformAdmin : Bool
  orgId : Id
  orgRole : OrgRole
  /-- `none` for a request with an API key. -/
  sessionId : Option Id
  /-- `none` for a request with a session. -/
  apiKeyId : Option Id
  deriving DecidableEq, Repr

/-- What the environment contributes to one call. -/
structure AuthAnswer where
  fail : Bool := false
  now : Time := 0
  uuid : Id := 1000
  random : Bytes := []
  identity : Identity := {}
  orgLogins : List String := []

instance : Inhabited AuthAnswer := ⟨{}⟩

inductive AuthOp : Type → Type 1
  | query {β : Type} (q : AuthQuery β) : AuthOp (Except Err β)
  | write {β : Type} (s : AuthStmt β) : AuthOp (Except Err β)
  | newUUID : AuthOp Id
  | now : AuthOp Time
  /-- `io.ReadFull(rand.Reader, …)` -/
  | random : AuthOp (Except Err Bytes)
  | trustedOrigins : AuthOp (List String)
  | exchangeExternalIdentity (provider : Provider) (code : String) :
      AuthOp (Except Err (Identity × List String))
  /-- The request goes on with a principal in its context. -/
  | withPrincipal (p : Principal) : AuthOp Unit
  /-- An administrator changes what the handlers here only read. -/
  | configure (setup : AuthSetup) : AuthOp Unit

def AuthOp.step : AuthOp β → AuthAnswer → AuthDB → β × AuthDB
  | query q, a, db => (if a.fail then .error (.of .unavailable) else q.eval a.now db, db)
  | write s, a, db => if a.fail then (.error (.of .unavailable), db) else s.exec a.now db
  | newUUID, a, db => (a.uuid, db)
  | now, a, db => (a.now, db)
  | random, a, db => (if a.fail then .error (.of .unavailable) else .ok a.random, db)
  | trustedOrigins, _, db => (db.setup.trustedOrigins, db)
  | exchangeExternalIdentity .., a, db =>
    (if a.fail then .error (.of .unavailable) else .ok (a.identity, a.orgLogins), db)
  | withPrincipal _, _, db => ((), db)
  | configure setup, _, db => ((), { db with setup })

instance : Atomic AuthOp AuthAnswer AuthDB where
  step := AuthOp.step

def authQuery (q : AuthQuery β) : Go AuthOp β := .ofCall (.query q)

def authStmt (s : AuthStmt β) : Go AuthOp β := .ofCall (.write s)

end Kindling
