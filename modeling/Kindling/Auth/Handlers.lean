import Kindling.Auth.Middleware
import Kindling.Lib.Typestate

/-!
# Logins, organizations and API keys

The handlers of `internal/rpc` that write users, memberships, sessions and API keys: bootstrap and
login with a password (`auth_api.go`), login at an external provider (`auth_external_api.go`),
pending members (`pending_members_api.go`), API keys (`api_keys.go`), and the command that creates a
superuser. Payloads of responses are left out, and so are requests whose body does not decode.
-/

namespace Kindling

open Fallible

@[irreducible] def isBlank (s : String) : Bool := trimSpace s == ""

def OrgRole.canManage : OrgRole → Bool
  | .owner | .admin => true
  | .member => false

def mustPrincipal {E : Type → Type 1} : Option Principal → Go E Principal
  | some p => return p
  | none => throw (apiError "unauthorized" "authentication required")

def requireOrgAdmin {E : Type → Type 1} (p : Principal) : Go E Unit :=
  if p.orgRole.canManage then return ()
  else throw (apiError "forbidden" "owner or admin role required")

def requireTrustedOrigin (cfg : AuthConfig) (r : Request) : Go AuthOp Unit := do
  let origins ← ofTotal .trustedOrigins
  if requestHasTrustedOrigin cfg r origins then return ()
  else throw (apiError "csrf_forbidden" "request origin is not allowed")

/-- The loop of `issueSessionForUser`: the first organization that the user can manage, or else the
first. -/
def chooseOrganization (user : Id) :
    List Organization → Option (Organization × OrgRole) → Go AuthOp (Option (Organization × OrgRole))
  | [], chosen => return chosen
  | candidate :: rest, chosen => do
    let mem ← authQuery (.organizationMembershipByUserAndOrg user candidate.id)
    if mem.role.canManage then return some (candidate, mem.role)
    else chooseOrganization user rest (chosen.or (some (candidate, mem.role)))

def sessionDuration : Time := 30 * 24 * 3600 * second

def noOrganization : Err := .of (.message "user has no organization memberships")

structure IssuedSession where
  rawToken : Bytes
  org : Organization
  role : OrgRole
  orgs : List Organization

def issueSessionForUser (cfg : AuthConfig) (user : User) : Go AuthOp IssuedSession := do
  let orgs ← authQuery (.organizationsForUser user.id)
  match ← chooseOrganization user.id orgs none with
  | none => throw noOrganization
  | some (org, role) =>
    let rawToken ← ofCall .random
    let id ← ofTotal .newUUID
    let now ← ofTotal .now
    let _ ← authStmt (.userSessionCreate {
      id, userId := user.id, tokenHash := cfg.hashSessionToken rawToken
      currentOrganizationId := org.id, expiresAt := now + sessionDuration })
    return ⟨rawToken, org, role, orgs⟩

/-! ## Bootstrap and login -/

def bootstrapOrganizationID : Id := 1

@[irreducible] def bootstrapRequestAllowed (cfg : AuthConfig) (r : Request) : Bool :=
  trimSpace cfg.bootstrapToken != "" && trimSpace r.bootstrapToken == trimSpace cfg.bootstrapToken ||
    r.peerLoopback == some true && !r.proxied

def containsAt (s : String) : Bool := s.toList.contains '@'

/-- Addresses are compared without case. -/
@[irreducible] def normalizeEmail (email : String) : String := trimSpace (lower email)

/-- Two checks that the bootstrap and the superuser command share. -/
@[irreducible] def validEmail (email : String) : Bool := email != "" && containsAt email

/-- `len` counts bytes. -/
@[irreducible] def shortPassword (password : String) : Bool := decide (password.utf8ByteSize < 8)

@[irreducible] def anyEmpty (s t : String) : Bool := s == "" || t == ""

def authBootstrap (cfg : AuthConfig) (r : Request) (email password displayName : String) :
    Go AuthOp IssuedSession := do
  let n ← context "bootstrap" (authQuery .userCount)
  if 0 < n then throw (apiError "bootstrap_done" "cluster already has users")
  else if !bootstrapRequestAllowed cfg r then
    throw (apiError "bootstrap_forbidden"
      "bootstrap requires loopback access or a valid bootstrap token")
  else if !validEmail (normalizeEmail email) then
    throw (apiError "validation_error" "valid email is required")
  else if shortPassword password then
    throw (apiError "validation_error" "password must be at least 8 characters")
  else
  let hash ← context "hash_password" (ofResult (cfg.hashPassword password))
  let userId ← ofTotal .newUUID
  match ← attempt (authStmt (.userCreate {
      id := userId, email := normalizeEmail email, passwordHash := hash
      displayName := trimSpace displayName, isPlatformAdmin := true })) with
  | .error e =>
    if e.root = .uniqueViolation then
      throw (apiError "email_taken" "that email is already registered")
    else throw (e.wrap "create_user")
  | .ok user =>
    let _ ← context "membership" (authStmt (.organizationMembershipCreate {
      organizationId := bootstrapOrganizationID, userId, role := .owner }))
    context "session" (issueSessionForUser cfg user)

def invalidCredentials (message : String) : Err := apiError "invalid_credentials" message

def authLogin (cfg : AuthConfig) (email password : String) : Go AuthOp IssuedSession := do
  if anyEmpty (normalizeEmail email) password then
    throw (apiError "validation_error" "email and password are required")
  else
  match ← attempt (authQuery (.userByEmail (normalizeEmail email))) with
  | .error _ => throw (invalidCredentials "invalid email or password")
  | .ok u =>
    if !cfg.checkPassword u.passwordHash password then
      throw (invalidCredentials "invalid email or password")
    else
    match ← attempt (issueSessionForUser cfg u) with
    | .error e => throw (apiError "no_org" e.text)
    | .ok s => return s

def sessionTokenHashFromRequest (cfg : AuthConfig) (r : Request) : Option Bytes :=
  ((r.cookie.filter (· != "")).bind sessionToken).map cfg.hashSessionToken

def authLogout (cfg : AuthConfig) (r : Request) : Go AuthOp Unit := do
  requireTrustedOrigin cfg r
  match sessionTokenHashFromRequest cfg r with
  | none => return
  | some h =>
    match ← attempt (authQuery (.userSessionByTokenHash h)) with
    | .error _ => return
    | .ok sess => discard (authStmt (.userSessionDelete sess.id))

def authSwitchOrg (cfg : AuthConfig) (r : Request) (principal : Option Principal)
    (organizationId : String) : Go AuthOp Unit := do
  requireTrustedOrigin cfg r
  let p ← mustPrincipal principal
  match p.sessionId with
  | none => throw (apiError "api_key_org_fixed"
    "organization is fixed for API keys; create another key for a different organization")
  | some sessionId =>
  match cfg.parseUUID (trimSpace organizationId) with
  | none => throw (apiError "validation_error" "organization_id must be a UUID")
  | some org =>
  match ← attempt (authQuery (.organizationMembershipByUserAndOrg p.userId org)) with
  | .error _ => throw (apiError "forbidden" "not a member of that organization")
  | .ok _ =>
    let _ ← context "switch_org" (authStmt (.userSessionUpdateCurrentOrg sessionId org))
    let _ ← context "user_reload" (authQuery (.userByID p.userId))
    let _ ← context "org_reload" (authQuery (.organizationByID org))
    let _ ← context "membership" (authQuery (.organizationMembershipByUserAndOrg p.userId org))
    discard (authQuery (.organizationsForUser p.userId))

def authChangePassword (cfg : AuthConfig) (r : Request) (principal : Option Principal)
    (currentPassword newPassword : String) : Go AuthOp Unit := do
  requireTrustedOrigin cfg r
  let p ← mustPrincipal principal
  if anyEmpty currentPassword newPassword then
    throw (apiError "validation_error" "current_password and new_password are required")
  else if shortPassword newPassword then
    throw (apiError "validation_error" "new password must be at least 8 characters")
  else
  let u ← context "user_lookup" (authQuery (.userByID p.userId))
  if !cfg.checkPassword u.passwordHash currentPassword then
    throw (invalidCredentials "current password is incorrect")
  else
  let newHash ← context "hash_password" (ofResult (cfg.hashPassword newPassword))
  context "update_password" (authStmt (.userUpdatePasswordHash p.userId newHash))
  context "session_revocation_failed" (match sessionTokenHashFromRequest cfg r with
    | some h => authStmt (.userSessionDeleteOthersByTokenHash p.userId h)
    | none => authStmt (.userSessionDeleteAllForUser p.userId))

/-- One letter of `normalizeOrgSlug`, with the text so far in reverse. -/
def orgSlugStep (cfg : AuthConfig) (out : List Char) (c : Char) : List Char :=
  if cfg.letterOrDigit c then c :: out
  else if c == '-' || c == '_' || isSpace c then
    match out with
    | [] | '-' :: _ => out
    | _ => '-' :: out
  else out

def normalizeOrgSlug (cfg : AuthConfig) (raw : String) : String := String.ofList (trimChar '-'
    ((trimSpace (lower raw)).toList.foldl (orgSlugStep cfg) []).reverse)

def firstNonempty (l : List String) : String := (l.find? (· != "")).getD ""

/-- The loop of `createOwnedOrganizationForUser` over the slugs with the given numbers. -/
def allocateOrganization (user : Id) (name slugBase : String) : List Nat → Go AuthOp Organization
  | [] => throw (.of (.message "could not allocate unique workspace slug"))
  | i :: rest => do
    let id ← ofTotal .newUUID
    let slug := if i = 0 then slugBase else slugBase ++ "-" ++ toString (i + 1)
    match ← attempt (authStmt (.organizationCreate { id, name, slug })) with
    | .error e =>
      if e.root = .uniqueViolation then allocateOrganization user name slugBase rest else throw e
    | .ok org =>
      authStmt (.organizationMembershipUpsertOwner org.id user)
      return org

def createOwnedOrganizationForUser (cfg : AuthConfig) (user : User)
    (preferredName preferredSlug : String) : Go AuthOp Organization :=
  let name := if trimSpace preferredName == "" then user.displayName else trimSpace preferredName
  let name := if trimSpace name == "" then user.email else name
  let name := if name == "" then "Workspace" else name
  let slugBase := firstNonempty
    [normalizeOrgSlug cfg preferredSlug, normalizeOrgSlug cfg name, "workspace"]
  allocateOrganization user.id name slugBase (List.range 20)

/-! ## External identities -/

def Provider.name : Provider → String
  | .github => "github"
  | .oidc => "oidc"

def consumerDomains : List String :=
  ["gmail.com", "yahoo.com", "outlook.com", "hotmail.com", "icloud.com", "aol.com",
    "protonmail.com", "mail.com", "zoho.com"]

def isConsumerDomain (domain : String) : Bool := consumerDomains.contains (lower (trimSpace domain))

/-- The part of an address after its last `@`. -/
@[irreducible] def extractEmailDomain (email : String) : String :=
  let cs := (normalizeEmail email).toList
  if cs.contains '@' then String.ofList (cs.reverse.takeWhile (· != '@')).reverse else ""

/-- An address at a domain that can belong to an organization. -/
@[irreducible] def businessDomain (domain : String) : Bool := domain != "" && !isConsumerDomain domain

def externalIdentityDisplayName (i : Identity) : String :=
  firstNonempty [trimSpace i.displayName, trimSpace i.login, trimSpace i.email]

def updateIdentity (id : Id) (identity : Identity) : Go AuthOp Unit := do
  let _ ← authStmt (.userIdentityUpdateByID id (trimSpace identity.subject)
    (trimSpace identity.login) (trimSpace identity.email) (externalIdentityDisplayName identity))

def linkExternalIdentity (user : Id) (provider : Provider) (identity : Identity) :
    Go AuthOp Unit := do
  if isBlank identity.subject then
    throw (.of (.message "external identity subject is missing"))
  else
  match ← attempt (authQuery (.userIdentityByProviderSubject provider (trimSpace identity.subject)))
    with
  | .ok bySubject =>
    if bySubject.userId ≠ user then
      throw (.of (.message ("that " ++ provider.name ++
        " identity is already linked to another Kindling account")))
    else context "update identity by subject" (updateIdentity bySubject.id identity)
  | .error e =>
  if !e.isNoRows then throw (e.wrap "lookup identity by subject")
  else
  match ← attempt (authQuery (.userIdentityByUserAndProvider user provider)) with
  | .ok byUser => context "update identity by user" (updateIdentity byUser.id identity)
  | .error e =>
  if !e.isNoRows then throw (e.wrap "lookup identity by user and provider")
  else
  let id ← ofTotal .newUUID
  let _ ← context "create identity" (authStmt (.userIdentityCreate {
    id, userId := user, provider, providerSubject := trimSpace identity.subject
    providerLogin := trimSpace identity.login, providerEmail := trimSpace identity.email
    providerDisplayName := externalIdentityDisplayName identity }))

/-- A new user of an organization's domain gets a pending membership. The result says whether the
domain belongs to an organization that the user is not an active member of. -/
def joinByDomain (user : Id) (emailDomain : String) : Go AuthOp Bool := do
  if !businessDomain emailDomain then return false
  else
  match ← attempt (authQuery (.organizationFindByEmailDomain emailDomain)) with
  | .error e => if e.isNoRows then return false else throw (e.wrap "lookup org by domain")
  | .ok org =>
  match ← attempt (authQuery (.organizationMembershipByUserAndOrg user org.id)) with
  | .ok existing => return existing.status != .active
  | .error e =>
  if !e.isNoRows then throw (e.wrap "check membership")
  else
  match ← attempt (authStmt (.organizationMembershipCreate {
      organizationId := org.id, userId := user, role := .member, status := .pending })) with
  | .ok _ => return true
  | .error e =>
    if e.root = .uniqueViolation then return true else throw (e.wrap "create pending membership")

/-- A user whose domain has not matched gets an organization, which claims the domain. -/
def createPersonalOrganization (cfg : AuthConfig) (user : User) (identity : Identity)
    (emailDomain : String) (domainMatched : Bool) : Go AuthOp Unit := do
  if domainMatched then return
  else
  let personalName := firstNonempty [externalIdentityDisplayName identity, user.email]
  let org ← context "create personal organization"
    (createOwnedOrganizationForUser cfg user (personalName ++ "'s Workspace") identity.login)
  if businessDomain emailDomain then
    context "set org email domain" (authStmt (.organizationUpdateEmailDomain org.id emailDomain))

def resolveGitHubOrganizationIDs (rows : List OrgProviderConnection) (orgLogins : List String) :
    List Id :=
  let slug (s : String) := trimSpace (lower s)
  (orgLogins.flatMap fun login =>
    (rows.filter fun c => slug c.externalSlug != "" && slug c.externalSlug == slug login).map
      (·.organizationId)).eraseDups

/-- The memberships that follow from those at the provider. -/
def joinGitHubOrganizations (user : Id) (provider : Provider) (orgLogins : List String) :
    Go AuthOp Unit := do
  if provider ≠ .github then return
  else
  let rows ← context "resolve GitHub org IDs" (context "list GitHub org provider connections"
    (authQuery .orgProviderConnectionListByProvider))
  forEach (resolveGitHubOrganizationIDs rows orgLogins) fun org =>
    context "upsert org membership" (authStmt (.organizationMembershipUpsert org user .member))

def disabledPasswordHash : String := "!"

/-- The last part of `resolveExternalLogin`: the organizations and the identity of a new user. -/
def enrolUser (cfg : AuthConfig) (user : User) (provider : Provider) (identity : Identity)
    (orgLogins : List String) : Go AuthOp User := do
  let emailDomain := extractEmailDomain identity.email
  let domainMatched ← joinByDomain user.id emailDomain
  createPersonalOrganization cfg user identity emailDomain domainMatched
  joinGitHubOrganizations user.id provider orgLogins
  context "link identity for new user" (linkExternalIdentity user.id provider identity)
  return user

def resolveExternalLogin (cfg : AuthConfig) (provider : Provider) (identity : Identity)
    (orgLogins : List String) : Go AuthOp User := do
  match ← attempt (authQuery (.userIdentityByProviderSubject provider (trimSpace identity.subject)))
    with
  | .ok row =>
    context "link existing identity" (linkExternalIdentity row.userId provider identity)
    authQuery (.userByID row.userId)
  | .error e =>
  if !e.isNoRows then throw (e.wrap "lookup identity by subject")
  else if isBlank identity.email then
    throw (.of (.message "this identity does not expose a verified email address"))
  else
  match ← attempt (authQuery (.userByEmail identity.email)) with
  | .ok _ => throw (.of (.message ("an account with that email already exists; " ++
      "sign in locally and link " ++ provider.name ++ " from settings")))
  | .error e =>
  if !e.isNoRows then throw (e.wrap "lookup user by email")
  else
  let userCount ← context "count users" (authQuery .userCount)
  let userId ← ofTotal .newUUID
  let user ← context "create user" (authStmt (.userCreate {
    id := userId, email := normalizeEmail identity.email, passwordHash := disabledPasswordHash
    displayName := externalIdentityDisplayName identity, isPlatformAdmin := userCount == 0 }))
  enrolUser cfg user provider identity orgLogins

/-- What the state cookie of an external login holds; `link` is for a user who adds an identity. -/
structure ExternalAuthState where
  provider : Provider
  linkUserId : Option String := none
  state : String
  expiresAt : Time := 0
  deriving DecidableEq, Repr

structure ExternalAuthCallback where
  provider : Provider
  /-- The state cookie, unless it is missing or does not decode. -/
  cookie : Option ExternalAuthState
  error : String := ""
  errorDescription : String := ""
  state : String := ""
  code : String := ""
  deriving DecidableEq, Repr

def authProviderReady (row : AuthProvider) : Bool :=
  row.enabled && trimSpace row.clientId != "" && !row.clientSecretCiphertext.isEmpty &&
    !(row.provider == .oidc && trimSpace row.issuerUrl == "")

def ExternalAuthState.failurePath (s : ExternalAuthState) : String :=
  if s.linkUserId.isSome then "/settings?tab=authentication" else "/login"

def readExternalAuthState (cookie : Option ExternalAuthState) : Go AuthOp ExternalAuthState := do
  match cookie with
  | none => throw (.of (.message "http: named cookie not present"))
  | some s =>
    let now ← ofTotal .now
    if 0 < s.expiresAt ∧ s.expiresAt < now then
      throw (.of (.message "authentication state expired"))
    else return s

def checkCallback (cb : ExternalAuthCallback) (s : ExternalAuthState) : Except Err String :=
  if s.provider ≠ cb.provider then
    .error (.of (.message "authentication state provider mismatch"))
  else if trimSpace cb.error != "" then
    .error (.of (.message (firstNonempty [trimSpace cb.errorDescription, trimSpace cb.error])))
  else if trimSpace cb.state != s.state then .error (.of (.message "authentication state mismatch"))
  else if trimSpace cb.code == "" then .error (.of (.message "authentication code missing"))
  else .ok (trimSpace cb.code)

def callbackIdentity (cb : ExternalAuthCallback) (s : ExternalAuthState) :
    Go AuthOp (Identity × List String) := do
  let code ← ofResult (checkCallback cb s)
  let row ← authQuery (.authProviderByProvider cb.provider)
  if !authProviderReady row then
    throw (.of (.message "authentication provider is not configured"))
  else ofCall (.exchangeExternalIdentity cb.provider code)

def linkCallback (cfg : AuthConfig) (provider : Provider) (identity : Identity) (linkUser : String) :
    Go AuthOp Unit := do
  match cfg.parseUUID (trimSpace linkUser) with
  | none => throw (.of (.message "linking session expired"))
  | some user =>
    let _ ← authQuery (.userByID user)
    linkExternalIdentity user provider identity

/-- A redirect with an error is an error whose context is the path. -/
def externalAuthCallback (cfg : AuthConfig) (cb : ExternalAuthCallback) : Go AuthOp Unit := do
  let s ← context "/login" (readExternalAuthState cb.cookie)
  let (identity, orgLogins) ← context s.failurePath (callbackIdentity cb s)
  match s.linkUserId with
  | some linkUser => context s.failurePath (linkCallback cfg cb.provider identity linkUser)
  | none =>
    let user ← context "/login" (resolveExternalLogin cfg cb.provider identity orgLogins)
    let _ ← context "/login" (issueSessionForUser cfg user)

/-- Approval and rejection differ in the status they write. -/
def decidePendingMember (cfg : AuthConfig) (principal : Option Principal) (userId code : String)
    (status : MembershipStatus) : Go AuthOp Unit := do
  let p ← mustPrincipal principal
  requireOrgAdmin p
  match cfg.parseUUID (trimSpace userId) with
  | none => throw (apiError "invalid_user_id" "invalid user ID")
  | some user =>
    match ← attempt (authStmt (.organizationMembershipUpdatePendingStatus p.orgId user status)) with
    | .ok _ => return
    | .error e =>
      if e.isNoRows then throw (apiError "not_pending" "membership is not in pending state")
      else throw (e.wrap code)

def approvePendingMember (cfg : AuthConfig) (principal : Option Principal) (userId : String) :
    Go AuthOp Unit :=
  decidePendingMember cfg principal userId "approve_member" .active

def rejectPendingMember (cfg : AuthConfig) (principal : Option Principal) (userId : String) :
    Go AuthOp Unit :=
  decidePendingMember cfg principal userId "reject_member" .rejected

def hexChars (b : UInt8) : List Char := [Nat.digitChar (b.toNat / 16), Nat.digitChar (b.toNat % 16)]

/-- `NewAPIKeyToken`, before its hash is taken. -/
def newAPIKeyToken : Go AuthOp String := do
  let b ← ofCall .random
  return apiKeyPrefix ++ String.ofList (b.flatMap hexChars)

/-- The organization of a new API key: the one of the request, or another one that the user is a
member of. -/
def apiKeyOrganization (cfg : AuthConfig) (p : Principal) (organizationId : String) :
    Go AuthOp Id := do
  if isBlank organizationId then return p.orgId
  else
  match cfg.parseUUID (trimSpace organizationId) with
  | none => throw (apiError "validation_error" "organization_id must be a UUID")
  | some org =>
    match ← attempt (authQuery (.organizationMembershipByUserAndOrg p.userId org)) with
    | .error _ => throw (apiError "forbidden" "not a member of that organization")
    | .ok _ => return org

def createAPIKey (cfg : AuthConfig) (principal : Option Principal) (name organizationId : String) :
    Go AuthOp Unit := do
  let p ← mustPrincipal principal
  requireOrgAdmin p
  if isBlank name then throw (apiError "validation_error" "name is required")
  else
  let org ← apiKeyOrganization cfg p organizationId
  let plain ← context "token_generation" newAPIKeyToken
  let id ← ofTotal .newUUID
  let _ ← context "create_api_key" (authStmt (.userApiKeyCreate {
    id, userId := p.userId, organizationId := org, name := trimSpace name
    tokenHash := cfg.hashAPIKeyToken plain }))

def revokeAPIKey (cfg : AuthConfig) (principal : Option Principal) (id : String) :
    Go AuthOp Unit := do
  let p ← mustPrincipal principal
  requireOrgAdmin p
  match cfg.parseUUID (trimSpace id) with
  | none => throw (apiError "invalid_id" "invalid api key id")
  | some keyId => context "revoke_api_key" (authStmt (.userApiKeyRevoke keyId p.userId))

/-- The user of the superuser command, created or with a new password. -/
def ensureSuperuser (email hash displayName : String) : Go AuthOp Id := do
  match ← attempt (authQuery (.userByEmail email)) with
  | .ok u =>
    context "update password" (authStmt (.userUpdatePasswordHash u.id hash))
    if displayName != "" then
      context "update display name" (authStmt (.userUpdateDisplayName u.id displayName))
    return u.id
  | .error e =>
  if !e.isNoRows then throw (e.wrap "lookup user by email")
  else
  let id ← ofTotal .newUUID
  let _ ← context "create user" (authStmt (.userCreate {
    id, email, passwordHash := hash, displayName, isPlatformAdmin := true }))
  return id

def authCreateSuperuser (cfg : AuthConfig) (email password displayName : String)
    (revokeOthers : Bool) : Go AuthOp Unit := do
  if !validEmail (normalizeEmail email) then throw (.of (.message "valid --email is required"))
  else if shortPassword password then
    throw (.of (.message "password must be at least 8 characters"))
  else
  let hash ← context "hash password" (ofResult (cfg.hashPassword password))
  let user ← ensureSuperuser (normalizeEmail email) hash (trimSpace displayName)
  context "grant platform admin" (authStmt (.userSetPlatformAdmin user true))
  let orgs ← context "list organizations" (authQuery .organizationsListAll)
  if orgs.isEmpty then
    throw (.of (.message
      "no organizations in database — run kindling serve once to migrate schema"))
  else
  forEach orgs fun o =>
    context ("grant owner on " ++ o.slug) (authStmt (.organizationMembershipUpsertOwner o.id user))
  if revokeOthers then context "revoke sessions" (authStmt (.userSessionDeleteAllForUser user))

inductive Endpoint
  | bootstrap (email password displayName : String)
  | login (email password : String)
  | logout
  | switchOrg (organizationId : String)
  | changePassword (currentPassword newPassword : String)
  | externalAuthCallback (cb : ExternalAuthCallback)
  | approvePendingMember (userId : String)
  | rejectPendingMember (userId : String)
  | createAPIKey (name organizationId : String)
  | revokeAPIKey (id : String)
  /-- Any other route, which writes none of the tables here. -/
  | other
  deriving DecidableEq, Repr

/-- What the mux calls, once the middleware has let the request through. -/
def Endpoint.handle (cfg : AuthConfig) (r : Request) (p : Option Principal) :
    Endpoint → Go AuthOp Unit
  | bootstrap email password displayName => do
    let _ ← authBootstrap cfg r email password displayName
  | login email password => do let _ ← authLogin cfg email password
  | logout => authLogout cfg r
  | switchOrg org => authSwitchOrg cfg r p org
  | changePassword current new => authChangePassword cfg r p current new
  | externalAuthCallback cb => Kindling.externalAuthCallback cfg cb
  | approvePendingMember user => Kindling.approvePendingMember cfg p user
  | rejectPendingMember user => Kindling.rejectPendingMember cfg p user
  | createAPIKey name org => Kindling.createAPIKey cfg p name org
  | revokeAPIKey id => Kindling.revokeAPIKey cfg p id
  | other => return ()

def serveRequest (cfg : AuthConfig) (r : Request) (e : Endpoint) : Go AuthOp Unit := do
  let admission ← middleware cfg r
  e.handle cfg r admission.principal?

/-- Requests, superuser commands, and what changes the setup of providers and workers. -/
inductive AuthActor
  | request (n : Nat)
  | command (n : Nat)
  | setup
  deriving DecidableEq, Repr

/-- Any request may come to any endpoint: routes are not told apart further. -/
def authStarts (cfg : AuthConfig) : AuthActor → Prog AuthOp (Except Err Unit) → Prop
  | .request _, p => ∃ r e, p = serveRequest cfg r e
  | .command _, p => ∃ email password displayName revokeOthers,
    p = authCreateSuperuser cfg email password displayName revokeOthers
  | .setup, p => ∃ setup, p = (ofTotal (.configure setup) : Go AuthOp Unit)

abbrev AuthTeam := Team AuthActor AuthOp (Except Err Unit) AuthDB

end Kindling
