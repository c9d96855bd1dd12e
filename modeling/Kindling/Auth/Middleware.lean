import Kindling.Auth.Store

/-!
# The middleware

`internal/auth/middleware.go`: which requests are let through, and on whose behalf.
-/

namespace Kindling

open Fallible

inductive Method | get | head | options | trace | post | put | patch | delete
  deriving DecidableEq, Repr

/-- The part of a request that authentication looks at. -/
structure Request where
  method : Method
  path : String
  host : String := ""
  /-- `r.TLS` is set. -/
  tls : Bool := false
  forwardedProto : String := ""
  authorization : String := ""
  origin : String := ""
  referer : String := ""
  /-- The session cookie. -/
  cookie : Option String := none
  /-- The peer's address is a loopback address; `none` when it does not parse. -/
  peerLoopback : Option Bool := none
  /-- A header says that the request came through a proxy. -/
  proxied : Bool := false
  bootstrapToken : String := ""
  deriving DecidableEq, Repr

structure URL where
  scheme : String
  host : String
  hostname : String
  deriving DecidableEq, Repr

/-- Functions and settings that come from outside. -/
structure AuthConfig where
  hashSessionToken : Bytes → Bytes
  hashAPIKeyToken : String → Bytes
  hashWorkerAgentToken : String → Bytes
  /-- `bcrypt`: the hash of a password, and whether a password fits a hash. -/
  hashPassword : String → Except Err String
  checkPassword : String → String → Bool
  parseURL : String → Option URL
  parseUUID : String → Option Id
  /-- `unicode.IsLetter(r) || unicode.IsDigit(r)` -/
  letterOrDigit : Char → Bool
  /-- The host of `net.SplitHostPort`, when the string has one. -/
  splitHostPort : String → Option String
  bootstrapToken : String := ""

/-- `strings.EqualFold`, up to folding of letters beyond ASCII. -/
def foldChar (c : Char) : Char :=
  if c.toNat == 0x212a then 'k' else if c.toNat == 0x17f then 's' else c.toLower

def equalFold (s t : String) : Bool := s.toList.map foldChar == t.toList.map foldChar

/-- The token of an `Authorization` header with the scheme `Bearer`. -/
def bearerValue (header : String) : Option String :=
  match (trimSpace header).toList.span (· != ' ') with
  | (_, []) => none
  | (scheme, _ :: rest) =>
    if equalFold (String.ofList scheme) "Bearer" then some (trimSpace (String.ofList rest)) else none

def requiresTrustedOrigin : Method → Bool
  | .get | .head | .options | .trace => false
  | .post | .put | .patch | .delete => true

def Request.usesHTTPS (r : Request) : Bool := r.tls || equalFold r.forwardedProto "https"

def requestTargetOrigin (r : Request) : String :=
  (if r.usesHTTPS then "https" else "http") ++ "://" ++ r.host

section origins
variable (cfg : AuthConfig)

def originMatchesTarget (raw target : String) : Bool :=
  trimSpace raw != "" && match cfg.parseURL (trimSpace raw), cfg.parseURL target with
    | some u, some want =>
      u.scheme != "" && u.host != "" && equalFold u.scheme want.scheme && equalFold u.host want.host
    | _, _ => false

def trimBrackets (cs : List Char) : List Char := cs.dropWhile fun c => c == '[' || c == ']'

def hostIsLocal (host : String) : Bool :=
  let host := trimSpace host
  if host == "" then false
  else
    let host := (cfg.splitHostPort host).getD host
    let host := lower (String.ofList (trimBrackets (trimBrackets host.toList).reverse).reverse)
    host == "localhost" || host == "127.0.0.1" || host == "::1"

def loopbackOriginAllowed (r : Request) (raw : String) : Bool :=
  hostIsLocal cfg r.host && match cfg.parseURL (trimSpace raw) with
    | some u => u.hostname != "" && hostIsLocal cfg u.hostname
    | none => false

def originAllowed (r : Request) (allow : List String) (raw : String) : Bool :=
  originMatchesTarget cfg raw (requestTargetOrigin r) || allow.any (originMatchesTarget cfg raw) ||
    loopbackOriginAllowed cfg r raw

def requestHasTrustedOrigin (r : Request) (allow : List String) : Bool :=
  if !requiresTrustedOrigin r.method then true
  else if trimSpace r.origin != "" then originAllowed cfg r allow r.origin
  else if trimSpace r.referer != "" then originAllowed cfg r allow r.referer
  else false

end origins

def hexDigit (c : Char) : Option UInt8 :=
  if '0' ≤ c ∧ c ≤ '9' then some (UInt8.ofNat (c.toNat - 48))
  else if 'a' ≤ c ∧ c ≤ 'f' then some (UInt8.ofNat (c.toNat - 87))
  else if 'A' ≤ c ∧ c ≤ 'F' then some (UInt8.ofNat (c.toNat - 55))
  else none

def hexDecode : List Char → Option Bytes
  | [] => some []
  | [_] => none
  | c :: d :: rest => do
    let hi ← hexDigit c
    let lo ← hexDigit d
    return (hi * 16 + lo) :: (← hexDecode rest)

def sessionTokenBytes : Nat := 32

def sessionToken (cookie : String) : Option Bytes :=
  (hexDecode (trimSpace cookie).toList).filter (·.length == sessionTokenBytes)

def apiKeyPrefix : String := "knd_"

def workerAgentTokenPrefix : String := "kndw_"

def publicRoute (r : Request) : Bool := r.method == .options ||
  (r.path == "/healthz" || r.path == "/") && r.method == .get ||
  hasPrefix r.path "/webhooks/" ||
  (r.path == "/api/auth/bootstrap" || r.path == "/api/auth/login" ||
    r.path == "/api/auth/logout") && r.method == .post ||
  (r.path == "/api/auth/session" || r.path == "/api/auth/bootstrap-status" ||
    r.path == "/api/auth/providers") && r.method == .get ||
  r.path == "/api/worker/v1/enroll" && r.method == .post ||
  r.path == "/install-kindling-worker.sh" && r.method == .get ||
  hasPrefix r.path "/api/auth/providers/" && r.method == .get &&
    (hasSuffix r.path "/start" || hasSuffix r.path "/callback")

/-- How a request was let through. -/
inductive Admission
  | anyone
  | worker (agent org : Id)
  | principal (p : Principal)
  deriving DecidableEq, Repr

def Admission.principal? : Admission → Option Principal
  | .principal p => some p
  | .anyone | .worker .. => none

def unauthorized : Err := apiError "unauthorized" "unauthorized"

/-- The user and the membership behind a session or an API key; the status of the membership is not
looked at. -/
def memberOf (user org : Id) : Go AuthOp (User × OrganizationMembership) := do
  match ← attempt (authQuery (.userByID user)) with
  | .error _ => throw unauthorized
  | .ok u =>
    match ← attempt (authQuery (.organizationMembershipByUserAndOrg user org)) with
    | .error _ => throw unauthorized
    | .ok mem => return (u, mem)

def withPrincipal (p : Principal) : Go AuthOp Admission := do
  ofTotal (.withPrincipal p)
  return .principal p

/-- The row of a token, with the errors of a failed lookup. -/
def byToken (q : AuthQuery β) (message : String) : Go AuthOp β := do
  match ← attempt (authQuery q) with
  | .error e => throw (if e.isNoRows then unauthorized else apiError "internal" message)
  | .ok row => return row

def admitAPIKey (cfg : AuthConfig) (tok : String) : Go AuthOp Admission := do
  let key ← byToken (.userApiKeyByTokenHash (cfg.hashAPIKeyToken tok)) "api key lookup failed"
  let (u, mem) ← memberOf key.userId key.organizationId
  withPrincipal {
    userId := u.id, email := u.email, platformAdmin := u.isPlatformAdmin
    orgId := key.organizationId, orgRole := mem.role, sessionId := none, apiKeyId := some key.id }

def admitWorker (cfg : AuthConfig) (tok : String) : Go AuthOp Admission := do
  let wa ← byToken (.workerAgentByAPITokenHash (cfg.hashWorkerAgentToken tok))
    "worker agent lookup failed"
  return .worker wa.id wa.organizationId

def admitSession (cfg : AuthConfig) (r : Request) : Go AuthOp Admission := do
  match r.cookie.filter (· != "") with
  | none => throw unauthorized
  | some cookie =>
    let origins ← ofTotal .trustedOrigins
    if !requestHasTrustedOrigin cfg r origins then
      throw (apiError "csrf_forbidden" "request origin is not allowed")
    else
    match sessionToken cookie with
    | none => throw unauthorized
    | some raw =>
      let sess ← byToken (.userSessionByTokenHash (cfg.hashSessionToken raw)) "session lookup failed"
      let (u, mem) ← memberOf sess.userId sess.currentOrganizationId
      withPrincipal {
        userId := u.id, email := u.email, platformAdmin := u.isPlatformAdmin
        orgId := sess.currentOrganizationId, orgRole := mem.role, sessionId := some sess.id
        apiKeyId := none }

/-- `Middleware`, up to the call of the next handler. -/
def middleware (cfg : AuthConfig) (r : Request) : Go AuthOp Admission :=
  if publicRoute r then return .anyone
  else match bearerValue r.authorization with
    | some tok =>
      if hasPrefix tok apiKeyPrefix then admitAPIKey cfg tok
      else if hasPrefix tok workerAgentTokenPrefix then admitWorker cfg tok
      else admitSession cfg r
    | none => admitSession cfg r

end Kindling
