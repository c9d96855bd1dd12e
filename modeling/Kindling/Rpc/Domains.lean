import Kindling.Auth.Handlers
import Kindling.Deploy.Reconcile

/-!
# Requests about domains and deployments

The handlers of `internal/rpc/domains` that create and verify domains, the update of a managed
domain when the endpoints of a service change (`internal/rpc/services_api.go`), and the handlers of
`internal/rpc/deployments` that create deployments.
-/

namespace Kindling

open Fallible

/-- The reads of these requests, besides those of reconciliation. -/
inductive ApiQuery : Type → Type
  | projectFirstByIDAndOrg (id orgId : Id) : ApiQuery Project
  | serviceFirstByIDAndOrg (id orgId : Id) : ApiQuery Service
  | servicePrimaryByProjectID (projectId : Id) : ApiQuery Service
  | domainFirstByIDAndProject (id projectId : Id) : ApiQuery Domain
  | domainFirstByIDAndService (id serviceId : Id) : ApiQuery Domain
  | deploymentLatestRunningByProjectID (projectId : Id) : ApiQuery Deployment
  | deploymentLatestRunningByServiceID (serviceId : Id) : ApiQuery Deployment

/-- The latest running production deployment among those that satisfy `p`. -/
def World.latestRunning (w : World) (p : Deployment → Bool) : Option Deployment :=
  (w.deployments.selectBy (fun d => p d && d.kind == .production && d.runningAt.isSome && d.live)
    (·.runningAt.getD 0)).getLast?

def ApiQuery.eval (w : World) : ApiQuery β → Except Err β
  | projectFirstByIDAndOrg id org => one ((w.projects.find? id).filter (·.orgId == org))
  | serviceFirstByIDAndOrg id org =>
    one ((w.services.find? id).filter fun s => (w.projects.find? s.projectId).any (·.orgId == org))
  | servicePrimaryByProjectID p =>
    one (w.services.rows.find? fun s => s.projectId == p && s.isPrimary)
  | domainFirstByIDAndProject id p => one ((w.domains.find? id).filter (·.projectId == p))
  | domainFirstByIDAndService id s => one ((w.domains.find? id).filter (·.serviceId == some s))
  | deploymentLatestRunningByProjectID p => one (w.latestRunning (·.projectId == p))
  | deploymentLatestRunningByServiceID s => one (w.latestRunning (·.serviceId == some s))

/-- The statements of these requests that write domains. -/
inductive ApiDomainStmt : Type → Type
  | create (domain : Domain) : ApiDomainStmt Domain
  | setVerified (id projectId : Id) : ApiDomainStmt Domain
  | setVerifiedByServiceID (id serviceId : Id) : ApiDomainStmt Domain
  | updateDeploymentForProject (deploymentId projectId : Id) : ApiDomainStmt Unit

/-- The production domains of a project, whichever service they belong to. -/
def Domain.ofProject (p : Id) (d : Domain) : Bool := d.projectId == p && d.kind == .production

theorem Domain.id_pointed (dep : Id) (d : Domain) : { d with deploymentId := some dep }.id = d.id := rfl

def ApiDomainStmt.exec (now : Time) : ApiDomainStmt β → DomainTable → Except Err β × DomainTable
  | create d, t =>
    if t.rows.any (·.domainName == d.domainName) then (.error (.of .uniqueViolation), t)
    else inserting t d
  | setVerified id p, t =>
    returning (t.updateKey id (·.projectId == p)
      ({ · with verifiedAt := some now, verificationToken := "" }) fun _ => rfl)
  | setVerifiedByServiceID id s, t =>
    returning (t.updateKey id (·.serviceId == some s)
      ({ · with verifiedAt := some now, verificationToken := "" }) fun _ => rfl)
  | updateDeploymentForProject dep p, t =>
    (.ok (), t.updateWhere (Domain.ofProject p) ({ · with deploymentId := some dep })
      (Domain.id_pointed dep))

/-- The operations of a deployer, and what the requests need besides. -/
inductive ApiOp : Type → Type 1
  | op {β : Type} (o : Op β) : ApiOp β
  | query {β : Type} (q : ApiQuery β) : ApiOp (Except Err β)
  | domains {β : Type} (s : ApiDomainStmt β) : ApiOp (Except Err β)
  | deploymentCreate (dep : Deployment) : ApiOp (Except Err Deployment)
  /-- A random token, in hexadecimal digits. -/
  | newVerificationToken : ApiOp (Except Err String)
  /-- The TXT records under a name, `none` when the name does not exist. -/
  | lookupTXT (name : String) : ApiOp (Except Err (Option (List String)))

def ApiOp.exec : ApiOp β → List Answer → World → Outcome β World Answer
  | op o, as, w => o.exec as w
  | query q, as, w =>
    ⟨if (as.headD default).fail then .error (.of .unavailable) else q.eval w, w, as.tail⟩
  | domains s, as, w =>
    let r := onTable (as.headD default) (s.exec (as.headD default).now) World.domains
      World.withDomains w
    ⟨r.1, r.2, as.tail⟩
  | deploymentCreate dep, as, w =>
    let r := onTable (as.headD default)
      (fun t : DeploymentTable => inserting t { dep with createdAt := (as.headD default).now })
      World.deployments World.withDeployments w
    ⟨r.1, r.2, as.tail⟩
  | newVerificationToken, as, w =>
    let a := as.headD default
    ⟨if a.fail then .error (.of .unavailable) else .ok a.text, w, as.tail⟩
  | lookupTXT _, as, w =>
    let a := as.headD default
    ⟨if a.fail then .error (.of .unavailable) else .ok (if a.ok then some a.texts else none), w,
      as.tail⟩

instance : Effect ApiOp Answer World where
  exec := ApiOp.exec

instance : Reads ApiOp := ⟨fun q => .op (.db (.query q))⟩

abbrev Api := Go ApiOp

def apiQuery (q : ApiQuery β) : Api β := ofCall (.query q)

def apiDomainStmt (s : ApiDomainStmt β) : Api β := ofCall (.domains s)

def routeStmt (s : DomainStmt β) : Api β := ofCall (.op (.db (.domains s)))

/-- `ParseUUID` of a part of the path: `none` does not parse. -/
def parseUUID (code message : String) : Option Id → Api Id
  | some id => return id
  | none => throw (apiError code message)

/-- Any error of the lookup is reported as a missing row. -/
def orNotFound (message : String) (p : Api β) : Api β := wrap (fun _ => apiError "not_found" message) p

def adminPrincipal (p : Option Principal) : Api Principal := do
  let p ← mustPrincipal p
  requireOrgAdmin p
  return p

def adminProject (p : Option Principal) (projectID : Option Id) : Api Project := do
  let p ← adminPrincipal p
  let id ← parseUUID "invalid_id" "invalid project id" projectID
  orNotFound "project not found" (apiQuery (.projectFirstByIDAndOrg id p.orgId))

/-- `ServiceFirstByIDAndOrg`, for the service a request of an administrator is about. -/
def adminService (p : Option Principal) (serviceID : Option Id) : Api Service := do
  let p ← adminPrincipal p
  let id ← parseUUID "invalid_id" "invalid service id" serviceID
  orNotFound "service not found" (apiQuery (.serviceFirstByIDAndOrg id p.orgId))

/-- `serviceAndProjectByIDAndOrg`: the project has to exist too. -/
def adminServiceAndProject (p : Option Principal) (serviceID : Option Id) : Api Service := do
  let service ← adminService p serviceID
  let _ ← orNotFound "service not found" (query (.projectFirstByID service.projectId) : Api Project)
  return service

/-- What is wrong with a label of a domain name. Lengths are counted in bytes. -/
def labelError (label : List Char) : Option String :=
  if label.isEmpty || decide (63 < (String.ofList label).utf8ByteSize) then
    some "invalid domain label"
  else if !label.all isSlugChar then
    some "domain must be ASCII letters, digits, and hyphens per label"
  else if label.head? == some '-' || label.getLast? == some '-' then
    some "domain labels cannot start or end with a hyphen"
  else none

@[irreducible] def normalizeDomainName (raw : String) : Except String String :=
  let s := lower (trimSpace raw)
  let parts := s.toList.splitOn '.'
  if s == "" then .error "domain name is required"
  else if parts.length < 2 then .error "use a fully qualified hostname (e.g. app.example.com)"
  else match parts.findSome? labelError with
    | some message => .error message
    | none => .ok s

/-- A taken name is reported as such. -/
def createError (code : String) (e : Err) : Err :=
  if e.root == .uniqueViolation then apiError "domain_taken" "that domain is already registered"
  else e.wrap code

/-- The body of a request that creates a domain: `none` does not decode. -/
def createDomain (projectId serviceId : Id) (code : String) (body : Option String) : Api Domain := do
  match body with
  | none => throw (apiError "invalid_json" "invalid JSON body")
  | some raw =>
  match normalizeDomainName raw with
  | .error message => throw (apiError "invalid_domain" message)
  | .ok domainName =>
  let token ← context "token_generation" (ofCall .newVerificationToken)
  let id ← ofTotal (.op (.db .newUUID))
  wrap (createError code) (apiDomainStmt (.create
    { id, projectId, serviceId := some serviceId, domainName, verificationToken := token }))

/-- A domain that is added to a project belongs to the primary service. -/
def createProjectDomain (p : Option Principal) (projectID : Option Id) (body : Option String) :
    Api Domain := do
  let project ← adminProject p projectID
  let service ← context "project_primary_service" (apiQuery (.servicePrimaryByProjectID project.id))
  createDomain project.id service.id "create_domain" body

def createServiceDomain (p : Option Principal) (serviceID : Option Id) (body : Option String) :
    Api Domain := do
  let service ← adminServiceAndProject p serviceID
  createDomain service.projectId service.id "create_service_domain" body

def kindlingChallengePrefix : String := "_kindling-challenge."

def domainChallengeRecordName (domain : String) : String := kindlingChallengePrefix ++ domain

@[irreducible] def txtMatches (want : String) (txts : List String) : Bool :=
  txts.any fun t => trimSpace t == trimSpace want

def challengeTXTFound (recordName want : String) : Api Bool := do
  match ← ofCall (.lookupTXT recordName) with
  | none => return false
  | some txts => return txtMatches want txts

/-- The TXT record of a domain that waits for its verification. -/
def checkChallenge (d : Domain) : Api Unit := do
  let recordName := domainChallengeRecordName d.domainName
  if d.verificationToken == "" then
    throw (apiError "not_pending" "domain has no pending verification")
  else
  match ← attempt (challengeTXTFound recordName d.verificationToken) with
  | .error e => throw (apiError "dns_lookup_failed" ("could not resolve DNS: " ++ e.text))
  | .ok false => throw (apiError "verification_failed"
    ("TXT record " ++ recordName ++ " not found or value does not match"))
  | .ok true => return

def domainLookupError (e : Err) : Err :=
  if e.isNoRows then apiError "not_found" "domain not found" else e.wrap "domain_lookup"

/-- What the two verifications share: read the domain, check its record, mark it verified, and point
domains at the latest running deployment, if there is one. They differ in their keys, and in which
domains are pointed. -/
def verifyDomain (find : ApiQuery Domain) (verified : ApiDomainStmt Domain) (code : String)
    (latest : ApiQuery Deployment) (point : Id → Api Unit) : Api Domain := do
  let d ← wrap domainLookupError (apiQuery find)
  if d.verifiedAt.isSome then return d
  else
  checkChallenge d
  let d ← context code (apiDomainStmt verified)
  match ← attempt (apiQuery latest) with
  | .error _ => return d
  | .ok dep =>
  if dep.runningAt.isNone then return d
  else
  discard (point dep.id)
  match ← attempt (apiQuery find) with
  | .error _ => return d
  | .ok dFresh => return dFresh

/-- Points all production domains of the project. -/
def verifyProjectDomain (p : Option Principal) (projectID domainID : Option Id) : Api Domain := do
  let project ← adminProject p projectID
  let domainId ← parseUUID "invalid_domain_id" "invalid domain id" domainID
  verifyDomain (.domainFirstByIDAndProject domainId project.id) (.setVerified domainId project.id)
    "verify_domain" (.deploymentLatestRunningByProjectID project.id)
    fun dep => apiDomainStmt (.updateDeploymentForProject dep project.id)

/-- Points the domain that is verified. -/
def verifyServiceDomain (p : Option Principal) (serviceID domainID : Option Id) : Api Domain := do
  let service ← adminServiceAndProject p serviceID
  let domainId ← parseUUID "invalid_domain_id" "invalid domain id" domainID
  verifyDomain (.domainFirstByIDAndService domainId service.id)
    (.setVerifiedByServiceID domainId service.id)
    "verify_service_domain" (.deploymentLatestRunningByServiceID service.id)
    fun dep => routeStmt (.updateDeploymentForDomainID domainId dep)

def deleteManagedDomain (service : Service) : Api Unit :=
  context "delete managed domain" (routeStmt (.deleteManagedByServiceID service.id))

def setManagedDomain (service : Service) (deployment : Deployment) (host : String) : Api Unit := do
  match ← attempt (query (.domainManagedByServiceID service.id) : Api Domain) with
  | .ok _ =>
    let _ ← context "update managed domain"
      (routeStmt (.updateManagedByServiceID service.id host deployment.id))
  | .error e =>
    if e.isNoRows then
      let id ← ofTotal (.op (.db .newUUID))
      let _ ← context "create managed domain" (routeStmt (.create {
        id, projectId := service.projectId, serviceId := some service.id
        deploymentId := some deployment.id, domainName := host, kind := .serviceManaged }))
    else throw (e.wrap "lookup managed domain")

/-- The part that runs once a base domain is known. -/
def manageDomain (service : Service) (baseDomain : String) : Api Unit := do
  match ← attempt (apiQuery (.deploymentLatestRunningByServiceID service.id)) with
  | .error e =>
    if e.isNoRows then deleteManagedDomain service
    else throw (e.wrap "load latest running deployment")
  | .ok deployment =>
    let project ← context "load service project" (query (.projectFirstByID service.projectId))
    match managedHost service project baseDomain with
    | none => deleteManagedDomain service
    | some host => setManagedDomain service deployment host

/-- The service base domain; an error other than a missing setting is passed on. -/
def serviceBaseDomain : Api String := do
  match ← attempt (query (.clusterSettingGet settingServiceBaseDomain) : Api String) with
  | .ok base => return base
  | .error e => if e.isNoRows then return "" else throw (e.wrap "load service base domain")

def reconcileManagedServiceDomain (service : Service) : Api Unit := do
  let endpoints ← context "list service endpoints"
    (query (.serviceEndpointListByServiceID service.id))
  if !endpoints.any fun e => e.protocol == .http && e.visibility == .publicOpen then
    deleteManagedDomain service
  else
  let baseDomain ← serviceBaseDomain
  if isBlank baseDomain then deleteManagedDomain service else manageDomain service baseDomain

/-- The end of the requests that create, update or delete an endpoint of a service. -/
def changeServiceEndpoints (p : Option Principal) (serviceID : Option Id) (code : String) :
    Api Unit := do
  let service ← adminService p serviceID
  context code (reconcileManagedServiceDomain service)

@[irreducible] def commitOrMain (commit : String) : String := if commit == "" then "main" else commit

def createDeployment (code : String) (dep : Id → Deployment) : Api Deployment := do
  let id ← ofTotal (.op (.db .newUUID))
  context code (ofCall (.deploymentCreate (dep id)))

def triggerDeploy (p : Option Principal) (projectID : Option Id) (commit : String) :
    Api Deployment := do
  let project ← adminProject p projectID
  let service ← context "project_primary_service" (apiQuery (.servicePrimaryByProjectID project.id))
  createDeployment "create_deployment" fun id =>
    { id, projectId := project.id, serviceId := some service.id
      githubCommit := commitOrMain commit, githubBranch := commitOrMain commit }

def triggerServiceDeploy (p : Option Principal) (serviceID : Option Id) (commit : String) :
    Api Deployment := do
  let service ← adminService p serviceID
  createDeployment "create_service_deployment" fun id =>
    { id, projectId := service.projectId, serviceId := some service.id
      githubCommit := commitOrMain commit, githubBranch := commitOrMain commit }

/-- A deployment that has been running and is not the one running now. -/
def promotableProductionDeployment (dep : Deployment) : Api Bool := do
  match dep.serviceId with
  | none => return false
  | some s =>
  if dep.deletedAt.isSome || dep.failedAt.isSome || dep.kind != .production ||
      dep.runningAt.isNone then return false
  else
  match ← attempt (apiQuery (.deploymentLatestRunningByServiceID s)) with
  | .error e => if e.isNoRows then return true else throw (e.wrap "load latest running deployment")
  | .ok current => return current.id != dep.id

/-- The request to promote an earlier deployment, which creates a deployment with its artifact. -/
def Api.promoteDeployment (p : Option Principal) (deploymentID : Option Id) : Api Deployment := do
  let p ← adminPrincipal p
  let id ← parseUUID "invalid_id" "invalid deployment id" deploymentID
  let dep ← orNotFound "deployment not found" (query (.deploymentFirstByID id))
  let _ ← orNotFound "deployment not found" (apiQuery (.projectFirstByIDAndOrg dep.projectId p.orgId))
  if !(← context "promote_deployment" (promotableProductionDeployment dep)) then
    throw (apiError "invalid_state" "deployment cannot be promoted to production")
  else if dep.buildId.isNone || dep.imageId.isNone then
    throw (apiError "invalid_state" "deployment has no reusable build artifact")
  else
  createDeployment "promote_deployment" fun id =>
    { id, projectId := dep.projectId, serviceId := dep.serviceId, buildId := dep.buildId
      imageId := dep.imageId, githubCommit := dep.githubCommit, githubBranch := dep.githubBranch }

inductive ApiRequest
  | createProjectDomain (projectID : Option Id) (body : Option String)
  | createServiceDomain (serviceID : Option Id) (body : Option String)
  | verifyProjectDomain (projectID domainID : Option Id)
  | verifyServiceDomain (serviceID domainID : Option Id)
  | changeServiceEndpoints (serviceID : Option Id) (code : String)
  | triggerDeploy (projectID : Option Id) (commit : String)
  | triggerServiceDeploy (serviceID : Option Id) (commit : String)
  | promoteDeployment (deploymentID : Option Id)
  deriving DecidableEq, Repr

def ApiRequest.handle (p : Option Principal) : ApiRequest → Api Unit
  | createProjectDomain project body => do let _ ← Kindling.createProjectDomain p project body
  | createServiceDomain service body => do let _ ← Kindling.createServiceDomain p service body
  | verifyProjectDomain project domain => do let _ ← Kindling.verifyProjectDomain p project domain
  | verifyServiceDomain service domain => do let _ ← Kindling.verifyServiceDomain p service domain
  | changeServiceEndpoints service code => Kindling.changeServiceEndpoints p service code
  | triggerDeploy project commit => do let _ ← Kindling.triggerDeploy p project commit
  | triggerServiceDeploy service commit => do let _ ← Kindling.triggerServiceDeploy p service commit
  | promoteDeployment dep => do let _ ← Api.promoteDeployment p dep

/-- Requests of any principal, and passes of any deployer over any deployment. -/
inductive ApiActor
  | request (n : Nat)
  | pass (n : Nat)
  deriving DecidableEq, Repr

/-- A pass makes its calls statement by statement. -/
def apiStarts : ApiActor → Prog ApiOp (Except Err Unit) → Prop
  | .request _, p => ∃ principal r, p = ApiRequest.handle principal r
  | .pass _, p => ∃ (d : Deployer) (id : Id),
    p = hoist (fun _ => .op) (Prog.interp (fun _ a => a.prog) (reconcileDeployment d id) : Go Op Unit)

abbrev ApiTeam := Team ApiActor ApiOp (Except Err Unit) World

end Kindling
