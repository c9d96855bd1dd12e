import Kindling.CI.Service
import Kindling.Rpc.Domains

/-!
# The GitHub webhook

`internal/webhook`: a request names a repository, whose project is looked up; the request has to be
signed with the secret of the project, or for a `workflow_job` event with that of an integration of the
organization; then the event is dispatched. What `encoding/json`, decryption and HMAC compute comes from
outside.
-/

namespace Kindling

open Fallible

structure PushCommit where
  added : List String := []
  modified : List String := []
  removed : List String := []
  deriving DecidableEq, Repr

structure PushEvent where
  ref : String
  after : String
  commits : List PushCommit := []
  deriving DecidableEq, Repr

structure PullRequestEvent where
  action : String
  number : Int
  headRef : String := ""
  headSha : String := ""
  deriving DecidableEq, Repr

structure WorkflowJob where
  id : Int := 0
  runId : Int := 0
  runAttempt : Int := 0
  htmlUrl : String := ""
  conclusion : String := ""
  name : String := ""
  workflowName : String := ""
  event : String := ""
  labels : List String := []
  deriving DecidableEq, Repr

structure WorkflowJobEvent where
  action : String
  repositoryFullName : String := ""
  organizationLogin : String := ""
  installationId : Int := 0
  workflowJob : WorkflowJob := {}
  deriving DecidableEq, Repr

structure HookRequest where
  method : Method
  /-- `none` when the body cannot be read. -/
  body : Option Bytes
  /-- `X-GitHub-Event` -/
  event : String := ""
  /-- `X-Hub-Signature-256` -/
  signature : String := ""
  deriving DecidableEq, Repr

/-- A row of `org_provider_connections`. -/
structure ProviderConnection where
  id : Id
  organizationId : Id
  provider : String
  externalSlug : String := ""
  displayLabel : String := ""
  credentialsCiphertext : Bytes := []
  metadata : String := ""
  deriving DecidableEq, Repr

structure ProviderMetadata where
  mode : String := ""
  orgLogin : String := ""
  appId : Int := 0
  installationId : Int := 0
  deriving DecidableEq, Repr

structure ProviderCredentials where
  appPrivateKeyPEM : String := ""
  webhookSecret : String := ""
  deriving DecidableEq, Repr

structure Integration where
  connection : ProviderConnection
  metadata : ProviderMetadata
  credentials : ProviderCredentials
  deriving DecidableEq, Repr

/-- Functions that come from outside. An `unmarshal` function is `json.Unmarshal` into its type. -/
structure HookTools where
  /-- The repository of any event. -/
  unmarshalGeneric : Bytes → Option String
  unmarshalPush : Bytes → Option PushEvent
  unmarshalPullRequest : Bytes → Option PullRequestEvent
  unmarshalWorkflowJob : Bytes → Option WorkflowJobEvent
  unmarshalMetadata : String → Option ProviderMetadata
  unmarshalCredentials : String → Option ProviderCredentials
  /-- `hmac.New(sha256.New, []byte(secret))` -/
  hmacSHA256 : String → Bytes → Bytes

structure HookHandler where
  tools : HookTools
  /-- `DecryptBytes` of the configuration, if there is one. -/
  cfg : Option (Bytes → Option String) := none
  ciJobService : Option JobService := none

def HookTools.parseProviderMetadata (tools : HookTools) (raw : String) : Option ProviderMetadata :=
  if raw == "" then some {}
  else (tools.unmarshalMetadata raw).map fun m =>
    { m with mode := trimSpace (lower m.mode), orgLogin := trimSpace m.orgLogin }

/-- Credentials are JSON, or the private key alone, which they need. -/
def HookTools.parseProviderCredentials (tools : HookTools) (raw : String) :
    Option ProviderCredentials :=
  let trimmed := trimSpace raw
  let creds := if hasPrefix trimmed "\x7b" then tools.unmarshalCredentials trimmed
    else some { appPrivateKeyPEM := trimmed }
  if trimmed == "" then none
  else (creds.map fun c => { c with
      appPrivateKeyPEM := trimSpace c.appPrivateKeyPEM
      webhookSecret := trimSpace c.webhookSecret }).filter (·.appPrivateKeyPEM != "")

def providerModeActionsRunner : String := "actions_runner"

def HookTools.integrationFromConnection (tools : HookTools) (conn : ProviderConnection)
    (decryptedCredentials : String) : Option Integration := do
  let metadata ← tools.parseProviderMetadata conn.metadata
  if metadata.mode != providerModeActionsRunner then none
  else
  let credentials ← tools.parseProviderCredentials decryptedCredentials
  if trimSpace metadata.orgLogin == "" || metadata.appId ≤ 0 || metadata.installationId ≤ 0 then none
  else some { connection := conn, metadata, credentials }

def resolveIntegrationForOwner (integrations : List Integration) (owner : String) :
    Option Integration :=
  let owner := trimSpace (lower owner)
  if owner == "" then none
  else integrations.find? fun i => equalFold (trimSpace i.metadata.orgLogin) owner ||
    equalFold (trimSpace i.connection.externalSlug) owner

/-- The connections that are GitHub integrations. A connection that cannot be used is passed over. -/
def HookHandler.integrations (h : HookHandler) (rows : List ProviderConnection) :
    List Integration :=
  rows.filterMap fun row => do
    if trimSpace (lower row.provider) != "github" then none
    else
    let plain ← (← h.cfg) row.credentialsCiphertext
    h.tools.integrationFromConnection row plain

/-- The state that the webhook reads and writes: the database with its jobs, and what the polling
sweeps have created, of which the database has no record. -/
structure HookWorld where
  db : World := default
  ci : CiWorld := {}
  connections : Table Id ProviderConnection (·.id) := .empty
  /-- The service and the commit of each deployment that a sweep has created. -/
  swept : List (Id × String) := []

inductive HookQuery : Type → Type
  | projectFindByGitHubRepo (repo : String) : HookQuery Project
  | projectFindAllWithGitHub : HookQuery (List Project)
  | serviceListByProjectID (projectId : Id) : HookQuery (List Service)
  | orgProviderConnectionListByOrg (orgId : Id) : HookQuery (List ProviderConnection)
  | previewEnvironmentByProjectAndPR (projectId : Id) (prNumber : Nat) : HookQuery PreviewEnvironment
  | deploymentsByPreviewEnvironmentID (envId : Id) : HookQuery (List Deployment)
  | deploymentLatestSuccessfulForProject (projectId serviceId : Id) : HookQuery Deployment

/-- `ORDER BY provider ASC, display_label ASC` -/
def ProviderConnection.before (a b : ProviderConnection) : Bool :=
  decide (a.provider < b.provider) || a.provider == b.provider && decide (a.displayLabel ≤ b.displayLabel)

def HookWorld.connectionsOf (w : HookWorld) (orgId : Id) : List ProviderConnection :=
  (w.connections.rows.filter (·.organizationId == orgId)).insertionSort fun a b => a.before b = true

/-- `ORDER BY is_primary DESC, created_at ASC`, with the rows in the order of their creation. -/
def HookWorld.servicesOf (w : HookWorld) (projectId : Id) : List Service :=
  let rows := w.db.services.rows.filter (·.projectId == projectId)
  rows.filter (·.isPrimary) ++ rows.filter (!·.isPrimary)

def HookQuery.eval (w : HookWorld) : HookQuery β → Except Err β
  | projectFindByGitHubRepo repo => one (w.db.projects.rows.find? (·.githubRepository == repo))
  | projectFindAllWithGitHub => .ok (w.db.projects.rows.filter (·.githubRepository != "")).reverse
  | serviceListByProjectID p => .ok (w.servicesOf p)
  | orgProviderConnectionListByOrg org => .ok (w.connectionsOf org)
  | previewEnvironmentByProjectAndPR p n =>
    one (w.db.previewEnvironments.rows.find? fun e => e.projectId == p && e.prNumber == n)
  | deploymentsByPreviewEnvironmentID env => .ok (w.db.deployments.selectBy
      (fun d => d.previewEnvironmentId == some env && d.deletedAt.isNone) (·.createdAt)).reverse
  | deploymentLatestSuccessfulForProject p s =>
    one (w.db.latestRunning fun d => d.projectId == p && d.serviceId == some s)

inductive PreviewStmt : Type → Type
  | create (env : PreviewEnvironment) : PreviewStmt PreviewEnvironment
  | reopen (id : Id) (headBranch headSha : String) : PreviewStmt PreviewEnvironment
  | setLatestDeployment (id deploymentId : Id) : PreviewStmt Unit
  | markClosed (id : Id) (expiresAt : Time) : PreviewStmt PreviewEnvironment
  /-- `DeploymentsMarkStoppedByPreviewEnvironment` -/
  | stopDeployments (id : Id) : PreviewStmt Unit
  | delete (id : Id) : PreviewStmt Unit

def World.withPreviewEnvironments (t : Table Id PreviewEnvironment (·.id)) (w : World) : World :=
  { w with previewEnvironments := t }

def PreviewStmt.exec (now : Time) : PreviewStmt β → World → Except Err β × World
  | create env, w =>
    -- `UNIQUE (project_id, provider, pr_number)`
    if w.previewEnvironments.rows.any fun e =>
        e.projectId == env.projectId && e.prNumber == env.prNumber then
      (.error (.of .uniqueViolation), w)
    else
      let r := inserting w.previewEnvironments env
      (r.1, w.withPreviewEnvironments r.2)
  | reopen id headBranch headSha, w =>
    let r := returning (w.previewEnvironments.updateKey id (fun _ => true)
      ({ · with headBranch, headSha, closedAt := none, expiresAt := none }) fun _ => rfl)
    (r.1, w.withPreviewEnvironments r.2)
  | setLatestDeployment id dep, w =>
    (.ok (), w.withPreviewEnvironments (w.previewEnvironments.updateKey id (fun _ => true)
      ({ · with latestDeploymentId := some dep }) fun _ => rfl).2)
  | markClosed id expiresAt, w =>
    let r := returning (w.previewEnvironments.updateKey id (fun _ => true)
      ({ · with closedAt := some now, expiresAt := some expiresAt }) fun _ => rfl)
    (r.1, w.withPreviewEnvironments r.2)
  | stopDeployments id, w =>
    (.ok (), w.withDeployments (w.deployments.updateWhere
      (fun d => d.previewEnvironmentId == some id && d.kind == .preview && d.live)
      ({ · with stoppedAt := some now }) fun _ => rfl))
  | delete id, w =>
    -- Domains go with their environment, and deployments lose it.
    let w := w.withDomains (w.domains.keep fun d => d.previewEnvironmentId != some id)
    let w := w.withDeployments (w.deployments.updateWhere (·.previewEnvironmentId == some id)
      ({ · with previewEnvironmentId := none }) fun _ => rfl)
    (.ok (), w.withPreviewEnvironments (w.previewEnvironments.keep (·.id != id)))

inductive HookOp : Type → Type 1
  /-- What the requests of the API and the passes of a deployer do. -/
  | api {β : Type} (o : ApiOp β) : HookOp β
  | job {β : Type} (o : JobOp β) : HookOp β
  | query {β : Type} (q : HookQuery β) : HookOp (Except Err β)
  | previews {β : Type} (s : PreviewStmt β) : HookOp (Except Err β)
  /-- `DeploymentCreate` by a polling sweep. -/
  | sweepCreate (dep : Deployment) : HookOp (Except Err Deployment)
  /-- `githubapi.ResolveCommit`, for the default branch. -/
  | resolveCommit (repo : String) : HookOp (Except Err String)
  /-- `time.Now` -/
  | now : HookOp Time

/-- Carry an execution on a part of the state over to the whole. -/
def HookWorld.within (r : Outcome β τ Answer) (set : τ → HookWorld) : Outcome β HookWorld Answer :=
  ⟨r.value, set r.state, r.rest⟩

def HookOp.exec : HookOp β → List Answer → HookWorld → Outcome β HookWorld Answer
  | api o, as, w => HookWorld.within (o.exec as w.db) ({ w with db := · })
  | job o, as, w => HookWorld.within (Effect.exec o as w.ci) ({ w with ci := · })
  | query q, as, w =>
    ⟨if (as.headD default).fail then .error (.of .unavailable) else q.eval w, w, as.tail⟩
  | previews s, as, w =>
    let a := as.headD default
    if a.fail then ⟨.error (.of .unavailable), w, as.tail⟩
    else ⟨(s.exec a.now w.db).1, { w with db := (s.exec a.now w.db).2 }, as.tail⟩
  | sweepCreate dep, as, w =>
    let r := (ApiOp.deploymentCreate dep).exec as w.db
    ⟨r.value, { w with
      db := r.state
      swept := match r.value, dep.serviceId with
        | .ok _, some service => (service, dep.githubCommit) :: w.swept
        | _, _ => w.swept }, r.rest⟩
  | resolveCommit _, as, w =>
    let a := as.headD default
    ⟨if a.fail then .error (.of .unavailable) else .ok a.text, w, as.tail⟩
  | now, as, w => ⟨(as.headD default).now, w, as.tail⟩

instance : Effect HookOp Answer HookWorld where
  exec := HookOp.exec

/-- An error of the handler: `http.Error`. -/
structure HttpError where
  status : Nat
  text : String
  deriving DecidableEq, Repr

structure HookResponse where
  status : Nat
  text : String := ""
  deriving DecidableEq, Repr

abbrev Hook := Fallible HttpError HookOp

def hookQuery (q : HookQuery β) : Go HookOp β := ofCall (.query q)

def previewStmt (s : PreviewStmt β) : Go HookOp β := ofCall (.previews s)

def hookNewUUID : Hook Id := ofTotal (.api (.op (.db .newUUID)))

instance : Reads HookOp := ⟨fun q => .api (.op (.db (.query q)))⟩

def internalError : HttpError := ⟨500, "internal error"⟩

def invalidJSON : HttpError := ⟨400, "invalid JSON"⟩

def orInternal (p : Go HookOp β) : Hook β := mapError (fun _ => internalError) p

def orThrow (e : HttpError) : Option α → Hook α
  | some a => return a
  | none => throw e

/-- The prefix of a signature in hexadecimal digits. -/
def signatureScheme : String := "sha256="

def enforceSignature (tools : HookTools) (body : Bytes) (signature secret : String) :
    Except HttpError Unit :=
  if trimSpace secret == "" then .error ⟨401, "webhook secret not configured"⟩
  else if signature == "" then .error ⟨401, "missing X-Hub-Signature-256"⟩
  else if !hasPrefix signature signatureScheme then .error ⟨401, "invalid signature prefix"⟩
  else match hexDecode (trimPrefix signatureScheme signature).toList with
    | none => .error ⟨401, "malformed signature hex"⟩
    | some sig =>
      if sig == tools.hmacSHA256 secret body then .ok () else .error ⟨403, "signature mismatch"⟩

/-- The owner of the repository, unless the event names an organization. -/
def WorkflowJobEvent.owner (event : WorkflowJobEvent) : String :=
  let owner := trimSpace event.organizationLogin
  if owner != "" then owner
  else
    let repo := (normalizeRepo event.repositoryFullName).toList
    trimSpace (String.ofList (((cut ['/'] repo).map (·.1)).getD repo))

def resolveWorkflowJobSecret (h : HookHandler) (event : WorkflowJobEvent) (project : Project) :
    Go HookOp String := do
  let rows ← hookQuery (.orgProviderConnectionListByOrg project.orgId)
  match resolveIntegrationForOwner (h.integrations rows) event.owner with
  | none => throw (.of .noRows)
  | some integration => return trimSpace integration.credentials.webhookSecret

def webhookSecret (h : HookHandler) (event : String) (body : Bytes) (project : Project) :
    Hook String := do
  if event == "workflow_job" then
    let wjEvent ← orThrow invalidJSON (h.tools.unmarshalWorkflowJob body)
    mapError (fun e => if e.isNoRows then ⟨401, "webhook secret not configured"⟩ else internalError)
      (resolveWorkflowJobSecret h wjEvent project)
  else return project.githubWebhookSecret

/-- The first four steps of `ServeHTTP`: the body and the project of a request that is signed. -/
def authenticate (h : HookHandler) (r : HookRequest) : Hook (Bytes × Project) := do
  if r.method != .post then throw ⟨405, "method not allowed"⟩
  else
  let body ← orThrow ⟨400, "read body failed"⟩ r.body
  if r.event == "" then throw ⟨400, "missing X-GitHub-Event"⟩
  else
  let fullName ← orThrow invalidJSON (h.tools.unmarshalGeneric body)
  if trimSpace fullName == "" then throw ⟨400, "missing repository"⟩
  else
  let project ← mapError (fun e => if e.isNoRows then ⟨404, "project not found"⟩ else internalError)
    (hookQuery (.projectFindByGitHubRepo (normalizeRepo (trimSpace fullName))))
  let secret ← webhookSecret h r.event body project
  ofResult (enforceSignature h.tools body r.signature secret)
  return (body, project)

def maxPushCommitsInWebhook : Nat := 2048

/-- The files of a push, if the event has all of them. -/
def pushChangedFiles (push : PushEvent) : Option (List String) :=
  if push.commits.length = 0 || maxPushCommitsInWebhook ≤ push.commits.length then none
  else
    let files := push.commits.flatMap fun c => c.added ++ c.modified ++ c.removed
    if files.isEmpty then none else some files

def rootDirectoryMatchesChangedFiles (rootDir : String) (files : List String) : Bool :=
  let rootDir := trimSpace rootDir
  let dir := trimSuffix "/" (trimPrefix "/" rootDir)
  if rootDir == "" || rootDir == "/" || dir == "" then !files.isEmpty
  else files.any fun file =>
    let file := trimPrefix "/" (trimSpace file)
    file == dir || hasPrefix file (dir ++ "/")

def shouldCreateDeploymentForService (service : Service) (push : PushEvent) : Bool :=
  !service.buildOnlyOnRootChanges || match pushChangedFiles push with
    | none => true
    | some files => rootDirectoryMatchesChangedFiles service.rootDirectory files

def createForServices (project : Project) (push : PushEvent) (branch : String) :
    List Service → Hook Nat
  | [] => return 0
  | service :: rest => do
    if !shouldCreateDeploymentForService service push then createForServices project push branch rest
    else
    let id ← hookNewUUID
    let _ ← orInternal (ofCall (.api (.deploymentCreate
      { id, projectId := project.id, serviceId := some service.id, githubCommit := push.after
        githubBranch := branch })))
    let created ← createForServices project push branch rest
    return created + 1

def handlePush (h : HookHandler) (body : Bytes) (project : Project) : Hook HookResponse := do
  let push ← orThrow invalidJSON (h.tools.unmarshalPush body)
  let branch := trimPrefix "refs/heads/" push.ref
  if branch != "main" && branch != "master" then return ⟨200, "ignored branch: " ++ branch⟩
  else
  let services ← orInternal (hookQuery (.serviceListByProjectID project.id))
  let created ← createForServices project push branch services
  return { status := if created = 0 then 200 else 201 }

/-! ## Pull requests -/

def settingPreviewRetentionAfterCloseSecs : String := "preview_retention_after_close_seconds"

def previewBaseDomain : Go HookOp String := do
  match ← attempt (query (.clusterSettingGet settingPreviewBaseDomain) : Go HookOp String) with
  | .error _ => return ""
  | .ok v => return trimSpace v

def previewRetentionSeconds : Go HookOp Nat := do
  match ← attempt (query (.clusterSettingGet settingPreviewRetentionAfterCloseSecs) :
      Go HookOp String) with
  | .error _ => return 3600
  | .ok v =>
    match atoi (trimSpace v).toList with
    | some n => return if n < 0 then 3600 else n.toNat
    | none => return 3600

/-- `int32(payload.Number)`; a number that is not positive counts as 0. -/
def prNumberOf (n : Int) : Nat := ((n + 2 ^ 31) % 2 ^ 32 - 2 ^ 31).toNat

def stopEnvironmentDeployments (env : Id) : Go HookOp (List Deployment) := do
  let deps ← hookQuery (.deploymentsByPreviewEnvironmentID env)
  previewStmt (.stopDeployments env)
  return deps

def handlePullRequestClosed (project : Project) (prNumber : Nat) : Hook HookResponse := do
  match ← orInternalUnlessNoRows (hookQuery (.previewEnvironmentByProjectAndPR project.id prNumber)) with
  | none => return ⟨200, "no preview environment for PR"⟩
  | some pe =>
  let retention ← orInternal previewRetentionSeconds
  let now ← ofTotal .now
  let _ ← orInternal (previewStmt (.markClosed pe.id (now + retention * second)))
  let _ ← orInternal (stopEnvironmentDeployments pe.id)
  if retention = 0 then
    orInternal (previewStmt (.delete pe.id))
    return { status := 200 }
  else return { status := 200 }
where
  /-- A missing row is no error. -/
  orInternalUnlessNoRows {β : Type} (p : Go HookOp β) : Hook (Option β) := orInternal (do
      match ← attempt p with
      | .ok b => return some b
      | .error e => if e.isNoRows then return none else throw e)

/-- The environment of the pull request: the one that exists is reopened. -/
def previewEnvironment (project : Project) (service : Service) (prNumber : Nat)
    (headBranch headSha stableHost : String) : Go HookOp PreviewEnvironment := do
  match ← attempt (hookQuery (.previewEnvironmentByProjectAndPR project.id prNumber)) with
  | .error e =>
    if e.isNoRows then
      let id ← ofTotal (.api (.op (.db .newUUID)))
      previewStmt (.create
        { id, projectId := project.id, serviceId := some service.id, prNumber, headBranch, headSha
          stableDomainName := stableHost })
    else throw e
  | .ok existing => previewStmt (.reopen existing.id headBranch headSha)

def pointStableDomain (project : Project) (service : Service) (env dep : Id) (stableHost : String) :
    Go HookOp Unit := do
  match ← attempt (query (.domainFindByPreviewEnvironmentAndKind env .previewStable) :
      Go HookOp Domain) with
  | .error e =>
    if e.isNoRows then
      let id ← ofTotal (.api (.op (.db .newUUID)))
      let _ ← (ofCall (.api (.op (.db (.domains (.create
        { id, projectId := project.id, serviceId := some service.id, deploymentId := some dep
          domainName := stableHost, kind := .previewStable, previewEnvironmentId := some env }))))) :
        Go HookOp Domain)
    else throw e
  | .ok stable => ofCall (.api (.op (.db (.domains (.updateDeploymentForDomainID stable.id dep)))))

def handlePullRequestSync (project : Project) (payload : PullRequestEvent) (baseDomain : String) :
    Hook HookResponse := do
  let headBranch := trimPrefix "refs/heads/" payload.headRef
  let sha := trimSpace payload.headSha
  if sha == "" then throw ⟨400, "missing head sha"⟩
  else
  let service ← orInternal (ofCall (.api (.query (.servicePrimaryByProjectID project.id))))
  let stableHost := stableHostname payload.number service.slug project.name baseDomain
  if stableHost == "" then throw ⟨400, "invalid preview base domain"⟩
  else
  let pe ← orInternal
    (previewEnvironment project service (prNumberOf payload.number) headBranch sha stableHost)
  let id ← hookNewUUID
  let dep ← orInternal (ofCall (.api (.deploymentCreate
    { id, projectId := project.id, serviceId := some service.id, githubCommit := sha
      githubBranch := headBranch, kind := .preview, previewEnvironmentId := some pe.id })))
  orInternal (previewStmt (.setLatestDeployment pe.id dep.id))
  orInternal (pointStableDomain project service pe.id dep.id stableHost)
  return { status := 201 }

def handlePullRequest (h : HookHandler) (body : Bytes) (project : Project) : Hook HookResponse := do
  let payload ← orThrow invalidJSON (h.tools.unmarshalPullRequest body)
  let baseDomain ← orInternal previewBaseDomain
  if trimSpace baseDomain == "" then
    return ⟨200, "preview disabled: set cluster_settings.preview_base_domain"⟩
  else
  let action := lower (trimSpace payload.action)
  if action == "closed" then handlePullRequestClosed project (prNumberOf payload.number)
  else if action == "opened" || action == "reopened" || action == "synchronize" then
    handlePullRequestSync project payload baseDomain
  else return ⟨200, "ignored PR action: " ++ action⟩

def handleWorkflowJob (h : HookHandler) (body : Bytes) : Hook HookResponse := do
  match h.ciJobService with
  | none => throw ⟨503, "ci workflow job handler unavailable"⟩
  | some service =>
  let event ← orThrow invalidJSON (h.tools.unmarshalWorkflowJob body)
  let result ← mapError (fun e => ⟨500, e.text⟩) (hoist (fun _ => HookOp.job)
    (handleGitHubWorkflowJobEvent service
      { action := trimSpace event.action
        repoFullName := normalizeRepo event.repositoryFullName
        orgLogin := trimSpace event.organizationLogin
        workflowName := trimSpace event.workflowJob.workflowName
        jobName := trimSpace event.workflowJob.name
        eventName := trimSpace event.workflowJob.event
        workflowJobID := event.workflowJob.id
        workflowRunID := event.workflowJob.runId
        runAttempt := event.workflowJob.runAttempt
        htmlURL := trimSpace event.workflowJob.htmlUrl
        labels := event.workflowJob.labels
        installationID := event.installationId
        conclusion := trimSpace event.workflowJob.conclusion }))
  if result.ignored then return ⟨200, "ignored: " ++ result.reason⟩
  else return ⟨200, "ok"⟩

def dispatchEvent (h : HookHandler) (event : String) (body : Bytes) (project : Project) :
    Hook HookResponse := do
  if event == "push" then handlePush h body project
  else if event == "pull_request" then handlePullRequest h body project
  else if event == "workflow_job" then handleWorkflowJob h body
  else return ⟨200, "ignored event: " ++ event⟩

def serveHTTP (h : HookHandler) (r : HookRequest) : Hook HookResponse := do
  let (body, project) ← authenticate h r
  dispatchEvent h r.event body project

end Kindling
