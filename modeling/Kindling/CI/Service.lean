import Kindling.CI.Jobs
import Kindling.Lib.Typestate
import Kindling.Preview.Naming

/-!
# The job service

The functions of `internal/ci` that change CI jobs: reconcile passes for local workflow runs and for
GitHub runners, cancel requests, and the webhook events of GitHub. Logging, artifacts and the
notification of dashboards are left out.
-/

namespace Kindling

open Fallible

/-- `JobService`. `ghRunner` is the backend of the runner provisioner. -/
structure JobService where
  serverId : Id
  ghRunner : Option String := some "github_actions_runner"
  ghClient : Bool := true

def isTerminalStatus : JobStatus → Bool
  | .successful | .failed | .canceled => true
  | .queued | .running => false

section calls
variable {β : Type}

def readJob (q : JobQuery) : Go JobOp CiJob := ofCall (.read q)

def jobStmt (s : JobStmt β) : Go JobOp β := ofCall (.write s)

def external (c : CiCall) : Go JobOp String := ofCall (.external c)

end calls

/-- `_ = s.q.CIJobMarkFailed(…)` with exit code 1. -/
def markFailedQuietly (job : CiJob) (e : Err) : Go JobOp Unit :=
  discard (jobStmt (.markFailed job.id 1 e.text))

def cancelRunningJob (s : JobService) (jobId : Id) : Go JobOp Unit :=
  ofTotal (.cancelRunning s.serverId jobId)

def JobService.cancel (s : JobService) (jobId : Id) : Go JobOp Unit := do
  let _ ← readJob (.firstByID jobId)
  cancelRunningJob s jobId
  jobStmt (.markCanceled jobId)

/-- The API handler: without a job service the row is marked directly. -/
def cancelCIJob (s : Option JobService) (jobId : Id) : Go JobOp Unit := do
  let job ← readJob (.firstByID jobId)
  match s with
  | some s => s.cancel job.id
  | none => jobStmt (.markCanceled job.id)

def failGitHubRunnerJob (job : CiJob) (e : Err) : Go JobOp Unit :=
  jobStmt (.markFailed job.id 1 e.text)

/-- The part of `reconcileGitHubRunnerJob` in which the job is registered as running. -/
def runGitHubRunner (s : JobService) (job : CiJob) (backend : String) : Go JobOp Unit := do
  match ← attempt (external .generateJITConfig) with
  | .error e => failGitHubRunnerJob job e
  | .ok _ =>
    jobStmt (.markRunning job.id job.workspaceDir backend)
    let r ← attempt (external .runRunner)
    let current ← attempt (readJob (.firstByID job.id))
    if (current.toOption.map fun c => isTerminalStatus c.status) = some true then return
    if ← ofTotal (.contextDone s.serverId job.id) then return
    match r with
    | .error e =>
      discard (external .deleteRunner)
      failGitHubRunnerJob job e
    | .ok _ => return

/-- What `reconcileGitHubRunnerJob` does while it holds the lease. -/
def withGitHubLease (s : JobService) (job : CiJob) : Go JobOp Unit := do
  let _ ← context "load project for GitHub runner job" (external .projectFirstByID)
  match ← attempt (external .githubIntegrationForJob) with
  | .error e => failGitHubRunnerJob job e
  | .ok _ =>
  match ← attempt (external .resolveRunnerTarget) with
  | .error e => failGitHubRunnerJob job e
  | .ok _ =>
  match s.ghRunner with
  | none => failGitHubRunnerJob job (.of (.message "GitHub runner provisioner is not configured"))
  | some backend =>
  match ← attempt (external .supportsTarget) with
  | .error e => failGitHubRunnerJob job e
  | .ok _ =>
  if !s.ghClient then
    failGitHubRunnerJob job (.of (.message "GitHub runner client is not configured"))
  else
    ofTotal (.register s.serverId job.id)
    deferring (ofTotal (.unregister s.serverId job.id)) (runGitHubRunner s job backend)

/-- Claim the lease of a job and release it at the end. A lease that another server has, or a job
that is not queued, is not an error. -/
def withLease (s : JobService) (job : CiJob) (body : CiJob → Go JobOp Unit) : Go JobOp Unit := do
  match ← attempt (jobStmt (.claimLease job.id s.serverId)) with
  | .error e => if e.isNoRows then return else throw e
  | .ok job => deferring (jobStmt (.releaseLease job.id s.serverId)) (body job)

def reconcileGitHubRunnerJob (s : JobService) (job : CiJob) : Go JobOp Unit := do
  if isTerminalStatus job.status then return
  if job.canceledAt.isSome then jobStmt (.markCanceled job.id)
  else withLease s job (withGitHubLease s)

def prepareWorkspace (job : CiJob) : Go JobOp String := do
  if trimSpace job.inputArchivePath == "" then
    throw (.of (.message "ci job has no input archive"))
  external .extractArchive

/-- The part of `Reconcile` in which the job is registered as running. -/
def runWorkflow (s : JobService) (job : CiJob) (workDir : String) : Go JobOp Unit := do
  match ← attempt (external .resolve) with
  | .error e => markFailedQuietly job e
  | .ok _ =>
  match ← attempt (external .compile) with
  | .error e => markFailedQuietly job e
  | .ok _ =>
  match ← attempt (external .newWorkflowRunner) with
  | .error e => markFailedQuietly job e
  | .ok backend =>
    jobStmt (.markRunning job.id workDir backend)
    let r ← attempt (external .runWorkflow)
    if (← ofTotal (.contextDone s.serverId job.id)) || job.canceledAt.isSome then
      discard (jobStmt (.markCanceled job.id))
    else
      match r with
      | .error e => markFailedQuietly job e
      | .ok _ => discard (jobStmt (.markSuccessful job.id 0))

/-- What `Reconcile` does for a local workflow run while it holds the lease. -/
def withLocalLease (s : JobService) (job : CiJob) : Go JobOp Unit := do
  match ← attempt (prepareWorkspace job) with
  | .error e => markFailedQuietly job e
  | .ok workDir =>
    ofTotal (.register s.serverId job.id)
    deferring (ofTotal (.unregister s.serverId job.id)) (runWorkflow s job workDir)

def JobService.reconcile (s : JobService) (jobId : Id) : Go JobOp Unit := do
  let job ← context "fetch ci job" (readJob (.firstByID jobId))
  if job.source = .githubActionsRunner then reconcileGitHubRunnerJob s job
  else if isTerminalStatus job.status then return
  else if job.canceledAt.isSome then jobStmt (.markCanceled job.id)
  else withLease s job (withLocalLease s)

/-! ## Webhook events -/

structure GitHubWorkflowJobEvent where
  action : String
  repoFullName : String := ""
  orgLogin : String := ""
  workflowName : String := ""
  jobName : String := ""
  eventName : String := ""
  workflowJobID : Int := 0
  workflowRunID : Int := 0
  runAttempt : Int := 0
  htmlURL : String := ""
  labels : List String := []
  installationID : Int := 0
  conclusion : String := ""

structure HandleResult where
  job : Option CiJob := none
  shouldSchedule : Bool := false
  ignored : Bool := false
  reason : String := ""

def firstNonEmpty (values : List String) : String :=
  (values.find? fun v => trimSpace v != "").getD ""

def firstNonZero (values : List Int) : Int := (values.find? (0 < ·)).getD 0

/-- Lower-cased, trimmed, without empty labels and repetitions. -/
def normalizeRunnerLabels (labels : List String) : List String :=
  ((labels.map fun l => trimSpace (lower l)).filter (· != "")).reverse.dedup.reverse

@[irreducible] def hasRequiredGitHubRunnerLabels (labels : List String) : Bool :=
  (normalizeRunnerLabels labels).contains "self-hosted" &&
    (normalizeRunnerLabels labels).contains "kindling"

def createGitHubWorkflowJob (project : Id) (event : GitHubWorkflowJobEvent) : Go JobOp CiJob := do
  let jobId ← ofTotal .newUUID
  let connection ← ofTotal .newUUID
  ofCall (.create
    { id := jobId, projectId := project, source := .githubActionsRunner
      workflowName := firstNonEmpty [trimSpace event.workflowName, "GitHub Actions"]
      selectedJobId := trimSpace event.jobName
      eventName := trimSpace event.eventName
      providerConnectionId := some connection
      externalRepo := normalizeRepo event.repoFullName
      externalInstallationId := firstNonZero [event.installationID]
      externalWorkflowJobId := event.workflowJobID
      externalWorkflowRunId := event.workflowRunID
      externalRunAttempt := event.runAttempt
      externalHtmlUrl := trimSpace event.htmlURL
      runnerLabels := normalizeRunnerLabels event.labels
      runnerName := s!"kindling-{event.workflowRunID}-{event.workflowJobID}" })

/-- The actions that are told apart. -/
inductive EventAction | queued | inProgress | completed | unsupported
  deriving DecidableEq, Repr

@[irreducible] def GitHubWorkflowJobEvent.kind (event : GitHubWorkflowJobEvent) : EventAction :=
  let action := trimSpace (lower event.action)
  if action == "queued" then .queued
  else if action == "in_progress" then .inProgress
  else if action == "completed" then .completed
  else .unsupported

inductive Conclusion | success | canceled | failure
  deriving DecidableEq, Repr

@[irreducible] def conclusionOf (conclusion : String) : Conclusion :=
  let c := trimSpace (lower conclusion)
  if c == "" || c == "success" || c == "neutral" then .success
  else if c == "cancelled" || c == "canceled" || c == "skipped" then .canceled
  else .failure

def finishGitHubWorkflowJob (job : CiJob) (conclusion : String) : Go JobOp Unit :=
  match conclusionOf conclusion with
  | .success => jobStmt (.markSuccessful job.id 0)
  | .canceled => jobStmt (.markCanceled job.id)
  | .failure => jobStmt (.markFailed job.id 1 (firstNonEmpty
    [trimSpace job.errorMessage, "GitHub workflow job concluded with " ++ trimSpace conclusion]))

def applyEvent (s : JobService) (job : CiJob) (event : GitHubWorkflowJobEvent) :
    Go JobOp HandleResult := do
  match event.kind with
  | .queued => return { job := some job, shouldSchedule := !isTerminalStatus job.status }
  | .inProgress =>
    if !isTerminalStatus job.status then
      jobStmt (.markRunning job.id job.workspaceDir
        (firstNonEmpty [trimSpace job.executionBackend, "github_actions_runner"]))
    return { job := some job }
  | .completed =>
    finishGitHubWorkflowJob job event.conclusion
    cancelRunningJob s job.id
    return { job := some job }
  | .unsupported => return { ignored := true, reason := "unsupported workflow_job action" }

def handleGitHubWorkflowJobEvent (s : JobService) (event : GitHubWorkflowJobEvent) :
    Go JobOp HandleResult := do
  let repo := normalizeRepo event.repoFullName
  if repo == "" then return { ignored := true, reason := "missing repository" }
  if !hasRequiredGitHubRunnerLabels event.labels then
    return { ignored := true, reason := "job is not targeted at Kindling runners" }
  match ← attempt (ofCall (.projectFindByGitHubRepo repo)) with
  | .error e =>
    if e.isNoRows then
      return { ignored := true, reason := "repository is not connected to a Kindling project" }
    else throw e
  | .ok project =>
  match ← attempt (external .githubIntegrationForProject) with
  | .error e => return { ignored := true, reason := e.text }
  | .ok _ =>
  match ← attempt (readJob (.firstByExternalWorkflowJobID event.workflowJobID)) with
  | .error e =>
    if e.isNoRows then
      let job ← createGitHubWorkflowJob project event
      applyEvent s job event
    else throw e
  | .ok job => applyEvent s job event

/-- The passes of a server over a job, of which its scheduler runs at most one at a time, and any
number of cancel requests and webhook events at once. -/
inductive CiActor
  | pass (server job : Id)
  | cancel (n : Nat)
  | completed (n : Nat)
  | event (n : Nat)
  deriving DecidableEq, Repr

/-- The webhook, whose answer to GitHub is left out. -/
def handleEvent (s : JobService) (event : GitHubWorkflowJobEvent) : Go JobOp Unit := do
  let _ ← handleGitHubWorkflowJobEvent s event

def ciStarts : CiActor → Prog JobOp (Except Err Unit) → Prop
  | .pass server job, p => ∃ s : JobService, s.serverId = server ∧ p = s.reconcile job
  | .cancel _, p => ∃ s job, p = cancelCIJob s job
  | .completed _, p => ∃ s event, event.kind = .completed ∧ p = handleEvent s event
  | .event _, p => ∃ s event, event.kind ≠ .completed ∧ p = handleEvent s event

/-- A pass that is lost takes its cancel function with it. -/
def ciCrash : CiActor → CiWorld → CiWorld
  | .pass server job, w => { w with running := w.running.filter fun r => !r.isFor server job }
  | _, w => w

abbrev CiTeam := Team CiActor JobOp (Except Err Unit) CiWorld

end Kindling
