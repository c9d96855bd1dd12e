import Kindling.Deploy.Effects

/-!
# CI jobs

The table `ci_jobs` with the statements that `internal/ci` makes on it, and what else the functions
of a `JobService` do: the map of cancel functions that each server keeps for the jobs it is running,
and calls out of the package (workflow compiler and runners, GitHub, the file system), whose results
are the environment's.
-/

namespace Kindling

inductive JobStatus | queued | running | successful | failed | canceled
  deriving DecidableEq, Repr

inductive JobSource | localWorkflowRun | githubActionsRunner
  deriving DecidableEq, Repr

structure CiJob where
  id : Id
  projectId : Id
  status : JobStatus := .queued
  source : JobSource := .localWorkflowRun
  workflowName : String := ""
  selectedJobId : String := ""
  eventName : String := ""
  inputArchivePath : String := ""
  providerConnectionId : Option Id := none
  externalRepo : String := ""
  externalInstallationId : Int := 0
  externalWorkflowJobId : Int := 0
  externalWorkflowRunId : Int := 0
  externalRunAttempt : Int := 0
  externalHtmlUrl : String := ""
  runnerLabels : List String := []
  runnerName : String := ""
  requireMicrovm : Bool := true
  executionBackend : String := ""
  workspaceDir : String := ""
  processingBy : Option Id := none
  exitCode : Option Int := none
  errorMessage : String := ""
  startedAt : Option Time := none
  finishedAt : Option Time := none
  canceledAt : Option Time := none
  createdAt : Time := 0
  deriving DecidableEq, Repr

abbrev JobTable := Table Id CiJob (·.id)

/-- The updates of one row of `ci_jobs`. -/
inductive JobStmt : Type → Type
  | claimLease (id server : Id) : JobStmt CiJob
  | releaseLease (id server : Id) : JobStmt Unit
  | markRunning (id : Id) (workspaceDir executionBackend : String) : JobStmt Unit
  | markSuccessful (id : Id) (exitCode : Int) : JobStmt Unit
  | markFailed (id : Id) (exitCode : Int) (errorMessage : String) : JobStmt Unit
  | markCanceled (id : Id) : JobStmt Unit
  | updateInputArchivePath (id : Id) (path : String) : JobStmt Unit

namespace JobStmt

def target : JobStmt β → Id
  | claimLease id _ | releaseLease id _ | markRunning id .. | markSuccessful id _ | markFailed id ..
  | markCanceled id | updateInputArchivePath id _ => id

/-- The rest of the `WHERE` clause. -/
def applies : JobStmt β → CiJob → Bool
  | claimLease _ s, j => j.status == .queued && (j.processingBy == none || j.processingBy == some s)
  | releaseLease _ s, j => j.processingBy == some s
  | _, _ => true

def change (now : Time) : JobStmt β → CiJob → CiJob
  | claimLease _ s, j => { j with processingBy := some s }
  | releaseLease .., j => { j with processingBy := none }
  | markRunning _ dir backend, j =>
    { j with status := .running, workspaceDir := dir, executionBackend := backend,
             startedAt := some now }
  | markSuccessful _ code, j =>
    { j with status := .successful, exitCode := some code, finishedAt := some now }
  | markFailed _ code msg, j =>
    { j with status := .failed, exitCode := some code, errorMessage := msg, finishedAt := some now }
  | markCanceled _, j =>
    { j with status := .canceled, canceledAt := some now, finishedAt := some now }
  | updateInputArchivePath _ path, j => { j with inputArchivePath := path }

theorem change_id (now : Time) (s : JobStmt β) (j : CiJob) : (s.change now j).id = j.id := by
  cases s <;> rfl

def result : JobStmt β → Option CiJob → Except Err β
  | claimLease .., r => one r
  | releaseLease .., _ | markRunning .., _ | markSuccessful .., _ | markFailed .., _
  | markCanceled _, _ | updateInputArchivePath .., _ => .ok ()

def exec (now : Time) (s : JobStmt β) (t : JobTable) : Except Err β × JobTable :=
  let r := t.updateKey s.target s.applies (s.change now) (s.change_id now)
  (s.result r.1, r.2)

end JobStmt

/-- `CIJobCreate` and `CIJobCreateGitHubRunner`. The external id of a GitHub job is unique. -/
def createJob (now : Time) (job : CiJob) (t : JobTable) : Except Err CiJob × JobTable :=
  if job.source == .githubActionsRunner && job.externalWorkflowJobId != 0 && t.rows.any fun j =>
      j.source == .githubActionsRunner && j.externalWorkflowJobId == job.externalWorkflowJobId then
    (.error (.of .uniqueViolation), t)
  else inserting t { job with createdAt := now }

inductive JobQuery
  | firstByID (id : Id)
  | firstByExternalWorkflowJobID (id : Int)
  deriving DecidableEq, Repr

def JobQuery.eval (t : JobTable) : JobQuery → Except Err CiJob
  | firstByID id => one (t.find? id)
  | firstByExternalWorkflowJobID id =>
    one (t.rows.find? fun j => j.source == .githubActionsRunner && j.externalWorkflowJobId == id)

/-- An entry of the map `running` of a server's `JobService`: the cancel function of a job, and
whether it has been called. -/
structure Registration where
  server : Id
  job : Id
  canceled : Bool := false
  deriving DecidableEq, Repr

structure CiWorld where
  jobs : JobTable := .empty
  /-- The projects that are connected to a repository. -/
  repositories : List (String × Id) := []
  running : List Registration := []

def Registration.isFor (server job : Id) (r : Registration) : Bool :=
  r.server == server && r.job == job

def Registration.cancelFor (server job : Id) (r : Registration) : Registration :=
  if r.isFor server job then { r with canceled := true } else r

/-- Calls that leave the package. -/
inductive CiCall
  | extractArchive | resolve | compile | newWorkflowRunner | runWorkflow
  | githubIntegrationForProject | projectFirstByID | githubIntegrationForJob | resolveRunnerTarget
  | supportsTarget | generateJITConfig | runRunner | deleteRunner
  deriving DecidableEq, Repr

inductive JobOp : Type → Type 1
  | read (q : JobQuery) : JobOp (Except Err CiJob)
  | write {β : Type} (s : JobStmt β) : JobOp (Except Err β)
  | create (job : CiJob) : JobOp (Except Err CiJob)
  | projectFindByGitHubRepo (repo : String) : JobOp (Except Err Id)
  | external (c : CiCall) : JobOp (Except Err String)
  /-- `s.running[jobID] = cancel`, with the cancel function of a new context. -/
  | register (server job : Id) : JobOp Unit
  /-- `delete(s.running, jobID)` -/
  | unregister (server job : Id) : JobOp Unit
  /-- Call the cancel function of the job, if there is one. -/
  | cancelRunning (server job : Id) : JobOp Unit
  /-- `runCtx.Err() != nil`: the context has been canceled, or the one it comes from has. -/
  | contextDone (server job : Id) : JobOp Bool
  | newUUID : JobOp Id

def JobOp.step : JobOp β → Answer → CiWorld → β × CiWorld
  | read q, a, w => (if a.fail then .error (.of .unavailable) else q.eval w.jobs, w)
  | write s, a, w =>
    if a.fail then (.error (.of .unavailable), w)
    else ((s.exec a.now w.jobs).1, { w with jobs := (s.exec a.now w.jobs).2 })
  | create job, a, w =>
    if a.fail then (.error (.of .unavailable), w)
    else ((createJob a.now job w.jobs).1, { w with jobs := (createJob a.now job w.jobs).2 })
  | projectFindByGitHubRepo repo, a, w =>
    (if a.fail then .error (.of .unavailable)
      else one ((w.repositories.find? (·.1 == repo)).map (·.2)), w)
  | external _, a, w => (if a.fail then .error (.of (.message a.text)) else .ok a.text, w)
  | register server job, _, w =>
    ((), { w with running := { server, job } :: w.running.filter fun r => !r.isFor server job })
  | unregister server job, _, w =>
    ((), { w with running := w.running.filter fun r => !r.isFor server job })
  | cancelRunning server job, _, w =>
    ((), { w with running := w.running.map (·.cancelFor server job) })
  | contextDone server job, a, w =>
    (!a.ok || w.running.any fun r => r.isFor server job && r.canceled, w)
  | newUUID, a, w => (a.uuids 0, w)

instance : Atomic JobOp Answer CiWorld where
  step := JobOp.step

end Kindling
