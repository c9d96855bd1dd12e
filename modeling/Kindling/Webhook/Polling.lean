import Kindling.Webhook.GitHub

/-!
# Polling for missed webhooks

`runWebhookPollingOnce` of `cmd/kindling/serve_background.go`, which every server runs every five minutes:
a sweep compares the head of each repository with the latest successful deployment of each service, and
creates a deployment when they differ.
-/

namespace Kindling

open Fallible

def resolveHead (repo : String) : Go HookOp String := do
  let repo := normalizeRepo repo
  if repo == "" then throw (.of (.message "empty repository"))
  else
  let sha ← ofCall (.resolveCommit repo)
  if trimSpace sha == "" then throw (.of (.message "empty commit sha from GitHub"))
  else return trimSpace sha

/-- A failed creation is logged. -/
def sweepDeploy (proj : Project) (headSHA : String) (svc : Service) : Go HookOp Unit := do
  let id ← ofTotal (.api (.op (.db .newUUID)))
  discard (ofCall (.sweepCreate
    { id, projectId := proj.id, serviceId := some svc.id, githubCommit := headSHA
      githubBranch := "main" }))

def pollService (proj : Project) (headSHA : String) (svc : Service) : Go HookOp Unit := do
  match ← attempt (hookQuery (.deploymentLatestSuccessfulForProject proj.id svc.id)) with
  | .error e => if e.isNoRows then sweepDeploy proj headSHA svc else return
  | .ok latestDep =>
    if latestDep.githubCommit == headSHA then return else sweepDeploy proj headSHA svc

def pollProject (proj : Project) : Go HookOp Unit := do
  let repo := trimSpace proj.githubRepository
  if repo == "" then return
  else
  match ← attempt (resolveHead repo) with
  | .error _ => return
  | .ok headSHA =>
  match ← attempt (hookQuery (.serviceListByProjectID proj.id)) with
  | .error _ => return
  | .ok services => forEach services (pollService proj headSHA)

def runWebhookPollingOnce : Go HookOp Unit := do
  match ← attempt (hookQuery .projectFindAllWithGitHub) with
  | .error _ => return
  | .ok projects => forEach projects pollProject

/-- Sweeps of any servers, webhooks, and whatever else writes to the database. -/
inductive PollActor
  | sweep (n : Nat)
  | webhook (n : Nat)
  | other (n : Nat)
  deriving DecidableEq, Repr

def HookOp.Unsweeping (β : Type) : HookOp β → Prop
  | .sweepCreate _ => False
  | _ => True

/-- The other programs are any that do not sweep: deployments come to run, fail, and are stopped. -/
def pollStarts : PollActor → Prog HookOp Unit → Prop
  | .sweep _, p => p = quietly runWebhookPollingOnce
  | .webhook _, p => ∃ h r, p = quietly (serveHTTP h r)
  | .other _, p => p.Uses HookOp.Unsweeping

abbrev PollTeam := Team PollActor HookOp Unit HookWorld

end Kindling
