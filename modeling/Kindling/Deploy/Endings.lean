import Kindling.Deploy.Reconcile

/-!
# Passes and the ends of deployments

Passes over deployments run side by side with what ends a deployment: a cancellation
(`cancelDeployment` in `internal/rpc/deployments/handlers.go`), the cleanup of a preview environment
(`internal/preview/cleanup.go`), a deletion, and passes over other deployments.
-/

namespace Kindling

open Fallible

/-- Statements that end deployments, besides those of a pass. -/
inductive Ending
  /-- `DeploymentsMarkStoppedByPreviewEnvironment` -/
  | stopPreviews (previewEnvironmentId : Id)
  /-- Set `deleted_at`. -/
  | delete (id : Id)
  deriving DecidableEq, Repr

namespace Ending

def applies : Ending → Deployment → Bool
  | stopPreviews env, r => r.previewEnvironmentId == some env && r.kind == .preview && r.live
  | delete id, r => r.id == id

def change (now : Time) : Ending → Deployment → Deployment
  | stopPreviews _, r => { r with stoppedAt := some now }
  | delete _, r => { r with deletedAt := some now }

theorem change_id (now : Time) (e : Ending) (r : Deployment) : (e.change now r).id = r.id := by
  cases e <;> rfl

def exec (now : Time) (e : Ending) (t : DeploymentTable) : DeploymentTable :=
  t.updateWhere e.applies (e.change now) (e.change_id now)

end Ending

inductive LifeActor
  | pass (deployment : Id) (n : Nat)
  | request (n : Nat)
  deriving DecidableEq, Repr

def LifeActor.deployment : LifeActor → Option Id
  | pass deployment _ => some deployment
  | request _ => none

structure LifeWorld where
  world : World
  /-- The passes under way. No program reads them. -/
  underWay : List LifeActor := []

inductive LifeOp : Type → Type 1
  | action {β : Type} (a : Action β) : LifeOp β
  | ending (e : Ending) : LifeOp (Except Err Unit)
  /-- A pass begins, and it is over. -/
  | begins (i : LifeActor) : LifeOp Unit
  | finishes (i : LifeActor) : LifeOp Unit

def LifeOp.exec : LifeOp β → List Answer → LifeWorld → Outcome β LifeWorld Answer
  | action a, as, w =>
    let o := Effect.exec a as w.world
    ⟨o.value, { w with world := o.state }, o.rest⟩
  | ending e, as, w =>
    let a := as.headD default
    if a.fail then ⟨.error (.of .unavailable), w, as.tail⟩
    else ⟨.ok (), { w with
      world := w.world.withDeployments (e.exec a.now w.world.deployments) }, as.tail⟩
  | begins i, as, w => ⟨(), { w with underWay := i :: w.underWay }, as⟩
  | finishes i, as, w => ⟨(), { w with underWay := w.underWay.filter (· ≠ i) }, as⟩

instance : Effect LifeOp Answer LifeWorld where
  exec := LifeOp.exec

def passOver (i : LifeActor) (d : Deployer) (deploymentId : Id) : Go LifeOp Unit := do
  ofTotal (.begins i)
  let r ← attempt (hoist (fun _ a => .action a) (reconcileDeployment d deploymentId))
  ofTotal (.finishes i)
  ofResult r

/-- `cancelDeployment`, for a user who may cancel it. -/
def cancelDeployment (id : Id) : Go LifeOp Unit := do
  match ← attempt (ofCall (.action (.query (.deploymentFirstByID id)))) with
  | .error _ => throw (apiError "not_found" "deployment not found")
  | .ok _ => context "cancel_deployment" (ofCall (.action (.deployments (.updateFailedAt id))))

def endDeployments (e : Ending) : Go LifeOp Unit := ofCall (.ending e)

abbrev LifeTeam := Team LifeActor LifeOp (Except Err Unit) LifeWorld

def lifeStarts : LifeActor → Prog LifeOp (Except Err Unit) → Prop
  | .pass deployment n, p => ∃ d, p = passOver (.pass deployment n) d deployment
  | .request _, p => (∃ id, p = cancelDeployment id) ∨ ∃ e, p = endDeployments e

/-- The server of a pass goes down. -/
def losePass (i : LifeActor) (w : LifeWorld) : LifeWorld :=
  { w with underWay := w.underWay.filter (· ≠ i) }

end Kindling
