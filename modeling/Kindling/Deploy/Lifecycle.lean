import Kindling.Database.Rows
import Kindling.Lib.Text

/-!
# Replica counts, instance roles and health rules

The pure functions of `internal/deploy`: how many instances a deployment should have, which
instances count as active or as warm pool, how a start is launched, when a running instance is
treated as healthy, and when the restart budget of an instance is used up.
-/

namespace Kindling

def serviceDesiredReplicaCount (proj : Project) (service : Option Service) : Int :=
  match service with
  | some s => if s.desiredInstanceCount > 0 then s.desiredInstanceCount else proj.desiredInstanceCount
  | none => proj.desiredInstanceCount

def nonZeroReplicaFloor (proj : Project) : Int :=
  if proj.maxInstanceCount ≤ 0 then 0
  else if proj.minInstanceCount > 1 then proj.minInstanceCount
  else 1

def clampDesiredReplicaCount (proj : Project) (desired : Int) : Int :=
  if proj.maxInstanceCount ≤ 0 then 0
  else
    let floor := nonZeroReplicaFloor proj
    let d := if desired < floor then floor else desired
    let d := if d > proj.maxInstanceCount then proj.maxInstanceCount else d
    if d < 0 then 0 else d

def effectiveReplicaCount (proj : Project) (service : Option Service) (dep : Deployment) : Int :=
  let serviceDesired := serviceDesiredReplicaCount proj service
  match dep.kind with
  | .preview =>
    if dep.wakeRequestedAt.isSome then if serviceDesired < 1 then 1 else serviceDesired
    else if dep.previewScaledToZero then 0
    else if serviceDesired < 1 then 1 else serviceDesired
  | .production =>
    if dep.wakeRequestedAt.isSome then clampDesiredReplicaCount proj serviceDesired
    else if proj.scaledToZero then 0
    else clampDesiredReplicaCount proj serviceDesired

def isActiveInstance (inst : DeploymentInstance) : Bool := inst.role == .active

def isWarmPoolInstance (inst : DeploymentInstance) : Bool := inst.role == .warmPool

def suspendedResumeEligible (inst : DeploymentInstance) : Bool := isActiveInstance inst

def activeInstanceCount (instList : List DeploymentInstance) : Nat :=
  instList.countP isActiveInstance

def countProvisionableInstances (instList : List DeploymentInstance) : Nat :=
  instList.countP fun i => isActiveInstance i || isWarmPoolInstance i

def warmPoolPromotionCandidates (instList : List DeploymentInstance) (desired : Int) : List Id :=
  ((instList.filter isWarmPoolInstance).take (desired - activeInstanceCount instList).toNat).map
    (·.id)

def newestFirst (instList : List DeploymentInstance) : List DeploymentInstance :=
  instList.insertionSort fun a b => b.createdAt ≤ a.createdAt

inductive LaunchMode | cold | resume | clone
  deriving DecidableEq, Repr

def selectLaunchMode (inst : DeploymentInstance) (vm : Option VmStatus) (templateRef : String) :
    Option LaunchMode :=
  if inst.role == .template then none
  else if inst.vmId.isSome && vm == some .suspended then some .resume
  else if inst.role == .warmPool then none
  else if trimSpace templateRef ≠ "" then some .clone
  else some .cold

def requiresExternalHealthCheck (runtimeName : RuntimeName) : Bool := runtimeName != .appleVz

def shouldKeepRunningVM (vm : Vm) (runtimeName : RuntimeName) (hostHealthCheckOK : Bool) : Bool :=
  if vm.deletedAt.isSome || vm.status != .running then false
  else if runtimeName == .cloudHypervisor then true
  else if requiresExternalHealthCheck runtimeName && !hostHealthCheckOK then false
  else true

def shouldTreatRunningInstanceAsHealthy (inst : DeploymentInstance) (vm : Vm)
    (runtimeName : RuntimeName) (hostHealthCheckOK : Bool) (localServerId : Id)
    (localRuntimeHealthy : Bool) : Bool :=
  if inst.serverId == some localServerId && !localRuntimeHealthy then false
  else shouldKeepRunningVM vm runtimeName hostHealthCheckOK

def maxRestartCount : Nat := 3

def restartBudgetSeconds : Nat := 5 * 60

def restartBudgetExceeded (inst : DeploymentInstance) (healthyRunning : Bool) (now : Time) : Bool :=
  if healthyRunning || decide (inst.restartCount < maxRestartCount) then false
  else match inst.lastRestartAt with
    | none => false
    | some t => decide (now < t + restartBudgetSeconds * second)

/-- The states in which an operation on the volume is queued or running. -/
def isProjectVolumeTransitionalStatus : VolumeStatus → Bool
  | .backingUp | .restoring | .repairing | .deleting => true
  | _ => false

def VolumeStatus.text : VolumeStatus → String
  | detached => "detached"
  | available => "available"
  | attached => "attached"
  | unavailable => "unavailable"
  | backingUp => "backing_up"
  | restoring => "restoring"
  | repairing => "repairing"
  | deleting => "deleting"

def ServerStatus.text : ServerStatus → String
  | active => "active"
  | draining => "draining"
  | drained => "drained"
  | dead => "dead"

end Kindling
