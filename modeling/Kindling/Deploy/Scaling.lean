import Kindling.Deploy.Actions

/-!
# Scaling and draining

`internal/deploy/deploy_scaling.go` and `deploy_evacuation.go`: counting instances, removing the
ones in excess, keeping and pruning the warm pool, and retiring instances from draining servers.
-/

namespace Kindling

open Fallible

def serverStatusByIDs : List DeploymentInstance → List (Id × ServerStatus) →
    Pass (List (Id × ServerStatus))
  | [], m => pure m
  | inst :: rest, m =>
    if isActiveInstance inst then
      match inst.serverId with
      | none => serverStatusByIDs rest m
      | some s =>
        if m.any (·.1 == s) then serverStatusByIDs rest m
        else do
          let srv ← context ("server " ++ toString s) (query (.serverFindByID s))
          serverStatusByIDs rest ((s, srv.status) :: m)
    else serverStatusByIDs rest m

def onDrainingServer (m : List (Id × ServerStatus)) (inst : DeploymentInstance) : Bool :=
  match inst.serverId with
  | none => false
  | some s => m.lookup s == some .draining

def countInstancesOnDrainingServers (instList : List DeploymentInstance)
    (m : List (Id × ServerStatus)) : Nat :=
  instList.countP fun i => isActiveInstance i && onDrainingServer m i

def healthCheckVMFromHost : Pass Bool := ofTotal .healthCheck

def localRuntimeHealthy (d : Deployer) (inst : DeploymentInstance) : Pass Bool :=
  if d.rt.isNone || inst.serverId != some d.serverId then pure true
  else ofTotal (.runtimeHealthy d.serverId inst.id)

def runningVM (inst : DeploymentInstance) : Pass (Option Vm) := do
  if !isActiveInstance inst || inst.status != .running then return none
  let some vmId := inst.vmId | return none
  let .ok vm ← attempt (query (.vmFirstByID vmId)) | return none
  return if vm.deletedAt.isSome || vm.status != .running then none else some vm

/-- Probe the VM from the host, where the runtime needs it. -/
def hostHealthCheck (d : Deployer) : Pass Bool :=
  if requiresExternalHealthCheck d.rtName then healthCheckVMFromHost else pure true

/-- The probe of functions that may run without a runtime. -/
def optionalHostHealthCheck (d : Deployer) : Pass Bool :=
  if d.rt.isSome then hostHealthCheck d else pure true

def instanceReady (d : Deployer) (inst : DeploymentInstance) : Pass Bool := do
  let some vm ← runningVM inst | return false
  let hostHealthCheckOK ← hostHealthCheck d
  let localOK ← localRuntimeHealthy d inst
  return shouldTreatRunningInstanceAsHealthy inst vm d.rtName hostHealthCheckOK d.serverId localOK

def countInstancesReady (d : Deployer) : List DeploymentInstance → Pass Nat
  | [] => pure 0
  | inst :: rest => do
    let ready ← instanceReady d inst
    let n ← countInstancesReady d rest
    return if ready then n + 1 else n

def readyOffDrainingServer (d : Deployer) (m : List (Id × ServerStatus))
    (inst : DeploymentInstance) : Pass Bool := do
  let some _ ← runningVM inst | return false
  let hostHealthCheckOK ← optionalHostHealthCheck d
  return hostHealthCheckOK && !onDrainingServer m inst

def countReadyOffDrainingServers (d : Deployer) (m : List (Id × ServerStatus)) :
    List DeploymentInstance → Pass Nat
  | [] => pure 0
  | inst :: rest => do
    let ready ← readyOffDrainingServer d m inst
    let n ← countReadyOffDrainingServers d m rest
    return if ready then n + 1 else n

def warmPoolExtraRetentionAfterTraffic : Time := 15 * 60 * second

def retainedWarmPoolBudgetBase (d : Deployer) : Nat :=
  if (d.rt.map (·.suspendResume)).getD false then 1 else 0

def warmPoolExtraRetentionEligible (lastRequestAt now : Time) : Bool :=
  decide (lastRequestAt ≤ now) && decide (now - lastRequestAt < warmPoolExtraRetentionAfterTraffic)

def retainedWarmPoolBudget (d : Deployer) (deploymentId : Id) : Pass Nat := do
  let base := retainedWarmPoolBudgetBase d
  if base = 0 then return base
  let .ok dep ← attempt (query (.deploymentFirstByID deploymentId)) | return base
  let .ok proj ← attempt (query (.projectFirstByID dep.projectId)) | return base
  let some t := proj.lastRequestAt | return base
  let now ← ofTotal .now
  return if warmPoolExtraRetentionEligible t now then base + 1 else base

def pruneWarmPoolInstances (d : Deployer) (instList : List DeploymentInstance) (keep : Nat) :
    Pass Unit :=
  forEach ((newestFirst (instList.filter isWarmPoolInstance)).drop keep) fun inst =>
    act (.deleteInstancePermanently d inst)

def promoteCandidates : List Id → Pass (List DeploymentInstance)
  | [] => pure []
  | id :: rest => do
    let inst ← context "promote warm pool instance" (ofCall (.instanceUpdateRole id .active))
    let updated ← promoteCandidates rest
    pure (inst :: updated)

/-- The list with the promoted rows in place of the old ones. -/
def refreshRows (instList updated : List DeploymentInstance) : List DeploymentInstance :=
  instList.map fun i => (updated.find? fun u => u.id == i.id).getD i

def activateWarmPoolInstances (instList : List DeploymentInstance) (desired : Int) :
    Pass (List DeploymentInstance) := do
  let candidates := warmPoolPromotionCandidates instList desired
  if candidates.isEmpty then return instList
  let updated ← promoteCandidates candidates
  return refreshRows instList updated

/-- The snapshot of a live VM on this server to clone from, with the VM's id. -/
def templateSourceForDeployment (d : Deployer) (imageId : Option Id) :
    List DeploymentInstance → Pass (String × Option Id)
  | [] => pure ("", none)
  | inst :: rest =>
    match inst.vmId with
    | none => templateSourceForDeployment d imageId rest
    | some vmId => do
      match ← attempt (query (.vmFirstByID vmId)) with
      | .error _ => templateSourceForDeployment d imageId rest
      | .ok vm =>
        match vm.snapshotRef with
        | none => templateSourceForDeployment d imageId rest
        | some ref =>
          if vm.deletedAt.isSome || (imageId.isSome && imageId != some vm.imageId) ||
              vm.serverId != d.serverId then
            templateSourceForDeployment d imageId rest
          else pure (ref, some vm.id)

def listInstances (deploymentId : Id) : Pass (List DeploymentInstance) :=
  query (.deploymentInstanceFindByDeploymentID deploymentId)

/-- Clean up the newest active instances in excess of `desired`, then prune the warm pool. -/
def scaleDownInstances (d : Deployer) (instList : List DeploymentInstance) (desired : Nat) :
    Pass Unit := do
  if activeInstanceCount instList ≤ desired then return ()
  forEach (((newestFirst instList).filter isActiveInstance).take
      (activeInstanceCount instList - desired)) fun inst =>
    act (.cleanupInstance d inst)
  match instList with
  | [] => return ()
  | first :: _ =>
    let refreshed ← context "list instances after scale down" (listInstances first.deploymentId)
    let keep ← retainedWarmPoolBudget d first.deploymentId
    pruneWarmPoolInstances d refreshed keep

/-- The instance that `scaleDownExcess` removes next: the newest active one off the draining
servers, or else the newest of all. -/
def excessVictim (m : List (Id × ServerStatus)) (instList : List DeploymentInstance) :
    Option DeploymentInstance :=
  ((newestFirst instList).find? fun i => isActiveInstance i && !onDrainingServer m i).or
    (newestFirst instList).head?

/-- The statuses to choose the next victim by: read again after each removal. -/
def currentStatuses (statusMap : Option (List (Id × ServerStatus)))
    (list : List DeploymentInstance) : Pass (List (Id × ServerStatus)) :=
  match statusMap with
  | some m => pure m
  | none => serverStatusByIDs list []

/-- The loop of `scaleDownExcess`. -/
def removeExcess (d : Deployer) (deploymentId : Id) (target : Int) :
    Nat → List DeploymentInstance → Option (List (Id × ServerStatus)) →
    Pass (List DeploymentInstance)
  | 0, list, _ => if (activeInstanceCount list : Int) > target then throw (.of .diverged) else pure list
  | fuel + 1, list, statusMap =>
    if (activeInstanceCount list : Int) > target then do
      let m ← currentStatuses statusMap list
      match excessVictim m list with
      | none => pure list
      | some victim =>
        act (.cleanupInstance d victim)
        let list ← listInstances deploymentId
        removeExcess d deploymentId target fuel list none
    else pure list

def scaleDownExcess (d : Deployer) (deploymentId : Id) (instList : List DeploymentInstance)
    (target : Int) (initStatus : List (Id × ServerStatus)) : Pass (List DeploymentInstance) := do
  let list ← removeExcess d deploymentId target d.loopBound instList (some initStatus)
  let keep ← retainedWarmPoolBudget d deploymentId
  pruneWarmPoolInstances d list keep
  listInstances deploymentId

def removeInstancesOnDrainingServers (d : Deployer) (deploymentId : Id)
    (instList : List DeploymentInstance) (m : List (Id × ServerStatus)) (desired : Int) :
    Pass (List DeploymentInstance) := do
  let ready ← countReadyOffDrainingServers d m instList
  if (ready : Int) < desired then return instList
  let toRemove := instList.filter fun i => isActiveInstance i && onDrainingServer m i
  if toRemove.isEmpty then return instList
  forEach toRemove fun inst => act (.deleteInstancePermanently d inst)
  let list ← listInstances deploymentId
  forEach (toRemove.filterMap (·.serverId)).dedup fun s => ofTotal (.scheduleServer s)
  return list

def repairInstancesOnBadServers (d : Deployer) (instList : List DeploymentInstance) : Pass Unit :=
  forEach instList fun inst => act (.repairInstance d inst)

end Kindling
