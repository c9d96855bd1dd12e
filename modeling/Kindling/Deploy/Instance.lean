import Kindling.Deploy.Volumes
import Kindling.Lib.Sessions

/-!
# Starting, resuming, resetting and removing one instance

The functions of `internal/deploy/deploy_instance.go` and `runtime_address.go` that act on one
instance, and the bodies of the loops that apply them. An instance row passed as an argument is
the caller's snapshot: the row in the database may have changed since it was read.
-/

namespace Kindling

open Fallible

def instanceStmt (s : InstanceStmt β) : Go Op β := ofCall (.db (.instances s))

def vmStmt (s : VmStmt β) : Go Op β := ofCall (.db (.vms s))

def Deployer.runtime (d : Deployer) (c : RuntimeCall (Except Err β)) : Go Op β :=
  ofCall (.runtime d.serverId c)

/-- `rt.Stop`, skipped without a runtime; its error is ignored. -/
def Deployer.stopQuietly (d : Deployer) (instanceId : Id) : Go Op Unit :=
  if d.rt.isSome then discard (d.runtime (.stop instanceId)) else pure ()

def deleteInstancePermanently (d : Deployer) (inst : DeploymentInstance) : Go Op Unit := do
  d.stopQuietly inst.id
  match inst.vmId with
  | some vmId =>
    discard (detachProjectVolumeForInstance inst .available "")
    discard (vmStmt (.softDelete vmId))
  | none => pure ()
  discard (instanceStmt (.softDelete inst.id))

def suspendedSnapshotRef (d : Deployer) (inst : DeploymentInstance) (vm : Vm) :
    Go Op (Option String) := do
  if (d.rt.map (·.warmClone)).getD false then
    match ← attempt (d.runtime (.createTemplate inst.id)) with
    | .ok ref => pure (if trimSpace ref ≠ "" then some ref else vm.snapshotRef)
    | .error _ => pure vm.snapshotRef
  else pure vm.snapshotRef

/-- The attempt of `cleanupInstance` to keep a running instance as a suspended warm-pool
instance. The result says whether the instance has been dealt with. -/
def suspendToWarmPool (d : Deployer) (inst : DeploymentInstance) (vm : Vm) : Go Op Bool := do
  let mark (status : VmStatus) (ref : Option String) : Go Op Vm :=
    vmStmt (.updateLifecycleMetadata vm.id status ref vm.sharedRootfsRef vm.cloneSourceVmId)
  if let .error _ ← attempt (instanceStmt (.updateRole inst.id .warmPool)) then
    deleteInstancePermanently d inst
    return true
  if let .error _ ← attempt (instanceStmt (.updateStatus inst.id .stopped)) then
    deleteInstancePermanently d inst
    return true
  if let .error _ ← attempt (mark .suspending vm.snapshotRef) then
    deleteInstancePermanently d inst
    return true
  match ← attempt (d.runtime (.suspend inst.id)) with
  | .error _ => return false
  | .ok _ =>
    let ref ← suspendedSnapshotRef d inst vm
    match ← attempt (mark .suspended ref) with
    | .ok _ => return true
    | .error _ => return false

/-- The VM that `cleanupInstance` may suspend: live, running, and on the deployer's server. -/
def suspendableVM (d : Deployer) (inst : DeploymentInstance) : Go Op (Option Vm) := do
  match inst.vmId with
  | none => return none
  | some vmId =>
    if (d.rt.map (·.suspendResume)).getD false && inst.serverId == some d.serverId then
      match ← attempt (query (.vmFirstByID vmId)) with
      | .error _ => return none
      | .ok vm => return if vm.deletedAt.isNone && vm.status == .running then some vm else none
    else return none

/-- Suspend the instance into the warm pool when that is possible, remove it otherwise. -/
def cleanupInstance (d : Deployer) (inst : DeploymentInstance) : Go Op Unit := do
  match ← suspendableVM d inst with
  | some vm =>
    if ← suspendToWarmPool d inst vm then return ()
    deleteInstancePermanently d inst
  | none => deleteInstancePermanently d inst

/-- One iteration of `repairInstancesOnBadServers`. -/
def repairInstance (d : Deployer) (inst : DeploymentInstance) : Go Op Unit := do
  let some serverId := inst.serverId | return ()
  match ← attempt (query (.serverFindByID serverId)) with
  | .error _ => return ()
  | .ok srv =>
    if srv.status ≠ .dead ∧ srv.status ≠ .drained then return ()
    d.stopQuietly inst.id
    if let some vmId := inst.vmId then
      if let .ok false ← attempt (markProjectVolumeUnavailableForInstance inst srv.status) then
        discard (detachProjectVolumeForInstance inst .available "")
      discard (vmStmt (.softDelete vmId))
    discard (instanceStmt (.prepareRetry inst.id))

def releaseInstance (inst : DeploymentInstance) (release refetch : String) :
    Go Op DeploymentInstance := do
  let _ ← context release (instanceStmt (.resetForRetry inst.id))
  context refetch (query (.deploymentInstanceFirstByID inst.id))

def hasSuspendedVM (inst : DeploymentInstance) : Go Op Bool := do
  match inst.vmId with
  | none => return false
  | some vmId =>
    match ← attempt (query (.vmFirstByID vmId)) with
    | .ok vm => return vm.status == .suspended
    | .error _ => return false

/-- The draining part of `reconcileInstanceServerAssignment`. -/
def leaveDrainingServer (d : Deployer) (inst : DeploymentInstance) (serverId : Id) :
    Go Op DeploymentInstance := do
  match ← attempt (query (.serverFindByID serverId)) with
  | .error _ => return inst
  | .ok srv =>
    if srv.status ≠ .draining then return inst
    if isWarmPoolInstance inst then
      deleteInstancePermanently d inst
      return inst
    if ← hasSuspendedVM inst then
      deleteInstancePermanently d inst
      return inst
    if inst.status ≠ .running ∨ inst.vmId = none then
      releaseInstance inst "release instance from draining server"
        "re-fetch instance after draining server release"
    else return inst

/-- Server pinning and draining for an instance that already has a server. -/
def reconcileInstanceServerAssignment (d : Deployer) (dep : Deployment)
    (inst : DeploymentInstance) (persistentVolume : Option PersistentVolumeMount) :
    Go Op DeploymentInstance := do
  let some serverId := inst.serverId | return inst
  if persistentVolume.isSome then
    if let some vol ← context "load project volume" (projectVolumeForDeployment dep) then
      if vol.serverId.isSome ∧ inst.serverId ≠ vol.serverId then
        return ← releaseInstance inst "reset instance for pinned volume server"
          "re-fetch instance after volume server reset"
  leaveDrainingServer d inst serverId

def detachFromVM (dep : Deployment) (vmId : Id) (persistentVolume : Option PersistentVolumeMount) :
    Go Op Unit :=
  if persistentVolume.isSome then
    discard (detachProjectVolumeIfAttached dep.projectId vmId .available "")
  else pure ()

/-- What is left of a suspended instance whose runtime state is gone is reset. -/
def resetLostSuspended (dep : Deployment) (inst : DeploymentInstance) (vmId : Id)
    (persistentVolume : Option PersistentVolumeMount) : Go Op Bool := do
  detachFromVM dep vmId persistentVolume
  discard (vmStmt (.softDelete vmId))
  let _ ← context "reset stale suspended instance" (instanceStmt (.prepareRetry inst.id))
  return true

def recordAddress (vm : Vm) (addr : Address) : Go Op Unit := do
  match addr with
  | none => return ()
  | some (ip, port) =>
    let _ ← context "update resumed vm runtime address"
      (vmStmt (.updateRuntimeAddress vm.id ip port))

/-- `waitHealthCheckLocalForwarded`, where the runtime needs it. An address that does not parse is
never healthy. -/
def awaitHealthy (d : Deployer) (addr : Address) : Go Op Bool :=
  if requiresExternalHealthCheck d.rtName then
    if addr.isNone then pure false else ofTotal .healthCheck
  else pure true

def recordResumed (d : Deployer) (inst : DeploymentInstance) (vm : Vm) (addr : Address) :
    Go Op Bool := do
  recordAddress vm addr
  if !(← awaitHealthy d addr) then throw (.of (.message "health check failed after resume"))
  let _ ← context "mark resumed vm running" (vmStmt (.updateLifecycleMetadata vm.id .running
    vm.snapshotRef vm.sharedRootfsRef vm.cloneSourceVmId))
  let _ ← context "mark resumed instance running" (instanceStmt (.updateStatus inst.id .running))
  return true

def resumeOnRuntime (d : Deployer) (dep : Deployment) (inst : DeploymentInstance) (vm : Vm)
    (persistentVolume : Option PersistentVolumeMount) : Go Op Bool := do
  let _ ← context "mark resuming" (instanceStmt (.updateStatus inst.id .starting))
  match ← attempt (d.runtime (.resume inst.id)) with
  | .error e =>
    if e.root = .instanceNotRunning then resetLostSuspended dep inst vm.id persistentVolume
    else throw (e.wrap "resume instance")
  | .ok addr => recordResumed d inst vm addr

/-- Resume the suspended VM of an instance. The result says whether the instance has been dealt
with. An eligible instance is active, so the promotion of a warm-pool instance is never needed. -/
def tryResumeFromSuspended (d : Deployer) (dep : Deployment) (inst : DeploymentInstance)
    (persistentVolume : Option PersistentVolumeMount) : Go Op Bool := do
  match inst.vmId with
  | none => return false
  | some vmId =>
    match ← attempt (query (.vmFirstByID vmId)) with
    | .error _ => return false
    | .ok vm =>
      if vm.status ≠ .suspended ∨ !suspendedResumeEligible inst then return false
      if inst.serverId ≠ some d.serverId then return true
      if isWarmPoolInstance inst then
        let inst ← context "promote warm pool instance" (instanceStmt (.updateRole inst.id .active))
        resumeOnRuntime d dep inst vm persistentVolume
      else resumeOnRuntime d dep inst vm persistentVolume

def resetInstance (d : Deployer) (dep : Deployment) (inst : DeploymentInstance)
    (persistentVolume : Option PersistentVolumeMount) : Go Op DeploymentInstance := do
  d.stopQuietly inst.id
  match inst.vmId with
  | some vmId =>
    detachFromVM dep vmId persistentVolume
    discard (vmStmt (.softDelete vmId))
  | none => pure ()
  let _ ← context "prepare retry" (instanceStmt (.prepareRetry inst.id))
  context "re-fetch instance after prepare retry" (query (.deploymentInstanceFirstByID inst.id))

/-- Reset an instance that still refers to a VM, or whose last start failed. -/
def resetStaleInstance (d : Deployer) (dep : Deployment) (inst : DeploymentInstance)
    (persistentVolume : Option PersistentVolumeMount) : Go Op DeploymentInstance :=
  if (inst.vmId = none ∨ isWarmPoolInstance inst) ∧ inst.status ≠ .failed then pure inst
  else resetInstance d dep inst persistentVolume

/-- The server for an instance without one: the volume's, or the least loaded. -/
def pickServer (dep : Deployment) (persistentVolume : Option PersistentVolumeMount) :
    Go Op Server := do
  if persistentVolume.isSome then
    match ← context "load project volume" (projectVolumeForDeployment dep) with
    | none => throw (.of (.message "project volume server is not assigned"))
    | some vol =>
      match vol.serverId with
      | none => throw (.of (.message "project volume server is not assigned"))
      | some serverId => context "pick server" (query (.serverFindByID serverId))
  else context "pick server" (query .serverFindLeastLoaded)

def assignServerIfNeeded (dep : Deployment) (inst : DeploymentInstance)
    (persistentVolume : Option PersistentVolumeMount) : Go Op DeploymentInstance := do
  if inst.serverId.isSome then return inst
  let srv ← pickServer dep persistentVolume
  context "assign server" (instanceStmt (.updateServer inst.id srv.id))

/-! ## Starting -/

def markFailed (inst : DeploymentInstance) : Go Op Unit :=
  discard (instanceStmt (.updateStatus inst.id .failed))

def fillLiveMigrationMetadata (d : Deployer) (instanceId : Id) (md : InstanceVMMetadata) :
    Go Op InstanceVMMetadata := do
  if (d.rt.map (·.liveMigration)).getD false then
    match ← attempt (d.runtime (.migrationMetadata instanceId)) with
    | .error _ => return md
    | .ok ref => return if md.sharedRootfsRef == "" then { md with sharedRootfsRef := ref } else md
  else return md

/-- A cold start; `text` is the context of its error. -/
def coldStart (d : Deployer) (startInst : RuntimeInstance) (inst : DeploymentInstance)
    (text : String) : Go Op (Address × InstanceVMMetadata) := do
  match ← attempt (d.runtime (.start startInst)) with
  | .error e =>
    markFailed inst
    throw (e.wrap text)
  | .ok addr =>
    let md ← fillLiveMigrationMetadata d startInst.id { runtime := d.rtName }
    return (addr, md)

def launchInstance (d : Deployer) (startInst : RuntimeInstance) (templateRef : String)
    (templateSourceVmId : Option Id) (inst : DeploymentInstance) (mode : LaunchMode) :
    Go Op (Address × InstanceVMMetadata) := do
  if mode = .clone ∧ (d.rt.map (·.warmClone)).getD false = true then
    match ← attempt (d.runtime (.startClone startInst templateRef templateSourceVmId)) with
    | .error e =>
      if e.root = .instanceNotRunning then
        coldStart d startInst inst "start clone fallback cold start"
      else
        markFailed inst
        throw (e.wrap "start clone")
    | .ok (addr, started) =>
      return (addr,
        { runtime := d.rtName, snapshotRef := started.snapshotRef,
          sharedRootfsRef := started.sharedRootfsRef, cloneSourceVmId := started.cloneSourceVmId })
  else coldStart d startInst inst "start instance"

/-- Create a `vms` row and attach it to the instance, unless the instance has one. -/
def persistInstanceVMMetadata (instanceId : Id) (imageId : Option Id) (serverId : Id)
    (vmStatus : VmStatus) (instanceStatus : InstanceStatus) (runtimeAddr : Address)
    (env : List String) (md : InstanceVMMetadata) : Go Op Id := do
  let inst ← context "fetch deployment instance" (query (.deploymentInstanceFirstByID instanceId))
  if let some vmId := inst.vmId then return vmId
  let some imageId := imageId | throw (.of (.message "deployment image id is missing"))
  let some (ip, port) := runtimeAddr | throw (.of (.message "empty runtime address"))
  let vmId ← ofTotal (.db .newUUID)
  let _ ← context "create vm row" (vmStmt (.create {
    id := vmId, serverId, imageId, status := vmStatus, runtime := md.runtime,
    snapshotRef := if trimSpace md.snapshotRef ≠ "" then some md.snapshotRef else none,
    sharedRootfsRef := md.sharedRootfsRef, cloneSourceVmId := md.cloneSourceVmId,
    ipAddress := ip, port := some port, envVariables := env }))
  match ← attempt (instanceStmt (.attachVM instanceId vmId instanceStatus)) with
  | .ok _ => return vmId
  | .error e =>
    discard (vmStmt (.softDelete vmId))
    throw (e.wrap "attach vm to deployment instance")

/-- Undo a start after its VM row exists. -/
def abandonStart (d : Deployer) (inst : DeploymentInstance) (vmId : Id) (e : Err) : Go Op Unit := do
  discard (d.runtime (.stop inst.id))
  discard (vmStmt (.softDelete vmId))
  markFailed inst
  throw e

def attachVolume (dep : Deployment) (inst : DeploymentInstance) (vmId : Id)
    (persistentVolume : Option PersistentVolumeMount) : Go Op Unit := do
  if persistentVolume.isSome then
    let _ ← context "attach project volume to vm"
      (volumeStmt (.attachVM dep.projectId inst.serverId vmId))

/-- Health check, status updates and volume attachment of a VM that has been launched. -/
def goLive (d : Deployer) (dep : Deployment) (inst : DeploymentInstance) (vmId : Id)
    (addr : Address) (persistentVolume : Option PersistentVolumeMount) : Go Op Unit := do
  if !(← awaitHealthy d addr) then throw (.of (.message "health check failed"))
  let _ ← context "mark vm running" (vmStmt (.updateStatus vmId .running))
  let _ ← context "mark deployment instance running" (instanceStmt (.updateStatus inst.id .running))
  attachVolume dep inst vmId persistentVolume

/-- A launched VM that does not go live is abandoned. -/
def finishStart (d : Deployer) (dep : Deployment) (inst : DeploymentInstance) (vmId : Id)
    (addr : Address) (persistentVolume : Option PersistentVolumeMount) : Go Op Unit := do
  match ← attempt (goLive d dep inst vmId addr persistentVolume) with
  | .ok _ => return ()
  | .error e => abandonStart d inst vmId e

/-- `uuid.Nil`, the value `pguuid.FromPgtype` gives for a null column. -/
def uuidNil : Id := 0

def startInMode (d : Deployer) (dep : Deployment) (inst : DeploymentInstance) (imageRef : String)
    (env : List String) (templateRef : String) (templateSourceVmId : Option Id)
    (persistentVolume : Option PersistentVolumeMount) (mode : LaunchMode) : Go Op Unit := do
  let startInst : RuntimeInstance := { id := inst.id, imageRef, env, persistentVolume }
  let _ ← context "mark starting" (instanceStmt (.updateStatus inst.id .starting))
  let (addr, md) ← launchInstance d startInst templateRef templateSourceVmId inst mode
  match ← attempt (persistInstanceVMMetadata inst.id dep.imageId (inst.serverId.getD uuidNil)
      .starting .starting addr env md) with
  | .error e =>
    discard (d.runtime (.stop inst.id))
    markFailed inst
    throw (e.wrap "persist vm metadata")
  | .ok vmId => finishStart d dep inst vmId addr persistentVolume

def startNewInstance (d : Deployer) (dep : Deployment) (inst : DeploymentInstance)
    (imageRef : String) (env : List String) (templateRef : String)
    (templateSourceVmId : Option Id) (persistentVolume : Option PersistentVolumeMount) :
    Go Op Unit := do
  match selectLaunchMode inst none templateRef with
  | none =>
    if isWarmPoolInstance inst ∧ inst.status ≠ .stopped then
      let _ ← context "normalize warm pool status" (instanceStmt (.updateStatus inst.id .stopped))
  | some mode =>
    startInMode d dep inst imageRef env templateRef templateSourceVmId persistentVolume mode

/-- Create instances until `desired` are active or in the warm pool. `listing` is the context of
the first read, `relisting` of the ones after a creation. -/
def provisionLoop (deploymentId : Id) (desired : Int) (relisting : String) :
    Nat → String → Go Stmt Unit
  | 0, _ => throw (.of .diverged)
  | fuel + 1, listing => do
    let rows ← context listing (query (.deploymentInstanceFindByDeploymentID deploymentId))
    if countProvisionableInstances rows < desired then
      let id ← ofTotal .newUUID
      let _ ← context "create deployment instance" (ofCall (.instances (.create id deploymentId)))
      provisionLoop deploymentId desired relisting fuel relisting

/-- With a pool the whole loop is one transaction, under an advisory lock of the deployment;
without one its statements take effect one by one. -/
def ensureInstanceCountUp (d : Deployer) (deploymentId : Id) (desired : Int) : Go Op Unit :=
  if d.pool then do
    let r ← ofTotal (.tx (provisionLoop deploymentId desired "list instances after create in tx"
      d.loopBound "list instances in tx"))
    ofResult r.result
  else
    (provisionLoop deploymentId desired "list instances after create" d.loopBound
      "list instances").interp fun _ s => .lift (.db s)

/-- The transaction of `ensureInstanceCountUp`, call by call in the session `i` of a server. The
lock is named by a hash of the deployment's id. -/
def ensureInstanceCountUpIn (lockKey : Id → κ) (i : ι) (deploymentId : Id) (desired : Int)
    (loopBound : Nat) : Prog (SessionOp ι κ Err Stmt) (Except Err Unit) :=
  SessionOp.transaction (Err.wrap "begin tx") (Err.wrap "advisory lock") i (lockKey deploymentId)
    (provisionLoop deploymentId desired "list instances after create in tx" loopBound
      "list instances in tx")

end Kindling
