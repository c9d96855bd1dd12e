import Kindling.Deploy.Instance

/-!
# Dead servers and the commit of a live migration

The sweep that resets what ran on a server without heartbeat
(`cmd/kindling/serve_background.go` and `internal/server/server.go`), and the step of
`internal/migrationreconcile` that moves an instance to the VM on its destination server.
-/

namespace Kindling

open Fallible

def deadServerDetectionInterval : Time := 30 * second

/-- Soft-delete the VMs of a server; errors are only logged. -/
def softDeleteVMs (vmIds : List Id) : Go Op Unit :=
  forEach vmIds fun v => discard (vmStmt (.softDelete v))

/-- One iteration of `runDeadServerDetectionOnce`. -/
def recoverDeadServer (serverId : Id) : Go Op Unit := do
  let .ok current ← attempt (query (.serverFindByID serverId)) | return ()
  let now ← ofTotal .now
  if current.status ≠ .active ∨ now ≤ current.lastHeartbeatAt + deadServerDetectionInterval then
    return ()
  let .ok vmIds ← attempt (query (.deploymentInstanceVMIDsByServerID serverId)) | return ()
  softDeleteVMs vmIds
  let .ok _ ← attempt (instanceStmt (.resetForDeadServer serverId)) | return ()
  discard (ofCall (.db (.servers (.updateStatus serverId .dead))))

/-- One iteration of `detectDeadServers`. -/
def detectDeadServer (serverId : Id) : Go Op Unit := do
  let .ok _ ← attempt (ofCall (.db (.servers (.updateStatus serverId .dead)))) | return ()
  let .ok vmIds ← attempt (query (.deploymentInstanceVMIDsByServerID serverId)) | return ()
  softDeleteVMs vmIds
  discard (instanceStmt (.resetForDeadServer serverId))

def chooseSharedRootfsRef (primary fallback : String) : String :=
  if trimSpace primary ≠ "" then primary else fallback

/-- The statements of the commit's transaction. -/
def commitMigrationTx (mig : InstanceMigration) (inst : DeploymentInstance) (sourceVM : Vm)
    (sharedRootfsRef : String) (ip port : Nat) : Go Stmt Unit := do
  let vmId ← ofTotal .newUUID
  let newVM ← context "create destination VM" (ofCall (.vms (.create { sourceVM with
    id := vmId, serverId := mig.destinationServerId, status := .running,
    sharedRootfsRef := chooseSharedRootfsRef sharedRootfsRef sourceVM.sharedRootfsRef,
    cloneSourceVmId := none, ipAddress := ip, port := some port })))
  let _ ← context "update instance server"
    (ofCall (.instances (.updateServer mig.deploymentInstanceId mig.destinationServerId)))
  let _ ← context "attach VM to instance"
    (ofCall (.instances (.attachVM mig.deploymentInstanceId newVM.id inst.status)))
  context "soft-delete source VM" (ofCall (.vms (.softDelete mig.sourceVmId)))
  let _ ← context "update migration completed" (ofCall (.migrations (.updateCompleted mig.id)))

/-- `fallback_evacuating` with the given failure code; a failure to record it is ignored. -/
def fallBack (mig : InstanceMigration) (code : String) : Go Op Unit :=
  discard (ofCall (.db (.migrations (.updateFallbackEvacuating mig.id code))) :
    Go Op InstanceMigration)

def commitOnDestination (d : Deployer) (mig : InstanceMigration) : Go Op Unit := do
  match ← attempt (d.runtime (.finalizeMigrationTarget mig.deploymentInstanceId)) with
  | .error _ => fallBack mig "destination_finalize"
  | .ok (none, _) => fallBack mig "destination_runtime_url"
  | .ok (some (ip, port), sharedRootfsRef) =>
    let inst ← context "fetch deployment instance"
      (query (.deploymentInstanceFirstByID mig.deploymentInstanceId))
    let sourceVM ← context "fetch source VM" (query (.vmFirstByID mig.sourceVmId))
    match ← ofTotal (.tx (commitMigrationTx mig inst sourceVM sharedRootfsRef ip port)) with
    | .committed _ => pure ()
    | .rolledBack e => throw e
    | .commitFailed e =>
      discard (d.runtime (.stop mig.deploymentInstanceId))
      throw (e.wrap "commit migration transaction")

end Kindling
