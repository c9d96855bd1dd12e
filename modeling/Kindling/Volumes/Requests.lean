import Kindling.Lib.FileTree
import Kindling.Volumes.Operations

/-!
# Requests about volumes

`internal/rpc/project_volumes.go` and `internal/rpc/project_volume_ops.go`: the requests that create,
change and delete the volume of a project or a service, and those that start an operation on it. The
project or service has been looked up, for an administrator of its organization.
-/

namespace Kindling

open Fallible

/-- The lookup of the volume, the words for it in messages, and the codes of unexpected errors, in the
lookup and later. -/
structure VolumeScope where
  find : Query ProjectVolume
  projectId : Id
  noun : String
  lookupFailed : String
  failed : String

def projectVolumeScope (projectId : Id) (action : String) : VolumeScope where
  find := .projectVolumeFindByProjectID projectId
  projectId := projectId
  noun := "project volume"
  lookupFailed := action ++ "_project_volume"
  failed := action ++ "_project_volume"

def serviceVolumeScope (service : Service) (action : String) : VolumeScope where
  find := .projectVolumeFindByServiceID service.id
  projectId := service.projectId
  noun := "service volume"
  lookupFailed := "get_service_volume"
  failed := action ++ "_service_volume"

/-- The volume, if it is there, not in use, and has no operation. -/
def idleVolume (s : VolumeScope) (attached : String) : Go VolumeOp ProjectVolume := do
  match ← attempt (query s.find) with
  | .error e =>
    if e.isNoRows then throw (apiError "not_found" (s.noun ++ " not found"))
    else throw (e.wrap s.lookupFailed)
  | .ok vol =>
  if vol.inUse then throw (apiError "volume_attached" attached)
  else if isProjectVolumeTransitionalStatus vol.status then
    throw (apiError "volume_busy" "another volume operation is already in progress")
  else
  match ← attempt (volumeRead (.operationFindCurrentByVolumeID vol.id)) with
  | .ok _ => throw (apiError "volume_busy" "another volume operation is already in progress")
  | .error e => if e.isNoRows then return vol else throw (e.wrap s.failed)

/-- `projectVolumeReadyForOperation` and `serviceVolumeReadyForOperation` -/
def volumeReadyForOperation (s : VolumeScope) : Go VolumeOp ProjectVolume :=
  idleVolume s "detach the volume before starting this operation"

def newVolumeID : Go VolumeOp Id := ofTotal (.deployer (.db .newUUID))

def enqueueProjectVolumeOperation (vol : ProjectVolume) (serverId : Option Id)
    (kind : VolumeOperationKind) (req : OperationRequest) (volumeStatus : VolumeStatus) :
    Go VolumeOp VolumeOperation := do
  let id ← newVolumeID
  let op ← operationStmt (.create id vol.id serverId kind req)
  let _ ← volumeRowStmt (.updateStatusAndHealth vol.projectId volumeStatus vol.health "")
  return op

def ensureVolumeBackupStoreConfigured : Go VolumeOp Unit :=
  wrap (fun _ => apiError "backup_store_unavailable" "volume backup object storage is not configured")
    (ofCall .backupStore)

def requirePinned (vol : ProjectVolume) (code message : String) : Go VolumeOp Id :=
  match vol.serverId with
  | some server => return server
  | none => throw (apiError code message)

theorem requirePinned_uses {P : (β : Type) → VolumeOp β → Prop} :
    Uses P (requirePinned vol code message) := by
  unfold requirePinned
  split
  · exact .pure
  · exact .throw

def workerLoads : List Server → Go VolumeOp (List (Server × Nat))
  | [] => pure []
  | s :: rest => do
    let load ← attempt (query (.deploymentInstanceActiveCountByServerID s.id))
    let loads ← workerLoads rest
    return (s, load.toOption.getD 0) :: loads

/-- Lower load first, then the host name. -/
def workerBefore (a b : Server × Nat) : Prop :=
  a.2 < b.2 ∨ (a.2 = b.2 ∧ a.1.hostname ≤ b.1.hostname)

instance : DecidableRel workerBefore := fun _ _ => inferInstanceAs (Decidable (_ ∨ _ ∧ _))

def activeCloudHypervisorWorkers : Go VolumeOp (List Server) := do
  let servers ← query .serverFindAll
  let statuses ← query .serverComponentStatusFindAll
  let now ← ofTotal (.deployer .now)
  let loads ← workerLoads (servers.filter (volumeServerEligible statuses now))
  return (loads.insertionSort workerBefore).map (·.1)

/-- A server that a request names, if any; `none` inside is a text that is no UUID. -/
abbrev RequestedServer := Option (Option Id)

/-- The choice among the active workers. -/
def chooseTargetServer (servers : List Server) (requested : RequestedServer)
    (current : Option Id) (preferCurrent : Bool) : Except Err Server :=
  match servers, requested with
  | [], _ => .error (.of (.message "no active cloud-hypervisor worker is available"))
  | _, some none => .error (.of (.message "target_server_id must be a valid UUID"))
  | _, some (some id) =>
    match servers.find? (·.id == id) with
    | some s => .ok s
    | none => .error (.of (.message "target server is not an active cloud-hypervisor worker"))
  | first :: rest, none =>
    match if preferCurrent then servers.find? fun s => some s.id == current else none with
    | some s => .ok s
    | none =>
      match rest with
      | second :: _ => if !preferCurrent && some first.id == current then .ok second else .ok first
      | [] => .ok first

def selectProjectVolumeTargetServer (requested : RequestedServer) (current : Option Id)
    (preferCurrent : Bool) : Go VolumeOp Server := do
  let servers ← activeCloudHypervisorWorkers
  ofResult (chooseTargetServer servers requested current preferCurrent)

def targetServer (requested : RequestedServer) (vol : ProjectVolume) (preferCurrent : Bool) :
    Go VolumeOp Server :=
  wrap (fun e => apiError "volume_unavailable" e.text)
    (selectProjectVolumeTargetServer requested vol.serverId preferCurrent)

def notPinned : String := "volume is not pinned to a worker yet"

def postVolumeBackup (s : VolumeScope) (failed : String) : Go VolumeOp VolumeOperation := do
  let vol ← volumeReadyForOperation s
  let _ ← requirePinned vol "volume_unavailable" notPinned
  ensureVolumeBackupStoreConfigured
  let id ← newVolumeID
  let backup ← context failed (backupStmt (.create id vol.id .manual))
  context failed
    (enqueueProjectVolumeOperation vol vol.serverId .backup { backupId := some backup.id } .backingUp)

def postProjectVolumeBackup (projectId : Id) : Go VolumeOp VolumeOperation :=
  postVolumeBackup (projectVolumeScope projectId "backup") "create_project_volume_backup"

def postServiceVolumeBackup (service : Service) : Go VolumeOp VolumeOperation :=
  postVolumeBackup (serviceVolumeScope service "backup") "create_service_volume_backup"

structure RestoreRequest where
  backupId : Option Id
  targetServerId : RequestedServer := none

def backupToRestore (s : VolumeScope) (vol : ProjectVolume) (backupId : Id) :
    Go VolumeOp VolumeBackup := do
  match ← attempt (volumeRead (.backupFindByID backupId)) with
  | .error e =>
    if e.isNoRows then throw (apiError "not_found" "backup not found") else throw (e.wrap s.failed)
  | .ok backup =>
    if backup.projectVolumeId ≠ vol.id then
      throw (apiError "validation_error" ("backup does not belong to this " ++ s.noun))
    else return backup

def postVolumeRestore (s : VolumeScope) (req : Option RestoreRequest) :
    Go VolumeOp VolumeOperation := do
  let vol ← volumeReadyForOperation s
  ensureVolumeBackupStoreConfigured
  let some req := req | throw (apiError "invalid_json" "invalid JSON body")
  let some backupId := req.backupId | throw (apiError "validation_error" "backup_id is required")
  let _ ← backupToRestore s vol backupId
  let server ← targetServer req.targetServerId vol true
  context s.failed (enqueueProjectVolumeOperation vol (some server.id) .restore
    { backupId := some backupId, targetServerId := some server.id } .restoring)

def postProjectVolumeRestore (projectId : Id) (req : Option RestoreRequest) :
    Go VolumeOp VolumeOperation :=
  postVolumeRestore (projectVolumeScope projectId "restore") req

def postServiceVolumeRestore (service : Service) (req : Option RestoreRequest) :
    Go VolumeOp VolumeOperation :=
  postVolumeRestore (serviceVolumeScope service "restore") req

/-- The body of a request to move a volume names a server, if it decodes. -/
def postVolumeMove (s : VolumeScope) (req : Option RequestedServer) :
    Go VolumeOp VolumeOperation := do
  let vol ← volumeReadyForOperation s
  let _ ← requirePinned vol "volume_unavailable" notPinned
  ensureVolumeBackupStoreConfigured
  let some requested := req | throw (apiError "invalid_json" "invalid JSON body")
  let server ← targetServer requested vol false
  if some server.id = vol.serverId then
    throw (apiError "validation_error" "volume is already pinned to that server")
  else
    context s.failed (enqueueProjectVolumeOperation vol vol.serverId .move
      { targetServerId := some server.id, sourceServerId := vol.serverId, stage := some .upload }
      .restoring)

def postProjectVolumeMove (projectId : Id) (req : Option RequestedServer) :
    Go VolumeOp VolumeOperation :=
  postVolumeMove (projectVolumeScope projectId "move") req

def postServiceVolumeMove (service : Service) (req : Option RequestedServer) :
    Go VolumeOp VolumeOperation :=
  postVolumeMove (serviceVolumeScope service "move") req

def postVolumeRepair (s : VolumeScope) : Go VolumeOp VolumeOperation := do
  let vol ← volumeReadyForOperation s
  let _ ← requirePinned vol "volume_unavailable" notPinned
  context s.failed (enqueueProjectVolumeOperation vol vol.serverId .repair {} .repairing)

def postProjectVolumeRepair (projectId : Id) : Go VolumeOp VolumeOperation :=
  postVolumeRepair (projectVolumeScope projectId "repair")

def postServiceVolumeRepair (service : Service) : Go VolumeOp VolumeOperation :=
  postVolumeRepair (serviceVolumeScope service "repair")

/-- The deletion of a volume, on the host `host` of the API: a backup is enqueued that deletes the
volume when it is done, or the file is removed from the host and the row is deleted. The result is the
operation, if there is one. -/
def deleteVolume (s : VolumeScope) (host : Id) : Go VolumeOp (Option VolumeOperation) := do
  let vol ← idleVolume s "detach the volume before deleting it"
  if vol.preDeleteBackupEnabled then
    let _ ← requirePinned vol "backup_store_unavailable"
      "volume must be pinned to a worker before a pre-delete backup can run"
    ensureVolumeBackupStoreConfigured
    let id ← newVolumeID
    let backup ← context s.failed (backupStmt (.create id vol.id .preDelete))
    let op ← context s.failed (enqueueProjectVolumeOperation vol vol.serverId .backup
      { backupId := some backup.id, deleteAfter := true } .deleting)
    return some op
  else
    context s.failed (ofCall (.removeFile host vol.id))
    context s.failed (volumeRowStmt (.softDelete s.projectId))
    return none

def deleteProjectVolume (projectId host : Id) : Go VolumeOp (Option VolumeOperation) :=
  deleteVolume (projectVolumeScope projectId "delete") host

def deleteServiceVolume (service : Service) (host : Id) : Go VolumeOp (Option VolumeOperation) :=
  deleteVolume (serviceVolumeScope service "delete") host

inductive StartRequest
  | projectBackup (projectId : Id)
  | serviceBackup (service : Service)
  | projectRestore (projectId : Id) (req : Option RestoreRequest)
  | serviceRestore (service : Service) (req : Option RestoreRequest)
  | projectMove (projectId : Id) (req : Option RequestedServer)
  | serviceMove (service : Service) (req : Option RequestedServer)
  | projectRepair (projectId : Id)
  | serviceRepair (service : Service)
  | deleteProject (projectId host : Id)
  | deleteService (service : Service) (host : Id)

/-- The handler of a request, for its effects. -/
def StartRequest.serve : StartRequest → Go VolumeOp Unit
  | projectBackup p => do let _ ← postProjectVolumeBackup p
  | serviceBackup s => do let _ ← postServiceVolumeBackup s
  | projectRestore p req => do let _ ← postProjectVolumeRestore p req
  | serviceRestore s req => do let _ ← postServiceVolumeRestore s req
  | projectMove p req => do let _ ← postProjectVolumeMove p req
  | serviceMove s req => do let _ ← postServiceVolumeMove s req
  | projectRepair p => do let _ ← postProjectVolumeRepair p
  | serviceRepair s => do let _ ← postServiceVolumeRepair s
  | deleteProject p host => do let _ ← deleteProjectVolume p host
  | deleteService s host => do let _ ← deleteServiceVolume s host

/-! ## Creating and changing volumes -/

/-- The body of a request to create or change a volume; a field that is missing is `none`. -/
structure VolumeRequest where
  mountPath : Option String := none
  sizeGb : Option Int := none
  backupSchedule : Option String := none
  backupRetentionCount : Option Int := none
  preDeleteBackupEnabled : Option Bool := none

def normalizeProjectVolumeMountPath (raw : String) : Except Err String :=
  let mountPath := if trimSpace raw = "" then "/data" else trimSpace raw
  if mountPath.toList.head? ≠ some '/' then
    .error (apiError "validation_error" "mount_path must be absolute")
  else
    match AbsPath.join [] mountPath with
    | [] => .error (apiError "validation_error" "mount_path cannot be /")
    | names => .ok (String.join (names.map fun n => "/" ++ n.text))

def normalizeProjectVolumeBackupSchedule (raw : String) : Except Err BackupSchedule :=
  match trimSpace raw with
  | "" | "manual" => .ok .manual
  | "off" => .ok .off
  | "daily" => .ok .daily
  | "weekly" => .ok .weekly
  | _ => .error (apiError "validation_error"
      "backup_schedule must be one of off, manual, daily, weekly")

def normalizeProjectVolumeBackupRetention (raw : Option Int) : Except Err Nat :=
  let retention := raw.getD 7
  if retention ≤ 0 then
    .error (apiError "validation_error" "backup_retention_count must be at least 1")
  else .ok retention.toNat

/-- The checks of a request by itself: the mount path and the specification it asks for. -/
def VolumeRequest.check (req : VolumeRequest) (project : Project) :
    Except Err (String × VolumeSpec) := do
  let sizeGb := req.sizeGb.getD 5
  if sizeGb ≤ 0 then throw (apiError "validation_error" "size_gb must be at least 1")
  let mountPath ← normalizeProjectVolumeMountPath (req.mountPath.getD "")
  let backupSchedule ← normalizeProjectVolumeBackupSchedule (req.backupSchedule.getD "")
  let backupRetentionCount ← normalizeProjectVolumeBackupRetention req.backupRetentionCount
  if 1 < project.maxInstanceCount then
    throw (apiError "validation_error" "persistent volumes require max_instance_count <= 1")
  return (mountPath, { sizeGb, backupSchedule, backupRetentionCount
                       preDeleteBackupEnabled := req.preDeleteBackupEnabled.getD false })

/-- What a request does not say is taken from the row that exists. -/
def VolumeSpec.withDefaultsOf (spec : VolumeSpec) (req : VolumeRequest) (vol : ProjectVolume) :
    VolumeSpec where
  sizeGb := spec.sizeGb
  backupSchedule := if req.backupSchedule.isNone then vol.backupSchedule else spec.backupSchedule
  backupRetentionCount :=
    if req.backupRetentionCount.isNone then vol.backupRetentionCount else spec.backupRetentionCount
  preDeleteBackupEnabled :=
    if req.preDeleteBackupEnabled.isNone then vol.preDeleteBackupEnabled
    else spec.preDeleteBackupEnabled

def checkAgainst (vol : ProjectVolume) (mountPath : String) (spec : VolumeSpec) : Except Err Unit :=
  if vol.mountPath ≠ mountPath then
    .error (apiError "validation_error" "mount_path is immutable after creation")
  else if spec.sizeGb < vol.sizeGb then
    .error (apiError "validation_error" "size_gb cannot shrink an existing volume")
  else .ok ()

def hasCloudHypervisorWorker (rows : List ServerComponentStatus) (servers : List Server) : Bool :=
  rows.any fun row => row.worker && row.healthy && row.runtime == some .cloudHypervisor &&
    ((servers.filter (·.id == row.serverId)).getLast?.any (·.status == .active))

def requireCloudHypervisorWorker (failed : String) : Go VolumeOp Unit := do
  let servers ← context failed (query .serverFindAll)
  let statuses ← context failed (query .serverComponentStatusFindAll)
  if hasCloudHypervisorWorker statuses servers then return ()
  else throw (apiError "volume_unavailable" "no active cloud-hypervisor worker is available")

def respecifyVolume (projectId : Id) (vol : ProjectVolume) (req : VolumeRequest) (mountPath : String)
    (spec : VolumeSpec) (failed : String) : Go VolumeOp ProjectVolume := do
  let spec := spec.withDefaultsOf req vol
  ofResult (checkAgainst vol mountPath spec)
  if vol.status = .attached ∧ spec.sizeGb ≠ vol.sizeGb then
    throw (apiError "volume_attached" "detach the volume before resizing it")
  else context failed (volumeRowStmt (.updateSpec projectId spec))

/-- A volume that was deleted comes back under its identifier, or a new one is created. -/
def recreateVolume (projectId : Id) (serviceId : Id) (owned : ProjectVolume → Except Err Unit)
    (req : VolumeRequest) (mountPath : String) (spec : VolumeSpec) (failed : String) :
    Go VolumeOp ProjectVolume := do
  match ← attempt (volumeRead (.volumeFindAnyByProjectID projectId)) with
  | .ok vol =>
    ofResult (owned vol)
    let spec := spec.withDefaultsOf req vol
    ofResult (checkAgainst vol mountPath spec)
    context failed (volumeRowStmt (.revive projectId spec))
  | .error e =>
    if e.isNoRows then
      let id ← newVolumeID
      context failed (volumeRowStmt (.create id projectId (some serviceId) mountPath spec))
    else throw (e.wrap failed)

/-- A new volume belongs to the primary service of the project. -/
def putProjectVolume (project : Project) (primaryService : Id) (req : VolumeRequest) :
    Go VolumeOp ProjectVolume := do
  let (mountPath, spec) ← ofResult (req.check project)
  requireCloudHypervisorWorker "put_project_volume"
  match ← attempt (query (.projectVolumeFindByProjectID project.id)) with
  | .ok vol => respecifyVolume project.id vol req mountPath spec "put_project_volume"
  | .error e =>
    if e.isNoRows then
      recreateVolume project.id primaryService (fun _ => .ok ()) req mountPath spec
        "put_project_volume"
    else throw (e.wrap "put_project_volume")

/-- The volume of a project that belongs to another of its services is refused. -/
def ownedBy (service : Id) (vol : ProjectVolume) : Except Err Unit :=
  if vol.serviceId.any (· != service) then
    .error (apiError "volume_owned_by_other_service"
      "this project already has a persistent volume attached to another service")
  else .ok ()

/-- The volume is looked up before the request is checked. -/
def putServiceVolume (project : Project) (service : Id) (req : VolumeRequest) :
    Go VolumeOp ProjectVolume := do
  match ← attempt (query (.projectVolumeFindByServiceID service)) with
  | .ok vol =>
    let (mountPath, spec) ← ofResult (req.check project)
    requireCloudHypervisorWorker "put_service_volume"
    respecifyVolume project.id vol req mountPath spec "put_service_volume"
  | .error e =>
    if e.isNoRows then
      let (mountPath, spec) ← ofResult (req.check project)
      requireCloudHypervisorWorker "put_service_volume"
      recreateVolume project.id service (ownedBy service) req mountPath spec "put_service_volume"
    else throw (e.wrap "get_service_volume")

end Kindling
