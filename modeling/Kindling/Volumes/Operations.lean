import Kindling.Volumes.Store

/-!
# The reconciler of volume operations

`internal/volumeops/handler.go`. A pass reads an operation and its volume, does the work of the
operation on the server it is for, and records the end; a pass on another server fails an operation
whose server is not healthy, and any pass one that has run for too long.
-/

namespace Kindling

open Fallible

def staleRunningAfter : Time := 45 * 60 * second

def volumeRead (q : VolumeQuery β) : Go VolumeOp β := ofCall (.read q)

def operationStmt (s : OperationStmt) : Go VolumeOp VolumeOperation := ofCall (.operations s)

def backupStmt (s : BackupStmt β) : Go VolumeOp β := ofCall (.backups s)

def volumeRowStmt (s : VolumeRowStmt β) : Go VolumeOp β := ofCall (.rows s)

def completeOperation (op : VolumeOperation) (vol : ProjectVolume) (result : OperationResult)
    (status : VolumeStatus) (health : VolumeHealth) (lastError : String) : Go VolumeOp Unit := do
  let _ ← context "update completed operation"
    (operationStmt (.updateState op.id op.serverId .succeeded op.request result ""))
  let _ ← context "update volume status"
    (volumeRowStmt (.updateStatusAndHealth vol.projectId status health (trimSpace lastError)))

def failBackup (message : String) : Option Id → Go VolumeOp Unit
  | none => pure ()
  | some id => do
    match ← attempt (volumeRead (.backupFindByID id)) with
    | .error _ => return ()
    | .ok backup =>
      discard (backupStmt (.updateState backup.id .failed backup.storageUrl backup.storageKey
        backup.sizeBytes message))

def healthAfterFailure (vol : ProjectVolume) (health : Option VolumeHealth) : VolumeHealth :=
  let next := health.getD vol.health
  if next = .unknown then .degraded else next

def statusAfterFailure (health : VolumeHealth) : VolumeStatus :=
  if health = .missing ∨ health = .corrupt then .unavailable else .detached

/-- A message that is blank is replaced. -/
@[irreducible] def failureMessage (message : String) : String :=
  let message := trimSpace message
  if message == "" then "volume operation failed" else message

def failOperation (op : VolumeOperation) (vol : ProjectVolume) (message : String)
    (health : Option VolumeHealth := none) (backupId : Option Id := none) : Go VolumeOp Unit := do
  let message := failureMessage message
  failBackup message backupId
  let _ ← context "update failed operation"
    (operationStmt (.updateState op.id op.serverId .failed op.request op.result message))
  let nextHealth := healthAfterFailure vol health
  let _ ← context "update volume status after failure" (volumeRowStmt
    (.updateStatusAndHealth vol.projectId (statusAfterFailure nextHealth) nextHealth message))

/-! ## The work of an operation -/

structure VolumeHandler where
  serverId : Id

def ProjectVolume.inUse (v : ProjectVolume) : Bool := v.attachedVmId.isSome || v.status == .attached

/-- The loop of `trimBackups`. -/
def trimLoop (retention : Nat) : List VolumeBackup → Nat → Go VolumeOp Unit
  | [], _ => pure ()
  | backup :: rest, kept =>
    if backup.status ≠ .succeeded then trimLoop retention rest kept
    else if kept + 1 ≤ retention then trimLoop retention rest (kept + 1)
    else do
      if trimSpace backup.storageKey ≠ "" then
        context "delete expired backup object" (ofCall (.deleteObject (trimSpace backup.storageKey)))
      context "delete expired backup record" (backupStmt (.deleteByID backup.id))
      trimLoop retention rest (kept + 1)

/-- All but the newest successful backups are deleted. -/
def trimBackups (vol : ProjectVolume) : Go VolumeOp Unit := do
  if vol.backupRetentionCount = 0 then return ()
  let backups ← context "list backups for trim" (volumeRead (.backupFindByProjectID vol.projectId))
  trimLoop vol.backupRetentionCount backups 0

@[irreducible] def backupObjectKey (volume backup : Id) : String :=
  "project-volumes/" ++ toString volume ++ "/backups/" ++ toString backup ++ ".qcow2"

@[irreducible] def moveObjectKey (operation : Id) : String :=
  "project-volumes/moves/" ++ toString operation ++ ".qcow2"

/-- The end of a backup: the operation is completed, or the disk and the volume are deleted. -/
def finishBackup (h : VolumeHandler) (op : VolumeOperation) (vol : ProjectVolume)
    (req : OperationRequest) (backupId : Id) (result : OperationResult) : Go VolumeOp Unit := do
  if req.deleteAfter then
    match ← attempt (ofCall (.removeFile h.serverId vol.id)) with
    | .error e =>
      failOperation op vol ("delete local volume after backup: " ++ e.text) (some .degraded) backupId
    | .ok _ =>
      let _ ← context "update operation state after backup"
        (operationStmt (.updateState op.id op.serverId .succeeded op.request result ""))
      volumeRowStmt (.softDelete vol.projectId)
  else completeOperation op vol result .detached .healthy ""

def uploadBackup (h : VolumeHandler) (op : VolumeOperation) (vol : ProjectVolume)
    (req : OperationRequest) (backupId : Id) : Go VolumeOp Unit := do
  let (health, healthErr) ← ofTotal (.localVolumeHealth h.serverId vol.id)
  if healthErr ≠ "" then failOperation op vol healthErr (some health) backupId
  else
  let key := backupObjectKey vol.id backupId
  match ← attempt (ofCall (.uploadFile h.serverId vol.id key)) with
  | .error e => failOperation op vol ("upload backup: " ++ e.text) (some .degraded) backupId
  | .ok (storageUrl, sizeBytes) =>
  match ← attempt (backupStmt (.updateState backupId .succeeded storageUrl key sizeBytes "")) with
  | .error e => failOperation op vol ("mark backup succeeded: " ++ e.text) (some .degraded) backupId
  | .ok _ =>
  match ← attempt (trimBackups vol) with
  | .error e => failOperation op vol ("trim backups: " ++ e.text) (some .degraded) backupId
  | .ok _ =>
    finishBackup h op vol req backupId
      { backupId := some backupId, storageKey := key, storageUrl, sizeBytes }

def runBackup (h : VolumeHandler) (op : VolumeOperation) (vol : ProjectVolume) :
    Go VolumeOp Unit := do
  let some req := op.request | failOperation op vol "decode backup request"
  if vol.inUse then failOperation op vol "detach the volume before creating a backup"
  else if vol.serverId.isNone then failOperation op vol "volume is not pinned to a server"
  else
  let some backupId := req.backupId | failOperation op vol "backup operation is missing a backup id"
  match ← attempt (ofCall .backupStore) with
  | .error e => failOperation op vol e.text
  | .ok _ =>
  match ← attempt (volumeRead (.backupFindByID backupId)) with
  | .error e => failOperation op vol ("load backup: " ++ e.text)
  | .ok backup =>
  match ← attempt (backupStmt (.updateState backup.id .running backup.storageUrl backup.storageKey
      backup.sizeBytes "")) with
  | .error e => failOperation op vol ("mark backup running: " ++ e.text)
  | .ok _ => uploadBackup h op vol req backup.id

/-- A download that replaces the file of a volume. -/
def downloadToPath (h : VolumeHandler) (vol : ProjectVolume) (storageKey : String) :
    Go VolumeOp Unit :=
  if trimSpace storageKey = "" then throw (.of (.message "storage key is required"))
  else ofCall (.downloadFile h.serverId vol.id storageKey)

def pinAndComplete (op : VolumeOperation) (vol : ProjectVolume) (target : Id)
    (result : OperationResult) (failure : String) : Go VolumeOp Unit := do
  match ← attempt (ofCall (.deployer (.db (.volumes (.assignServer vol.projectId target)))) :
      Go VolumeOp ProjectVolume) with
  | .error e => failOperation op vol (failure ++ e.text) (some .degraded)
  | .ok _ => completeOperation op vol result .detached .healthy ""

def runRestore (h : VolumeHandler) (op : VolumeOperation) (vol : ProjectVolume) :
    Go VolumeOp Unit := do
  let some req := op.request | failOperation op vol "decode restore request"
  if vol.inUse then failOperation op vol "detach the volume before restoring it"
  else
  let some backupId := req.backupId | failOperation op vol "restore operation is missing a backup id"
  let some target := req.targetServerId
    | failOperation op vol "restore operation is missing a target server"
  match ← attempt (ofCall .backupStore) with
  | .error e => failOperation op vol e.text
  | .ok _ =>
  match ← attempt (volumeRead (.backupFindByID backupId)) with
  | .error e => failOperation op vol ("load backup: " ++ e.text)
  | .ok backup =>
  if backup.status ≠ .succeeded ∨ trimSpace backup.storageKey = "" then
    failOperation op vol "backup is not ready to restore"
  else
  match ← attempt (downloadToPath h vol backup.storageKey) with
  | .error e => failOperation op vol ("restore backup: " ++ e.text) (some .degraded)
  | .ok _ =>
    pinAndComplete op vol target
      { backupId := req.backupId, targetServerId := req.targetServerId
        storageKey := backup.storageKey, storageUrl := backup.storageUrl
        sizeBytes := backup.sizeBytes } "pin restored volume server: "

/-- The first stage of a move, on the source server: the operation goes to the target server. -/
def uploadForMove (h : VolumeHandler) (op : VolumeOperation) (vol : ProjectVolume)
    (req : OperationRequest) (target : Id) : Go VolumeOp Unit := do
  let (health, healthErr) ← ofTotal (.localVolumeHealth h.serverId vol.id)
  if healthErr ≠ "" then failOperation op vol healthErr (some health)
  else
  let key := if trimSpace req.storageKey = "" then moveObjectKey op.id else trimSpace req.storageKey
  match ← attempt (ofCall (.uploadFile h.serverId vol.id key)) with
  | .error e => failOperation op vol ("upload volume for move: " ++ e.text) (some .degraded)
  | .ok (storageUrl, sizeBytes) =>
    let _ ← context "update move operation state" (operationStmt (.updateState op.id (some target)
      .pending
      (some { req with
        stage := some .download
        storageKey := if trimSpace req.storageKey = "" then key else req.storageKey })
      { targetServerId := req.targetServerId, storageKey := key, storageUrl, sizeBytes } ""))

/-- The second stage of a move, on the target server. -/
def downloadForMove (h : VolumeHandler) (op : VolumeOperation) (vol : ProjectVolume)
    (req : OperationRequest) (target : Id) : Go VolumeOp Unit := do
  match ← attempt (downloadToPath h vol req.storageKey) with
  | .error e => failOperation op vol ("download moved volume: " ++ e.text) (some .degraded)
  | .ok _ =>
  match ← attempt (ofCall (.deleteObject req.storageKey)) with
  | .error e => failOperation op vol ("delete move staging object: " ++ e.text) (some .degraded)
  | .ok _ =>
    pinAndComplete op vol target
      { targetServerId := req.targetServerId, storageKey := req.storageKey }
      "pin moved volume server: "

def runMove (h : VolumeHandler) (op : VolumeOperation) (vol : ProjectVolume) : Go VolumeOp Unit := do
  let some req := op.request | failOperation op vol "decode move request"
  if vol.inUse then failOperation op vol "detach the volume before moving it"
  else
  let req := { req with
    sourceServerId := req.sourceServerId.or vol.serverId
    stage := req.stage.or (some .upload) }
  let some target := req.targetServerId
    | failOperation op vol "move operation is missing a target server"
  if req.sourceServerId = some target then
    failOperation op vol "volume is already pinned to that server"
  else
  match ← attempt (ofCall .backupStore) with
  | .error e => failOperation op vol e.text
  | .ok _ =>
  match req.stage with
  | some .download => downloadForMove h op vol req target
  | some (.unsupported text) => failOperation op vol ("unsupported move stage " ++ text)
  | _ => uploadForMove h op vol req target

def runRepair (h : VolumeHandler) (op : VolumeOperation) (vol : ProjectVolume) :
    Go VolumeOp Unit := do
  if vol.inUse then failOperation op vol "detach the volume before repairing it"
  else
  let (health, healthErr) ← ofTotal (.localVolumeHealth h.serverId vol.id)
  if healthErr ≠ "" ∧ health = .missing then failOperation op vol healthErr (some health)
  else
  match ← attempt (ofCall (.repairFile h.serverId vol.id)) with
  | .error e => failOperation op vol ("qemu-img check: " ++ e.text) (some .corrupt)
  | .ok _ => completeOperation op vol {} .detached .healthy ""

def runOperation (h : VolumeHandler) (op : VolumeOperation) (vol : ProjectVolume) :
    Go VolumeOp Unit :=
  match op.kind with
  | .backup => runBackup h op vol
  | .restore => runRestore h op vol
  | .move => runMove h op vol
  | .repair => runRepair h op vol

def operationServerHealthy (serverId : Id) : Go VolumeOp (Option String) := do
  match ← attempt (query (.serverFindByID serverId)) with
  | .error e => return some ("assigned server lookup failed: " ++ e.text)
  | .ok server =>
  if server.status ≠ .active then
    return some ("assigned server " ++ toString server.id ++ " is " ++ server.status.text)
  else
  match ← attempt (query (.serverComponentStatusFindByServerID server.id)) with
  | .error _ =>
    return some ("assigned server " ++ toString server.id ++ " is not a cloud-hypervisor worker")
  | .ok rows =>
    if rows.any fun r => r.worker && r.healthy && r.runtime == some .cloudHypervisor then return none
    else return some ("assigned server " ++ toString server.id ++ " is not a cloud-hypervisor worker")

/-- The clock is read for a running operation that has a start. -/
def isStaleRunning (op : VolumeOperation) : Go VolumeOp Bool :=
  match op.status, op.startedAt with
  | .running, some startedAt => do
    let now ← ofTotal (.deployer .now)
    return decide (startedAt + staleRunningAfter < now)
  | _, _ => pure false

/-- A pending operation is marked as running, and its work is done. -/
def startOperation (h : VolumeHandler) (op : VolumeOperation) (vol : ProjectVolume) :
    Go VolumeOp Unit := do
  if op.status = .pending then
    let op ← context "mark operation running" (operationStmt (.updateRunning op.id))
    runOperation h op vol
  else runOperation h op vol

/-- The part of a pass in which the operation is known not to be at its end. -/
def reconcileActive (h : VolumeHandler) (op : VolumeOperation) (vol : ProjectVolume) :
    Go VolumeOp Unit := do
  if ← isStaleRunning op then failOperation op vol "volume operation timed out"
  else
  match op.serverId with
  | none => startOperation h op vol
  | some server =>
    if server = h.serverId then startOperation h op vol
    else
      match ← operationServerHealthy server with
      | none => return ()
      | some message => failOperation op vol message

def reconcileVolumeOperation (h : VolumeHandler) (operationId : Id) : Go VolumeOp Unit := do
  match ← attempt (volumeRead (.operationFindByID operationId)) with
  | .error e => if e.isNoRows then return () else throw (e.wrap "fetch volume operation")
  | .ok op =>
  if op.status.terminal then return ()
  else
  match ← attempt (volumeRead (.volumeFindByID op.projectVolumeId)) with
  | .error e => if e.isNoRows then return () else throw (e.wrap "fetch volume")
  | .ok vol => reconcileActive h op vol

end Kindling
