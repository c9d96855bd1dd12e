import Kindling.Deploy.Volumes

/-!
# Volume operations and backups in the database

The tables `project_volume_operations` and `project_volume_backups`, the statements on project
volumes that the deployer does not issue, and the disk files of volumes on the servers. The JSON of a
request or a result is the value it decodes to.
-/

namespace Kindling

open Fallible

inductive VolumeOperationKind | backup | restore | move | repair
  deriving DecidableEq, Repr

/-- The statuses of operations, and of backups. -/
inductive OperationStatus | pending | running | succeeded | failed
  deriving DecidableEq, Repr

def OperationStatus.terminal : OperationStatus → Bool
  | succeeded | failed => true
  | pending | running => false

inductive BackupKind | manual | scheduled | preDelete
  deriving DecidableEq, Repr

inductive MoveStage | upload | download | unsupported (text : String)
  deriving DecidableEq, Repr

/-- `operationRequest`. An identifier or a stage that is missing is `none`. -/
structure OperationRequest where
  backupId : Option Id := none
  targetServerId : Option Id := none
  sourceServerId : Option Id := none
  stage : Option MoveStage := none
  storageKey : String := ""
  deleteAfter : Bool := false
  deriving DecidableEq, Repr

structure OperationResult where
  backupId : Option Id := none
  targetServerId : Option Id := none
  storageKey : String := ""
  storageUrl : String := ""
  sizeBytes : Nat := 0
  deriving DecidableEq, Repr

structure VolumeOperation where
  id : Id
  projectVolumeId : Id
  serverId : Option Id := none
  kind : VolumeOperationKind
  status : OperationStatus := .pending
  /-- `none` when the JSON does not decode. -/
  request : Option OperationRequest := some {}
  result : OperationResult := {}
  error : String := ""
  startedAt : Option Time := none
  completedAt : Option Time := none
  failedAt : Option Time := none
  createdAt : Time := 0
  deriving DecidableEq, Repr

def VolumeOperation.active (o : VolumeOperation) : Bool := !o.status.terminal

structure VolumeBackup where
  id : Id
  projectVolumeId : Id
  kind : BackupKind := .manual
  status : OperationStatus := .pending
  storageUrl : String := ""
  storageKey : String := ""
  sizeBytes : Nat := 0
  error : String := ""
  startedAt : Option Time := none
  completedAt : Option Time := none
  failedAt : Option Time := none
  createdAt : Time := 0
  deriving DecidableEq, Repr

/-- The file of a volume on a server (`PersistentVolumePath`). -/
structure Disk where
  server : Id
  volume : Id
  deriving DecidableEq, Repr

structure VolumeWorld extends World where
  operations : Table Id VolumeOperation (·.id) := .empty
  backups : Table Id VolumeBackup (·.id) := .empty
  disks : List Disk := []
  deriving Inhabited

namespace VolumeWorld

def withOperations (t : Table Id VolumeOperation (·.id)) (w : VolumeWorld) : VolumeWorld :=
  { w with operations := t }

def withBackups (t : Table Id VolumeBackup (·.id)) (w : VolumeWorld) : VolumeWorld :=
  { w with backups := t }

def withRows (t : VolumeTable) (w : VolumeWorld) : VolumeWorld := { w with volumes := t }

/-- `project_volumes` by `id`. -/
def volumeByID (w : VolumeWorld) (id : Id) : Option ProjectVolume :=
  w.volumes.rows.find? fun v => v.id == id

end VolumeWorld

/-! ## Statements -/

abbrev OperationTable := Table Id VolumeOperation (·.id)

inductive OperationStmt
  | create (id projectVolumeId : Id) (serverId : Option Id) (kind : VolumeOperationKind)
      (request : OperationRequest)
  | updateRunning (id : Id)
  | updateState (id : Id) (serverId : Option Id) (status : OperationStatus)
      (request : Option OperationRequest) (result : OperationResult) (error : String)

namespace OperationStmt

def target : OperationStmt → Id
  | create id .. | updateRunning id | updateState id .. => id

def change (now : Time) : OperationStmt → VolumeOperation → VolumeOperation
  | create .., o => o
  | updateRunning _, o => { o with status := .running, error := "", startedAt := some now }
  | updateState _ server status request result error, o =>
    { o with
      serverId := server, status, request, result, error
      startedAt := if status = .running ∧ o.startedAt = none then some now else o.startedAt
      completedAt := if status = .succeeded then some now else o.completedAt
      failedAt := if status = .failed then some now else o.failedAt }

theorem change_id (now : Time) (s : OperationStmt) (o : VolumeOperation) :
    (s.change now o).id = o.id := by
  cases s <;> rfl

def exec (now : Time) (s : OperationStmt) (t : OperationTable) :
    Except Err VolumeOperation × OperationTable :=
  match s with
  | create id volume server kind request =>
    inserting t { id, projectVolumeId := volume, serverId := server, kind, request := some request,
                  createdAt := now }
  | updateRunning id => returning (t.updateKey id (fun _ => true) (s.change now) (s.change_id now))
  | updateState id .. => returning (t.updateKey id (fun _ => true) (s.change now) (s.change_id now))

end OperationStmt

abbrev BackupTable := Table Id VolumeBackup (·.id)

inductive BackupStmt : Type → Type
  | create (id projectVolumeId : Id) (kind : BackupKind) : BackupStmt VolumeBackup
  | updateState (id : Id) (status : OperationStatus) (storageUrl storageKey : String)
      (sizeBytes : Nat) (error : String) : BackupStmt VolumeBackup
  | deleteByID (id : Id) : BackupStmt Unit

def BackupStmt.exec (now : Time) : BackupStmt β → BackupTable → Except Err β × BackupTable
  | create id volume kind, t => inserting t { id, projectVolumeId := volume, kind, createdAt := now }
  | updateState id status url key size error, t =>
    returning (t.updateKey id (fun _ => true) (fun b => { b with
        status, storageUrl := url, storageKey := key, sizeBytes := size, error
        startedAt := if status = .running ∧ b.startedAt = none then some now else b.startedAt
        completedAt := if status = .succeeded then some now else b.completedAt
        failedAt := if status = .failed then some now else b.failedAt }) fun _ => rfl)
  | deleteByID id, t => (.ok (), t.keep fun b => b.id != id)

/-- The specification of a volume, as a request gives it. -/
structure VolumeSpec where
  sizeGb : Int
  backupSchedule : BackupSchedule
  backupRetentionCount : Nat
  preDeleteBackupEnabled : Bool
  deriving DecidableEq, Repr

def ProjectVolume.respecified (v : ProjectVolume) (spec : VolumeSpec) : ProjectVolume := { v with
    sizeGb := spec.sizeGb, backupSchedule := spec.backupSchedule
    backupRetentionCount := spec.backupRetentionCount
    preDeleteBackupEnabled := spec.preDeleteBackupEnabled }

/-- Statements on project volumes that the deployer does not issue. -/
inductive VolumeRowStmt : Type → Type
  | updateStatusAndHealth (projectId : Id) (status : VolumeStatus) (health : VolumeHealth)
      (lastError : String) : VolumeRowStmt ProjectVolume
  | softDelete (projectId : Id) : VolumeRowStmt Unit
  | create (id projectId : Id) (serviceId : Option Id) (mountPath : String) (spec : VolumeSpec) :
      VolumeRowStmt ProjectVolume
  | updateSpec (projectId : Id) (spec : VolumeSpec) : VolumeRowStmt ProjectVolume
  | revive (projectId : Id) (spec : VolumeSpec) : VolumeRowStmt ProjectVolume

def VolumeRowStmt.exec (now : Time) : VolumeRowStmt β → VolumeTable → Except Err β × VolumeTable
  | updateStatusAndHealth p st h e, t =>
    returning (t.updateKey p (·.undeleted) ({ · with status := st, health := h, lastError := e })
      fun _ => rfl)
  | softDelete p, t =>
    (.ok (), (t.updateKey p (·.undeleted) ({ · with
        serverId := none, attachedVmId := none, status := .detached, health := .unknown
        lastError := "", deletedAt := some now }) fun _ => rfl).2)
  | create id p s path spec, t =>
    inserting t (({ id, projectId := p, serviceId := s, mountPath := path } :
      ProjectVolume).respecified spec)
  | updateSpec p spec, t =>
    returning (t.updateKey p (·.undeleted) (·.respecified spec) fun _ => rfl)
  | revive p spec, t =>
    returning (t.updateKey p (fun _ => true) (fun v => { v.respecified spec with
        serverId := none, attachedVmId := none, status := .detached, health := .unknown
        lastError := "", deletedAt := none }) fun _ => rfl)

/-- Reads of the tables of operations and backups, and of deleted volumes. -/
inductive VolumeQuery : Type → Type
  | operationFindByID (id : Id) : VolumeQuery VolumeOperation
  | operationFindCurrentByVolumeID (volume : Id) : VolumeQuery VolumeOperation
  | backupFindByID (id : Id) : VolumeQuery VolumeBackup
  | backupFindByProjectID (projectId : Id) : VolumeQuery (List VolumeBackup)
  | volumeFindByID (id : Id) : VolumeQuery ProjectVolume
  | volumeFindAnyByProjectID (projectId : Id) : VolumeQuery ProjectVolume

/-- Newest first. -/
def newestBackups (l : List VolumeBackup) : List VolumeBackup :=
  l.insertionSort fun a b => b.createdAt ≤ a.createdAt

def VolumeQuery.eval : VolumeQuery β → VolumeWorld → Except Err β
  | operationFindByID id, w => one (w.operations.find? id)
  | operationFindCurrentByVolumeID volume, w =>
    one (((w.operations.selectBy (fun o => o.projectVolumeId == volume && o.active)
      (·.createdAt)).reverse).head?)
  | backupFindByID id, w => one (w.backups.find? id)
  | backupFindByProjectID p, w =>
    .ok (newestBackups (w.backups.rows.filter fun b =>
      (w.volumes.find? p).any fun v => v.undeleted && v.id == b.projectVolumeId))
  | volumeFindByID id, w => one ((w.volumeByID id).filter (·.undeleted))
  | volumeFindAnyByProjectID p, w => one (w.volumes.find? p)

/-- The statements and calls that operations on volumes need, next to those of a deployer. -/
inductive VolumeOp : Type → Type 1
  | deployer {β : Type} (o : Op β) : VolumeOp β
  | read {β : Type} (q : VolumeQuery β) : VolumeOp (Except Err β)
  | operations (s : OperationStmt) : VolumeOp (Except Err VolumeOperation)
  | backups {β : Type} (s : BackupStmt β) : VolumeOp (Except Err β)
  | rows {β : Type} (s : VolumeRowStmt β) : VolumeOp (Except Err β)
  /-- The configuration of the object store, and a client for it. -/
  | backupStore : VolumeOp (Except Err Unit)
  /-- `os.Stat` and `qemu-img info`: the health of the file, and a message if it is not healthy. -/
  | localVolumeHealth (server volume : Id) : VolumeOp (VolumeHealth × String)
  /-- Returns the URL and the size of the object. -/
  | uploadFile (server volume : Id) (key : String) : VolumeOp (Except Err (String × Nat))
  /-- `downloadToPath` -/
  | downloadFile (server volume : Id) (key : String) : VolumeOp (Except Err Unit)
  | deleteObject (key : String) : VolumeOp (Except Err Unit)
  /-- `qemu-img check -r all` -/
  | repairFile (server volume : Id) : VolumeOp (Except Err Unit)
  /-- `os.Remove`; a file that does not exist is no error. -/
  | removeFile (server volume : Id) : VolumeOp (Except Err Unit)

namespace VolumeWorld

def holds (w : VolumeWorld) (d : Disk) : Bool := w.disks.contains d

def addDisk (w : VolumeWorld) (d : Disk) : VolumeWorld :=
  if w.holds d then w else { w with disks := d :: w.disks }

def removeDisk (w : VolumeWorld) (d : Disk) : VolumeWorld :=
  { w with disks := w.disks.filter (· != d) }

end VolumeWorld

def onVolumeTable (a : Answer) (exec : τ → Except Err β × τ) (get : VolumeWorld → τ)
    (set : τ → VolumeWorld → VolumeWorld) (w : VolumeWorld) : Except Err β × VolumeWorld :=
  if a.fail then (.error (.of .unavailable), w)
  else ((exec (get w)).1, set (exec (get w)).2 w)

/-- The disk that exists once a call has succeeded: a runtime makes the disk of the volume that it
starts a guest with, if there is none. -/
def Op.makesDisk : Op β → Option Disk
  | .runtime server (.start i) | .runtime server (.startClone i ..) =>
    i.persistentVolume.map fun v => ⟨server, v.id⟩
  | _ => none

def Op.execWithDisks (o : Op β) (as : List Answer) (w : VolumeWorld) :
    Outcome β VolumeWorld Answer :=
  let r := o.exec as w.toWorld
  let w' := { w with toWorld := r.state }
  ⟨r.value, if (as.headD default).fail then w' else o.makesDisk.elim w' w'.addDisk, r.rest⟩

def VolumeOp.exec : VolumeOp β → List Answer → VolumeWorld → Outcome β VolumeWorld Answer
  | deployer o, as, w => o.execWithDisks as w
  | read q, as, w => answering as fun a =>
    (if a.fail then .error (.of .unavailable) else q.eval w, w)
  | operations s, as, w => answering as fun a =>
    onVolumeTable a (s.exec a.now) (·.operations) VolumeWorld.withOperations w
  | backups s, as, w => answering as fun a =>
    onVolumeTable a (s.exec a.now) (·.backups) VolumeWorld.withBackups w
  | rows s, as, w => answering as fun a =>
    onVolumeTable a (s.exec a.now) (·.volumes) VolumeWorld.withRows w
  | backupStore, as, w => answering as fun a =>
    (if a.fail then .error (.of (.message "volume backup store is not configured")) else .ok (), w)
  | localVolumeHealth server volume, as, w => answering as fun a =>
    (if a.fail then (.degraded, "stat persistent volume disk: " ++ a.text)
      else if !w.holds ⟨server, volume⟩ then
        (.missing, "persistent volume disk is missing at " ++ a.text)
      else if a.ok then (.healthy, "") else (.corrupt, "qemu-img info: " ++ a.text), w)
  | uploadFile .., as, w => answering as fun a =>
    (if a.fail then .error (.of (.message a.text)) else .ok (a.text, a.uuids 0), w)
  | downloadFile server volume _, as, w => answering as fun a =>
    if a.fail then (.error (.of (.message a.text)), w) else (.ok (), w.addDisk ⟨server, volume⟩)
  | deleteObject _, as, w => answering as fun a =>
    (if a.fail then .error (.of (.message a.text)) else .ok (), w)
  | repairFile .., as, w => answering as fun a =>
    (if a.fail then .error (.of (.message a.text)) else .ok (), w)
  | removeFile server volume, as, w => answering as fun a =>
    if a.fail then (.error (.of (.message a.text)), w) else (.ok (), w.removeDisk ⟨server, volume⟩)

instance : Effect VolumeOp Answer VolumeWorld where
  exec := VolumeOp.exec

instance : Reads VolumeOp := ⟨fun q => .deployer (.db (.query q))⟩

end Kindling
