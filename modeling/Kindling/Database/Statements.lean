import Kindling.Database.Rows

/-!
# SQL statements

The statements of `internal/database/queries.sql` that the modelled reconcilers issue. Reads are
evaluated on the whole state. Writes are grouped by the one table they change, so what a statement
leaves alone can be read off its type. A `:one` statement that matches no row fails with
`ErrNoRows`; an `:exec` statement that matches no row succeeds.
-/

namespace Kindling

/-- The root cause of an error. -/
inductive Fault
  | noRows
  | uniqueViolation
  | outOfRange
  | unavailable
  | instanceNotRunning
  | runtime
  | volumeUnavailable (message : String)
  | message (text : String)
  | diverged
  deriving DecidableEq, Repr

/-- An error with the contexts wrapped around its cause, outermost first. -/
structure Err where
  wraps : List String := []
  root : Fault
  deriving DecidableEq, Repr

def Err.of (f : Fault) : Err := { root := f }

/-- `fmt.Errorf("context: %w", err)` -/
def Err.wrap (context : String) (e : Err) : Err := { e with wraps := context :: e.wraps }

/-- `WriteAPIError`, without the status of the response. -/
def apiError (code message : String) : Err := (Err.of (.message message)).wrap code

def Err.isNoRows (e : Err) : Bool := e.root == .noRows

def Fault.text : Fault → String
  | noRows => "no rows in result set"
  | uniqueViolation => "duplicate key value violates unique constraint"
  | outOfRange => "integer out of range"
  | unavailable => "connection refused"
  | instanceNotRunning => "instance not running"
  | runtime => "runtime error"
  | volumeUnavailable m => m
  | message m => m
  | diverged => "loop did not end"

/-- `err.Error()` -/
def Err.text (e : Err) : String := e.wraps.foldr (fun c s => c ++ ": " ++ s) e.root.text

/-- What the environment contributes to one call: whether it fails and how, the clock, fresh
identifiers, and the results of probes. -/
structure Answer where
  fail : Bool := false
  notRunning : Bool := false
  ok : Bool := true
  now : Time := 0
  uuids : Nat → Id := fun n => 1000 + n
  text : String := ""
  texts : List String := []
  address : Option (Nat × Nat) := some (0, 3000)

instance : Inhabited Answer := ⟨{}⟩

/-- The row of a `:one` query. -/
def one (r : Option ρ) : Except Err ρ :=
  match r with
  | some x => .ok x
  | none => .error (.of .noRows)

/-- A statement that returns the row it has changed. -/
def returning {key : ρ → κ} (r : Option ρ × Table κ ρ key) : Except Err ρ × Table κ ρ key :=
  (one r.1, r.2)

/-- An `INSERT … RETURNING *`. -/
def inserting [DecidableEq κ] {key : ρ → κ} (t : Table κ ρ key) (x : ρ) :
    Except Err ρ × Table κ ρ key :=
  match t.insert? x with
  | some t' => (.ok x, t')
  | none => (.error (.of .uniqueViolation), t)

inductive DeploymentStmt : Type → Type
  | updateFailedAt (id : Id) : DeploymentStmt Unit
  | updateBuild (id : Id) (buildId : Id) : DeploymentStmt Deployment
  | updateImage (id : Id) (imageId : Option Id) : DeploymentStmt Deployment
  | markRunning (id : Id) : DeploymentStmt Unit
  | clearWakeRequested (id : Id) : DeploymentStmt Unit
  | markStopped (id : Id) : DeploymentStmt Unit
  | circuitBreak (id : Id) : DeploymentStmt Deployment
  | resetCircuit (id : Id) : DeploymentStmt Unit

abbrev DeploymentTable := Table Id Deployment (·.id)

namespace DeploymentStmt

/-- The row a statement is about. -/
def target : DeploymentStmt β → Id
  | updateFailedAt id | updateBuild id _ | updateImage id _ | markRunning id
  | clearWakeRequested id | markStopped id | circuitBreak id | resetCircuit id => id

/-- The rest of the `WHERE` clause. -/
def applies : DeploymentStmt β → Deployment → Bool
  | circuitBreak _, d => !d.circuitBroken && d.deletedAt.isNone
  | resetCircuit _, d => d.deletedAt.isNone
  | _, _ => true

/-- The `SET` clause. -/
def change (now : Time) : DeploymentStmt β → Deployment → Deployment
  | updateFailedAt _, d => { d with failedAt := some now }
  | updateBuild _ b, d => { d with buildId := some b }
  | updateImage _ i, d => { d with imageId := i }
  | markRunning _, d => { d with runningAt := some now }
  | clearWakeRequested _, d => { d with wakeRequestedAt := none }
  | markStopped _, d => { d with stoppedAt := some now }
  | circuitBreak _, d => { d with circuitBroken := true }
  | resetCircuit _, d => { d with circuitBroken := false }

theorem change_id (now : Time) (s : DeploymentStmt β) (d : Deployment) :
    (s.change now d).id = d.id := by
  cases s <;> rfl

/-- What the statement returns, given the row it has changed. -/
def result : DeploymentStmt β → Option Deployment → Except Err β
  | updateBuild _ _, r | updateImage _ _, r | circuitBreak _, r => one r
  | updateFailedAt _, _ | markRunning _, _ | clearWakeRequested _, _ | markStopped _, _
  | resetCircuit _, _ => .ok ()

def exec (now : Time) (s : DeploymentStmt β) (t : DeploymentTable) :
    Except Err β × DeploymentTable :=
  let r := t.updateKey s.target s.applies (s.change now) (s.change_id now)
  (s.result r.1, r.2)

end DeploymentStmt

inductive InstanceStmt : Type → Type
  | create (id deploymentId : Id) : InstanceStmt DeploymentInstance
  | updateServer (id serverId : Id) : InstanceStmt DeploymentInstance
  | updateStatus (id : Id) (status : InstanceStatus) : InstanceStmt DeploymentInstance
  | updateRole (id : Id) (role : InstanceRole) : InstanceStmt DeploymentInstance
  | attachVM (id vmId : Id) (status : InstanceStatus) : InstanceStmt DeploymentInstance
  | softDelete (id : Id) : InstanceStmt Unit
  | resetForDeadServer (serverId : Id) : InstanceStmt Unit
  | prepareRetry (id : Id) : InstanceStmt DeploymentInstance
  | resetForRetry (id : Id) : InstanceStmt DeploymentInstance

abbrev InstanceTable := Table Id DeploymentInstance (·.id)

/-- The reset shared by `DeploymentInstanceResetForRetry`, `…PrepareRetry` and
`…ResetForDeadServer`. -/
def DeploymentInstance.released (i : DeploymentInstance) : DeploymentInstance :=
  { i with serverId := none, vmId := none, role := .active, status := .pending }

/-- The largest value of an `INT` column. -/
def maxInt : Nat := 2147483647

def InstanceStmt.exec (now : Time) :
    InstanceStmt β → InstanceTable → Except Err β × InstanceTable
  | create id dep, t => inserting t { id, deploymentId := dep, createdAt := now }
  | updateServer id s, t =>
    returning (t.updateKey id (·.undeleted) ({ · with serverId := some s }) fun _ => rfl)
  | updateStatus id st, t =>
    returning (t.updateKey id (·.undeleted) ({ · with status := st }) fun _ => rfl)
  | updateRole id r, t =>
    returning (t.updateKey id (·.undeleted) ({ · with role := r }) fun _ => rfl)
  | attachVM id v st, t =>
    returning (t.updateKey id (·.undeleted) ({ · with vmId := some v, status := st }) fun _ => rfl)
  | softDelete id, t =>
    (.ok (), (t.updateKey id (fun _ => true) ({ · with deletedAt := some now }) fun _ => rfl).2)
  | resetForDeadServer s, t =>
    (.ok (), t.updateWhere (fun i => i.serverId == some s && i.undeleted)
      (fun i => { i.released with restartCount := 0, lastRestartAt := none }) fun _ => rfl)
  | prepareRetry id, t =>
    -- `restart_count + 1` overflows an `INT` column: the statement fails and changes nothing.
    if (t.find? id).any fun i => i.undeleted && decide (maxInt ≤ i.restartCount) then
      (.error (.of .outOfRange), t)
    else
      returning (t.updateKey id (·.undeleted) (fun i => { i.released with
          restartCount := i.restartCount + 1, lastRestartAt := some now }) fun _ => rfl)
  | resetForRetry id, t =>
    returning (t.updateKey id (·.undeleted) DeploymentInstance.released fun _ => rfl)

inductive VmStmt : Type → Type
  | create (vm : Vm) : VmStmt Vm
  | updateStatus (id : Id) (status : VmStatus) : VmStmt Vm
  | updateLifecycleMetadata (id : Id) (status : VmStatus) (snapshotRef : Option String)
      (sharedRootfsRef : String) (cloneSourceVmId : Option Id) : VmStmt Vm
  | updateRuntimeAddress (id : Id) (ipAddress port : Nat) : VmStmt Vm
  | softDelete (id : Id) : VmStmt Unit

abbrev VmTable := Table Id Vm (·.id)

def VmStmt.exec (now : Time) : VmStmt β → VmTable → Except Err β × VmTable
  | create v, t => inserting t { v with deletedAt := none, createdAt := now }
  | updateStatus id st, t =>
    returning (t.updateKey id (fun _ => true) ({ · with status := st }) fun _ => rfl)
  | updateLifecycleMetadata id st ref rootfs src, t =>
    returning (t.updateKey id (fun _ => true) ({ · with
        status := st, snapshotRef := ref, sharedRootfsRef := rootfs, cloneSourceVmId := src })
      fun _ => rfl)
  | updateRuntimeAddress id ip port, t =>
    returning (t.updateKey id (fun _ => true) ({ · with ipAddress := ip, port := some port })
      fun _ => rfl)
  | softDelete id, t =>
    (.ok (), (t.updateKey id (fun _ => true) ({ · with deletedAt := some now }) fun _ => rfl).2)

inductive VolumeStmt : Type → Type
  | updateStatus (projectId : Id) (status : VolumeStatus) (lastError : String) :
      VolumeStmt ProjectVolume
  | detachVM (projectId : Id) (status : VolumeStatus) (lastError : String) :
      VolumeStmt ProjectVolume
  | assignServer (projectId serverId : Id) : VolumeStmt ProjectVolume
  | attachVM (projectId : Id) (serverId : Option Id) (vmId : Id) : VolumeStmt ProjectVolume

abbrev VolumeTable := Table Id ProjectVolume (·.projectId)

def VolumeStmt.exec : VolumeStmt β → VolumeTable → Except Err β × VolumeTable
  | updateStatus p st e, t =>
    returning (t.updateKey p (·.undeleted) ({ · with status := st, lastError := e }) fun _ => rfl)
  | detachVM p st e, t =>
    returning (t.updateKey p (·.undeleted)
      ({ · with attachedVmId := none, status := st, lastError := e }) fun _ => rfl)
  | assignServer p s, t =>
    returning (t.updateKey p (·.undeleted) ({ · with serverId := some s }) fun _ => rfl)
  | attachVM p s v, t =>
    returning (t.updateKey p (·.undeleted) ({ · with
        serverId := s, attachedVmId := some v, status := .attached, health := .healthy,
        lastError := "" })
      fun _ => rfl)

inductive DomainStmt : Type → Type
  | updateDeploymentForService (deploymentId serviceId : Id) : DomainStmt Unit
  | deleteManagedByServiceID (serviceId : Id) : DomainStmt Unit
  | updateManagedByServiceID (serviceId : Id) (domainName : String) (deploymentId : Id) :
      DomainStmt Domain
  | updateDeploymentForDomainID (id deploymentId : Id) : DomainStmt Unit
  | create (domain : Domain) : DomainStmt Domain

abbrev DomainTable := Table Id Domain (·.id)

def Domain.ofService (s : Id) (d : Domain) : Bool :=
  d.serviceId == some s && (d.kind == .production || d.kind == .serviceManaged)

def Domain.managedBy (s : Id) (d : Domain) : Bool :=
  d.serviceId == some s && d.kind == .serviceManaged

def DomainStmt.exec (now : Time) : DomainStmt β → DomainTable → Except Err β × DomainTable
  | updateDeploymentForService dep s, t =>
    (.ok (), t.updateWhere (Domain.ofService s) ({ · with deploymentId := some dep }) fun _ => rfl)
  | deleteManagedByServiceID s, t => (.ok (), t.keep fun d => !d.managedBy s)
  | updateManagedByServiceID s host dep, t =>
    -- `domain_name` is unique: the new name may not be taken by another row, nor given to two.
    if t.rows.any (fun d => !d.managedBy s && d.domainName == host) ||
        decide (1 < t.rows.countP (Domain.managedBy s)) then
      (.error (.of .uniqueViolation), t)
    else
      let f := fun d : Domain =>
        { d with
          domainName := host, deploymentId := some dep, verificationToken := ""
          verifiedAt := some now }
      returning ((t.rows.find? (Domain.managedBy s)).map f,
        t.updateWhere (Domain.managedBy s) f fun _ => rfl)
  | updateDeploymentForDomainID id dep, t =>
    (.ok (), (t.updateKey id (fun _ => true) ({ · with deploymentId := some dep }) fun _ => rfl).2)
  | create d, t =>
    if t.rows.any (·.domainName == d.domainName) then (.error (.of .uniqueViolation), t)
    else inserting t { d with verifiedAt := some now }

inductive BuildStmt : Type → Type
  | create (build : Build) : BuildStmt Build

def BuildStmt.exec : BuildStmt β → Table Id Build (·.id) → Except Err β × Table Id Build (·.id)
  | create b, t => inserting t b

inductive ServerStmt : Type → Type
  | updateStatus (id : Id) (status : ServerStatus) : ServerStmt Unit

def ServerStmt.exec : ServerStmt β → Table Id Server (·.id) → Except Err β × Table Id Server (·.id)
  | updateStatus id st, t =>
    (.ok (), (t.updateKey id (fun _ => true) ({ · with status := st }) fun _ => rfl).2)

inductive MigrationStmt : Type → Type
  | updateCompleted (id : Id) : MigrationStmt InstanceMigration
  | updateFallbackEvacuating (id : Id) (failureCode : String) : MigrationStmt InstanceMigration

abbrev MigrationTable := Table Id InstanceMigration (·.id)

def MigrationStmt.exec : MigrationStmt β → MigrationTable → Except Err β × MigrationTable
  | updateCompleted id, t =>
    returning (t.updateKey id (fun _ => true) ({ · with state := .completed }) fun _ => rfl)
  | updateFallbackEvacuating id code, t =>
    returning (t.updateKey id (fun _ => true)
      ({ · with state := .fallbackEvacuating, failureCode := code }) fun _ => rfl)

/-! ## Reads -/

inductive Query : Type → Type
  | deploymentFirstByID (id : Id) : Query Deployment
  | deploymentFindRunningAndOlder (projectId id : Id) : Query (List Deployment)
  | projectFirstByID (id : Id) : Query Project
  | serviceFirstByID (id : Id) : Query Service
  | serviceEndpointListByServiceID (serviceId : Id) : Query (List ServiceEndpoint)
  | clusterSettingGet (name : String) : Query String
  | buildFirstByID (id : Id) : Query Build
  | imageFindByID (id : Id) : Query Image
  | environmentVariableFindByProjectID (projectId : Id) : Query (List EnvironmentVariable)
  | environmentVariableFindEffectiveByServiceID (serviceId : Id) :
      Query (List EnvironmentVariable)
  | deploymentInstanceFirstByID (id : Id) : Query DeploymentInstance
  | deploymentInstanceFindByDeploymentID (deploymentId : Id) : Query (List DeploymentInstance)
  | deploymentInstanceActiveCountByServerID (serverId : Id) : Query Nat
  | deploymentInstanceVMIDsByServerID (serverId : Id) : Query (List Id)
  | vmFirstByID (id : Id) : Query Vm
  | serverFindByID (id : Id) : Query Server
  | serverFindAll : Query (List Server)
  | serverFindLeastLoaded : Query Server
  | serverFindDead : Query (List Server)
  | serverComponentStatusFindByServerID (serverId : Id) : Query (List ServerComponentStatus)
  | serverComponentStatusFindAll : Query (List ServerComponentStatus)
  | projectVolumeFindByProjectID (projectId : Id) : Query ProjectVolume
  | projectVolumeFindByServiceID (serviceId : Id) : Query ProjectVolume
  | instanceMigrationFirstByID (id : Id) : Query InstanceMigration
  | previewEnvironmentByID (id : Id) : Query PreviewEnvironment
  | domainManagedByServiceID (serviceId : Id) : Query Domain
  | domainFindByPreviewEnvironmentAndKind (envId : Id) (kind : DomainKind) : Query Domain
  | domainFindByDeploymentIDAndKind (deploymentId : Id) (kind : DomainKind) : Query Domain

/-- The `WHERE` clause of `DeploymentFindRunningAndOlder`. Despite its name it compares neither
the service nor the creation time. -/
def Deployment.runningAndOlder (projectId id : Id) (d : Deployment) : Bool :=
  d.projectId == projectId && d.kind == .production && d.runningAt.isSome && d.live && d.id != id

def World.findRunningAndOlder (w : World) (projectId id : Id) : List Deployment :=
  w.deployments.selectBy (Deployment.runningAndOlder projectId id) (·.createdAt)

/-- The undeleted instances of a deployment, oldest first. -/
def World.instancesOf (w : World) (deploymentId : Id) : List DeploymentInstance :=
  w.instances.selectBy (fun i => i.deploymentId == deploymentId && i.undeleted) (·.createdAt)

/-- The number of live VM rows on a server. -/
def World.vmLoad (w : World) (serverId : Id) : Nat :=
  w.vms.rows.countP fun v => v.serverId == serverId && v.undeleted

def World.leastLoaded (w : World) (now : Time) : Option Server := ((w.servers.rows.filter fun s =>
      s.status == .active && decide (now < s.lastHeartbeatAt + 180 * second)).insertionSort
    fun a b => w.vmLoad a.id < w.vmLoad b.id ∨
      (w.vmLoad a.id = w.vmLoad b.id ∧ b.lastHeartbeatAt ≤ a.lastHeartbeatAt)).head?

def World.effectiveEnv (w : World) (s : Service) : List EnvironmentVariable :=
  let rows := w.envVars.rows.filter fun v =>
    v.projectId == s.projectId && (v.serviceId == some s.id || v.serviceId.isNone)
  (rows.filter fun v => v.serviceId == some s.id ||
      !rows.any fun v' => v'.name == v.name && v'.serviceId == some s.id).insertionSort
    fun a b => a.name ≤ b.name

def Query.eval (now : Time) (w : World) : Query β → Except Err β
  | deploymentFirstByID id => one (w.deployments.find? id)
  | deploymentFindRunningAndOlder p id => .ok (w.findRunningAndOlder p id)
  | projectFirstByID id => one (w.projects.find? id)
  | serviceFirstByID id => one (w.services.find? id)
  | serviceEndpointListByServiceID s =>
    .ok (w.endpoints.selectBy (fun e => e.serviceId == s) (·.createdAt))
  | clusterSettingGet k => one ((w.settings.find? fun p => p.1 == k).map (·.2))
  | buildFirstByID id => one (w.builds.find? id)
  | imageFindByID id => one (w.images.find? id)
  | environmentVariableFindByProjectID p =>
    .ok ((w.envVars.rows.filter fun v => v.projectId == p).insertionSort fun a b => a.name ≤ b.name)
  | environmentVariableFindEffectiveByServiceID s =>
    .ok (match w.services.find? s with
      | some service => w.effectiveEnv service
      | none => [])
  | deploymentInstanceFirstByID id => one (w.instances.find? id)
  | deploymentInstanceFindByDeploymentID d => .ok (w.instancesOf d)
  | deploymentInstanceActiveCountByServerID s =>
    .ok (w.instances.rows.countP fun i =>
      i.serverId == some s && i.undeleted && i.role == .active)
  | deploymentInstanceVMIDsByServerID s =>
    .ok (w.instances.rows.filterMap fun i =>
      if i.serverId == some s && i.undeleted then i.vmId else none)
  | vmFirstByID id => one (w.vms.find? id)
  | serverFindByID id => one (w.servers.find? id)
  | serverFindAll => .ok w.servers.rows
  | serverFindLeastLoaded => one (w.leastLoaded now)
  | serverFindDead =>
    .ok (w.servers.rows.filter fun s =>
      s.status == .active && decide (s.lastHeartbeatAt + 30 * second < now))
  | serverComponentStatusFindByServerID s =>
    .ok (w.componentStatuses.filter fun c => c.serverId == s)
  | serverComponentStatusFindAll => .ok w.componentStatuses
  | projectVolumeFindByProjectID p => one ((w.volumes.find? p).filter (·.undeleted))
  | projectVolumeFindByServiceID s =>
    one (w.volumes.rows.find? fun v => v.serviceId == some s && v.undeleted)
  | instanceMigrationFirstByID id => one (w.migrations.find? id)
  | previewEnvironmentByID id => one (w.previewEnvironments.find? id)
  | domainManagedByServiceID s => one (w.domains.rows.find? (Domain.managedBy s))
  | domainFindByPreviewEnvironmentAndKind e k =>
    one (w.domains.rows.find? fun d => d.previewEnvironmentId == some e && d.kind == k)
  | domainFindByDeploymentIDAndKind dep k =>
    one (w.domains.rows.find? fun d => d.deploymentId == some dep && d.kind == k)

end Kindling
