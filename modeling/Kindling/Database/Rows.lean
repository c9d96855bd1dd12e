import Kindling.Lib.Table

/-!
# Rows of the control-plane database

The tables of `internal/database/schema.sql` that the deployment, migration and volume
reconcilers read and write, with the columns those functions use. A nullable column is an
`Option`, a column with a `CHECK (… IN …)` is an inductive type. `updated_at` is left out: no
modelled function reads it.
-/

namespace Kindling

/-- A UUID. Only equality of identifiers matters. -/
abbrev Id := Nat

/-- A point in time, in nanoseconds. -/
abbrev Time := Nat

def second : Time := 1000000000

inductive DeploymentKind | production | preview
  deriving DecidableEq, Repr

inductive InstanceRole | active | warmPool | template
  deriving DecidableEq, Repr

inductive InstanceStatus | pending | starting | running | failed | stopped
  deriving DecidableEq, Repr

inductive VmStatus
  | pending | starting | running | stopped | failed | suspending | suspended | warming | template
  deriving DecidableEq, Repr

inductive ServerStatus | active | draining | drained | dead
  deriving DecidableEq, Repr

inductive VolumeStatus
  | detached | available | attached | unavailable | backingUp | restoring | repairing | deleting
  deriving DecidableEq, Repr

inductive VolumeHealth | unknown | healthy | degraded | missing | corrupt
  deriving DecidableEq, Repr

inductive BackupSchedule | off | manual | daily | weekly
  deriving DecidableEq, Repr

inductive DomainKind | production | serviceManaged | previewStable | previewImmutable
  deriving DecidableEq, Repr

inductive BuildStatus | pending | building | successful | failed
  deriving DecidableEq, Repr

inductive MigrationState
  | pending | destinationPrepared | sending | received | completed | failed | aborted
  | fallbackEvacuating
  deriving DecidableEq, Repr

inductive Protocol | http | tcp
  deriving DecidableEq, Repr

inductive Visibility | privateOnly | publicOpen
  deriving DecidableEq, Repr

/-- The names of the runtimes (`Runtime.Name`). -/
inductive RuntimeName | crun | cloudHypervisor | appleVz
  deriving DecidableEq, Repr

/-! ## Rows -/

structure Project where
  id : Id
  orgId : Id := 0
  name : String := ""
  githubRepository : String := ""
  rootDirectory : String := ""
  dockerfilePath : String := "Dockerfile"
  desiredInstanceCount : Int := 1
  minInstanceCount : Int := 0
  maxInstanceCount : Int := 3
  lastRequestAt : Option Time := none
  scaledToZero : Bool := false
  scaleToZeroEnabled : Bool := false
  githubWebhookSecret : String := ""
  deriving DecidableEq, Repr

structure Service where
  id : Id
  projectId : Id
  slug : String := ""
  isPrimary : Bool := false
  rootDirectory : String := "/"
  dockerfilePath : String := "Dockerfile"
  desiredInstanceCount : Int := 1
  buildOnlyOnRootChanges : Bool := false
  deriving DecidableEq, Repr

structure ServiceEndpoint where
  id : Id
  serviceId : Id
  protocol : Protocol := .http
  visibility : Visibility := .privateOnly
  createdAt : Time := 0
  name : String := ""
  deriving DecidableEq, Repr

structure EnvironmentVariable where
  id : Id
  projectId : Id
  serviceId : Option Id := none
  name : String
  value : String
  deriving DecidableEq, Repr

structure Build where
  id : Id
  projectId : Id
  serviceId : Option Id := none
  status : BuildStatus := .pending
  githubCommit : String := ""
  githubBranch : String := ""
  imageId : Option Id := none
  vmId : Option Id := none
  processingBy : Option Id := none
  buildingAt : Option Time := none
  failedAt : Option Time := none
  updatedAt : Time := 0
  deriving DecidableEq, Repr

structure Image where
  id : Id
  registry : String := ""
  repository : String := ""
  tag : String := ""
  deriving DecidableEq, Repr

structure Server where
  id : Id
  hostname : String := ""
  internalIp : String := ""
  status : ServerStatus := .active
  lastHeartbeatAt : Time := 0
  deriving DecidableEq, Repr

/-- A heartbeat row of `server_component_statuses`. `worker` and `healthy` are the comparisons of
`component` and `status` that the code makes; `runtime` is the `runtime` entry of the JSON
metadata, when the metadata parses and the entry is a string naming a runtime; the fields after it
are entries of the same metadata. -/
structure ServerComponentStatus where
  serverId : Id
  worker : Bool
  healthy : Bool
  runtime : Option RuntimeName := none
  liveMigrationEnabled : Bool := false
  cloudHypervisorVersion : String := ""
  sharedRootfsDir : String := ""
  deriving DecidableEq, Repr

structure Deployment where
  id : Id
  projectId : Id
  serviceId : Option Id := none
  buildId : Option Id := none
  imageId : Option Id := none
  vmId : Option Id := none
  githubCommit : String := ""
  githubBranch : String := ""
  kind : DeploymentKind := .production
  previewEnvironmentId : Option Id := none
  previewScaledToZero : Bool := false
  previewLastRequestAt : Option Time := none
  circuitBroken : Bool := false
  runningAt : Option Time := none
  stoppedAt : Option Time := none
  failedAt : Option Time := none
  deletedAt : Option Time := none
  wakeRequestedAt : Option Time := none
  createdAt : Time := 0
  deriving DecidableEq, Repr

structure DeploymentInstance where
  id : Id
  deploymentId : Id
  serverId : Option Id := none
  vmId : Option Id := none
  role : InstanceRole := .active
  status : InstanceStatus := .pending
  restartCount : Nat := 0
  lastRestartAt : Option Time := none
  deletedAt : Option Time := none
  createdAt : Time := 0
  deriving DecidableEq, Repr

structure Vm where
  id : Id
  serverId : Id
  imageId : Id
  status : VmStatus := .pending
  runtime : RuntimeName := .crun
  snapshotRef : Option String := none
  sharedRootfsRef : String := ""
  cloneSourceVmId : Option Id := none
  /-- An IPv4 address as a number; an IPv6 address is a number from `2 ^ 32` on. -/
  ipAddress : Nat := 0
  port : Option Nat := some 3000
  envVariables : List String := []
  deletedAt : Option Time := none
  createdAt : Time := 0
  deriving DecidableEq, Repr

structure ProjectVolume where
  id : Id
  projectId : Id
  serviceId : Option Id := none
  serverId : Option Id := none
  attachedVmId : Option Id := none
  status : VolumeStatus := .detached
  health : VolumeHealth := .unknown
  lastError : String := ""
  deletedAt : Option Time := none
  mountPath : String := "/data"
  sizeGb : Int := 5
  backupSchedule : BackupSchedule := .manual
  backupRetentionCount : Nat := 7
  preDeleteBackupEnabled : Bool := false
  deriving DecidableEq, Repr

structure PreviewEnvironment where
  id : Id
  /-- A `pr_number` that is not positive counts as 0. -/
  prNumber : Nat := 0
  projectId : Id := 0
  serviceId : Option Id := none
  headBranch : String := ""
  headSha : String := ""
  latestDeploymentId : Option Id := none
  stableDomainName : String := ""
  closedAt : Option Time := none
  expiresAt : Option Time := none
  deriving DecidableEq, Repr

structure Domain where
  id : Id
  projectId : Id
  serviceId : Option Id := none
  deploymentId : Option Id := none
  domainName : String
  kind : DomainKind := .production
  verificationToken : String := ""
  verifiedAt : Option Time := none
  previewEnvironmentId : Option Id := none
  deriving DecidableEq, Repr

/-- A live migration of an instance. -/
structure InstanceMigration where
  id : Id
  deploymentInstanceId : Id
  sourceServerId : Id
  destinationServerId : Id
  sourceVmId : Id
  state : MigrationState := .pending
  receiveAddr : String := ""
  failureCode : String := ""
  cutoverDeadlineAt : Option Time := none
  deriving DecidableEq, Repr

/-- `deleted_at`, `failed_at` and `stopped_at` are all unset. -/
def Deployment.live (d : Deployment) : Bool :=
  d.deletedAt.isNone && d.failedAt.isNone && d.stoppedAt.isNone

def DeploymentInstance.undeleted (i : DeploymentInstance) : Bool := i.deletedAt.isNone

def Vm.undeleted (v : Vm) : Bool := v.deletedAt.isNone

def ProjectVolume.undeleted (v : ProjectVolume) : Bool := v.deletedAt.isNone

/-- An instance held by the runtime of a server, with the volume it was started with. -/
structure Guest where
  server : Id
  inst : Id
  volume : Option Id := none
  deriving DecidableEq, Repr

/-- The shared database together with what the runtime of each server holds. -/
structure World where
  projects : Table Id Project (·.id) := .empty
  services : Table Id Service (·.id) := .empty
  endpoints : Table Id ServiceEndpoint (·.id) := .empty
  envVars : Table Id EnvironmentVariable (·.id) := .empty
  settings : List (String × String) := []
  builds : Table Id Build (·.id) := .empty
  images : Table Id Image (·.id) := .empty
  servers : Table Id Server (·.id) := .empty
  componentStatuses : List ServerComponentStatus := []
  deployments : Table Id Deployment (·.id) := .empty
  instances : Table Id DeploymentInstance (·.id) := .empty
  vms : Table Id Vm (·.id) := .empty
  /-- `project_id` is `UNIQUE` in `project_volumes`. -/
  volumes : Table Id ProjectVolume (·.projectId) := .empty
  previewEnvironments : Table Id PreviewEnvironment (·.id) := .empty
  domains : Table Id Domain (·.id) := .empty
  migrations : Table Id InstanceMigration (·.id) := .empty
  /-- Instances registered as running in a server's runtime. -/
  running : List Guest := []
  /-- Instances whose state a server's runtime retains after a suspend. -/
  suspended : List Guest := []
  /-- Retries requested from the deployment scheduler, with their delay. -/
  retries : List (Id × Time) := []
  /-- Servers whose reconciler has been asked to run. -/
  serverWakeups : List Id := []
  deriving Inhabited

namespace World

@[simps] def withDeployments (t : Table Id Deployment (·.id)) (w : World) : World :=
  { w with deployments := t }

@[simps] def withInstances (t : Table Id DeploymentInstance (·.id)) (w : World) : World :=
  { w with instances := t }

@[simps] def withVms (t : Table Id Vm (·.id)) (w : World) : World := { w with vms := t }

@[simps] def withVolumes (t : Table Id ProjectVolume (·.projectId)) (w : World) : World :=
  { w with volumes := t }

@[simps] def withDomains (t : Table Id Domain (·.id)) (w : World) : World := { w with domains := t }

@[simps] def withBuilds (t : Table Id Build (·.id)) (w : World) : World := { w with builds := t }

@[simps] def withServers (t : Table Id Server (·.id)) (w : World) : World := { w with servers := t }

@[simps] def withMigrations (t : Table Id InstanceMigration (·.id)) (w : World) : World :=
  { w with migrations := t }

end World

end Kindling
