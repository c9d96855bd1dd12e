import Kindling.Rpc.Domains

/-!
# Views of deployments

The JSON shapes of `internal/rpc/deployments/deployment_out.go`, computed from one state of the
database, and the log stream of `streamDeployment`. Texts that are formatted from shown values
(addresses, URLs, times) are left out, and so are the columns that no other part of the model reads.
-/

namespace Kindling

inductive DeploymentPhase | failed | stopped | running | building | starting | queued | pending
  deriving DecidableEq, Repr

def deploymentPhase (dep : Deployment) (build : Option BuildStatus) : DeploymentPhase :=
  if build = some .failed then .failed
  else if dep.failedAt.isSome then .failed
  else if dep.stoppedAt.isSome then .stopped
  else if dep.runningAt.isSome then .running
  else match build with
    | some .building => .building
    | some .successful => .starting
    | some .pending => .queued
    | _ => .pending

def terminalPhase : DeploymentPhase → Bool
  | .running | .failed | .stopped => true
  | _ => false

/-- The DNS name is built from the names that are kept here. -/
structure DeploymentPrivateEndpointOut where
  endpoint : ServiceEndpoint
  serviceSlug : String
  projectName : String
  envSlug : String
  orgId : Id
  deriving DecidableEq

structure DeploymentReachabilityOut where
  vmIp : Option Nat
  port : Option Nat
  publicEndpoints : List String
  privateEndpoints : List DeploymentPrivateEndpointOut
  deriving DecidableEq

structure DeploymentVolumeOut where
  id : Id
  projectId : Id
  serverId : Option Id
  attachedVmId : Option Id
  mountPath : String
  sizeGb : Int
  status : VolumeStatus
  health : VolumeHealth
  lastError : String
  deriving DecidableEq

structure DeploymentOut where
  id : Id
  projectId : Id
  serviceId : Option Id
  buildId : Option Id
  imageId : Option Id
  vmId : Option Id
  githubCommit : String
  githubBranch : String
  runningAt : Option Time
  stoppedAt : Option Time
  failedAt : Option Time
  wakeRequestedAt : Option Time
  createdAt : Time
  kind : DeploymentKind
  previewEnvironmentId : Option Id
  buildStatus : Option BuildStatus
  phase : DeploymentPhase
  reachable : Option DeploymentReachabilityOut
  canPromoteToProduction : Bool
  /-- The row that `service_name` is taken from. -/
  service : Option Service
  desiredInstanceCount : Int
  minInstanceCount : Int
  maxInstanceCount : Int
  scaledToZero : Bool
  scaleToZeroEnabled : Bool
  persistentVolume : Option DeploymentVolumeOut
  blockedReason : String
  runningInstanceCount : Nat
  deriving DecidableEq

def deploymentVolumeToOut (v : ProjectVolume) : DeploymentVolumeOut where
  id := v.id
  projectId := v.projectId
  serverId := v.serverId
  attachedVmId := v.attachedVmId
  mountPath := v.mountPath
  sizeGb := v.sizeGb
  status := v.status
  health := v.health
  lastError := trimSpace v.lastError

def blockedReason (dep : Deployment) (vol : ProjectVolume) : String :=
  if dep.runningAt.isNone &&
      (vol.status == .unavailable || isProjectVolumeTransitionalStatus vol.status) then
    if trimSpace vol.lastError == "" then "persistent volume is busy" else trimSpace vol.lastError
  else ""

def deploymentDesiredReplicaCount (proj : Project) (service : Option Service) : Int :=
  match service with
  | some s => if s.desiredInstanceCount > 0 then s.desiredInstanceCount else proj.desiredInstanceCount
  | none => proj.desiredInstanceCount

namespace World

def deploymentVolume (w : World) (dep : Deployment) : Option ProjectVolume :=
  (dep.serviceId.bind fun s => w.volumes.rows.find? fun v => v.serviceId == some s && v.undeleted) <|>
    (w.volumes.find? dep.projectId).filter (·.undeleted)

def privateEndpointsForDeployment (w : World) (dep : Deployment) :
    List DeploymentPrivateEndpointOut :=
  match dep.serviceId.bind w.services.find?, w.projects.find? dep.projectId with
  | some service, some project =>
    let pr := (dep.previewEnvironmentId.bind w.previewEnvironments.find?).elim 0 (·.prNumber)
    let envSlug := if dep.kind != .preview then "prod" else if pr > 0 then s!"pr-{pr}" else "preview"
    (w.endpoints.selectBy (·.serviceId == service.id) (·.createdAt)).map fun endpoint =>
      ⟨endpoint, service.slug, project.name, envSlug, project.orgId⟩
  | _, _ => []

def reachability (w : World) (dep : Deployment) : Option DeploymentReachabilityOut :=
  let live (vm : Option Id) := (vm.bind w.vms.find?).filter (·.undeleted)
  let vms := (w.instancesOf dep.id).filterMap fun i => live i.vmId
  let vm := vms.head? <|> live dep.vmId
  let doms := (w.domains.rows.filter fun d =>
    d.deploymentId == some dep.id && d.verifiedAt.isSome).map (·.domainName)
  let privateEndpoints := w.privateEndpointsForDeployment dep
  let port := vm.bind (·.port)
  if doms.isEmpty && port.isNone && privateEndpoints.isEmpty then none
  else some ⟨vm.map (·.ipAddress), port, doms.insertionSort (· ≤ ·), privateEndpoints⟩

def canPromoteToProduction (w : World) (dep : Deployment) : Bool :=
  match dep.serviceId with
  | none => false
  | some s => dep.deletedAt.isNone && dep.failedAt.isNone && dep.kind == .production &&
    dep.runningAt.isSome && (w.latestRunning (·.serviceId == some s)).all (·.id != dep.id)

/-- What `ToOutCtx` and `ListRowToOutCtx` both make of a deployment and the status of its build. -/
def deploymentOut (w : World) (dep : Deployment) (build : Option BuildStatus) : DeploymentOut :=
  let proj := w.projects.find? dep.projectId
  let service := proj.bind fun _ => dep.serviceId.bind w.services.find?
  let vol := w.deploymentVolume dep
  let insts := w.instancesOf dep.id
  { dep with
    githubBranch := if trimSpace dep.githubBranch == "" then "" else dep.githubBranch
    buildStatus := build
    phase := deploymentPhase dep build
    reachable := w.reachability dep
    canPromoteToProduction := w.canPromoteToProduction dep
    service
    desiredInstanceCount := proj.elim 0 (deploymentDesiredReplicaCount · service)
    minInstanceCount := proj.elim 0 (·.minInstanceCount)
    maxInstanceCount := proj.elim 0 (·.maxInstanceCount)
    scaledToZero := proj.any (·.scaledToZero)
    scaleToZeroEnabled := proj.any (·.scaleToZeroEnabled)
    persistentVolume := vol.map deploymentVolumeToOut
    blockedReason := vol.elim "" (blockedReason dep)
    runningInstanceCount := insts.countP fun i => i.status == .running && i.vmId.isSome
    vmId := dep.vmId <|> insts.findSome? (·.vmId) }

def toOutCtx (w : World) (dep : Deployment) : DeploymentOut :=
  w.deploymentOut dep ((dep.buildId.bind w.builds.find?).map (·.status))

end World

/-- A row of `DeploymentFindRecentWithProjectForOrg`. -/
structure DeploymentListRow extends Deployment where
  projectName : String
  buildStatus : Option BuildStatus

structure DeploymentListItemOut where
  out : DeploymentOut
  projectName : String
  deriving DecidableEq

namespace World

def deploymentFindRecentWithProjectForOrg (w : World) (limit : Nat) (orgId : Id) :
    List DeploymentListRow :=
  ((w.deployments.selectBy (·.deletedAt.isNone) (·.createdAt)).reverse.filterMap fun d =>
    ((w.projects.find? d.projectId).filter (·.orgId == orgId)).map fun p =>
      { d with projectName := p.name, buildStatus := (d.buildId.bind w.builds.find?).map (·.status) }
  ).take limit

def listRowToOutCtx (w : World) (row : DeploymentListRow) : DeploymentListItemOut where
  out := w.deploymentOut row.toDeployment (row.buildId.map fun _ => row.buildStatus.getD .pending)
  projectName := row.projectName

/-- The columns of a row are copied one by one, and `service_id` is not among them. -/
def listRowForOrgToOutCtx (w : World) (row : DeploymentListRow) : DeploymentListItemOut :=
  w.listRowToOutCtx { row with serviceId := none }

end World

structure BuildLog where
  id : Id
  buildId : Id
  message : String := ""
  createdAt : Time
  deriving DecidableEq

abbrev BuildLogTable := Table Id BuildLog (·.id)

def BuildLogTable.byBuildID (t : BuildLogTable) (b : Id) : List BuildLog :=
  t.selectBy (·.buildId == b) (·.createdAt)

def BuildLogTable.afterCreatedAt (t : BuildLogTable) (b : Id) (ts : Time) : List BuildLog :=
  t.selectBy (fun l => l.buildId == b && decide (ts < l.createdAt)) (·.createdAt)

/-- What a round of the stream meets: whether the deployment is found, what is read of it, whether
the query of the logs succeeds, and whether the events reach the client. -/
structure StreamTick where
  found : Bool := true
  buildId : Option Id
  phase : DeploymentPhase
  fetched : Bool := true
  connected : Bool := true
  deriving DecidableEq

structure LogStream where
  lastLogTS : Option Time := none
  delivered : List BuildLog := []
  live : Bool := true

def LogStream.newLogs (s : LogStream) (t : BuildLogTable) (tick : StreamTick) : List BuildLog :=
  match tick.buildId, s.lastLogTS with
  | some b, some ts => if tick.fetched then t.afterCreatedAt b ts else []
  | some b, none => if tick.fetched then t.byBuildID b else []
  | none, _ => []

/-- A round of `streamDeployment`: the one before the loop, which has no time of a last line, or one
of the loop. -/
def LogStream.poll (s : LogStream) (t : BuildLogTable) (tick : StreamTick) : LogStream :=
  if !s.live then s
  else if !tick.found || !tick.connected then { s with live := false }
  else
    { lastLogTS := ((s.newLogs t tick).getLast?.map (·.createdAt)) <|> s.lastLogTS
      delivered := s.delivered ++ s.newLogs t tick
      live := !terminalPhase tick.phase }

end Kindling
