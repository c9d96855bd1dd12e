import Kindling.Deploy.Effects

/-!
# Project volumes

`internal/deploy/project_volumes.go`: which volume a deployment uses, on which server it lives,
and how it is attached to and detached from VMs.
-/

namespace Kindling

open Fallible

def projectVolumeServerStatusMessage (serverId : Id) (status : ServerStatus) : String :=
  "pinned server " ++ toString serverId ++ " is " ++ status.text

def isProjectVolumeUnavailableError (e : Err) : Bool :=
  match e.root with
  | .volumeUnavailable _ => true
  | _ => false

def reconcileRetryInterval : Time := 5 * second

def volumeUnavailableRetryDelay : Time := 30 * second

def projectVolumeRetryDelay (e : Err) : Time :=
  if isProjectVolumeUnavailableError e then volumeUnavailableRetryDelay else reconcileRetryInterval

def persistentVolumeMountFromRow (vol : ProjectVolume) : PersistentVolumeMount :=
  { id := vol.id, createIfMissing := vol.health == .unknown }

def volumeQuery (dep : Deployment) : Query ProjectVolume :=
  match dep.serviceId with
  | some s => .projectVolumeFindByServiceID s
  | none => .projectVolumeFindByProjectID dep.projectId

def transitionalMessage (vol : ProjectVolume) : String :=
  let msg := trimSpace vol.lastError
  if msg == "" then "project volume is " ++ vol.status.text else msg

def projectVolumeForDeployment [Reads E] (dep : Deployment) : Go E (Option ProjectVolume) := do
  match ← attempt (query (volumeQuery dep)) with
  | .error e => if e.isNoRows then pure none else throw e
  | .ok vol =>
    if isProjectVolumeTransitionalStatus vol.status then
      throw (.of (.volumeUnavailable (transitionalMessage vol)))
    else pure (some vol)

/-- Mark the volume unavailable, detaching it when it is attached. Always ends in an error. -/
def markProjectVolumeUnavailable (projectId : Id) (message : String) : Go Op ProjectVolume := do
  let message := trimSpace message
  let vol ← query (.projectVolumeFindByProjectID projectId)
  if vol.attachedVmId.isSome then
    let _ ← volumeStmt (.detachVM projectId .unavailable message)
  else
    let _ ← volumeStmt (.updateStatus projectId .unavailable message)
  throw (.of (.volumeUnavailable message))

def serverSupportsCloudHypervisor (serverId : Id) : Go Op Bool := do
  match ← attempt (query (.serverComponentStatusFindByServerID serverId)) with
  | .error _ => pure false
  | .ok rows => pure (rows.any fun r => r.worker && r.healthy && r.runtime == some .cloudHypervisor)

/-- The runtime a server last advertised, among the healthy worker heartbeats. -/
def runtimeByServer (statuses : List ServerComponentStatus) (serverId : Id) : Option RuntimeName :=
  ((statuses.filter fun r =>
    r.worker && r.healthy && r.serverId == serverId && r.runtime.isSome).getLast?).bind (·.runtime)

def volumeServerEligible (statuses : List ServerComponentStatus) (now : Time) (s : Server) : Bool :=
  s.status == .active && decide (now ≤ s.lastHeartbeatAt + 180 * second) &&
    runtimeByServer statuses s.id == some .cloudHypervisor

def loadCandidates : List Server → Go Op (List (Server × Nat))
  | [] => pure []
  | s :: rest => do
    let load ← query (.deploymentInstanceActiveCountByServerID s.id)
    let candidates ← loadCandidates rest
    pure ((s, load) :: candidates)

/-- Lower load first, then the later heartbeat, then the host name. -/
def candidateBefore (a b : Server × Nat) : Prop :=
  a.2 < b.2 ∨ (a.2 = b.2 ∧ (b.1.lastHeartbeatAt < a.1.lastHeartbeatAt ∨
    (a.1.lastHeartbeatAt = b.1.lastHeartbeatAt ∧ a.1.hostname ≤ b.1.hostname)))

instance : DecidableRel candidateBefore := fun a b => by
  unfold candidateBefore
  infer_instance

def findLeastLoadedCloudHypervisorServer : Go Op Server := do
  let servers ← query .serverFindAll
  let statuses ← query .serverComponentStatusFindAll
  let now ← ofTotal .now
  let candidates ← loadCandidates (servers.filter (volumeServerEligible statuses now))
  match (candidates.insertionSort candidateBefore).head? with
  | none => throw (.of .noRows)
  | some c => pure c.1

/-- A volume that is already pinned: its server must be an active Cloud Hypervisor worker. -/
def checkPinnedServer (vol : ProjectVolume) (serverId : Id) : Go Op ProjectVolume := do
  match ← attempt (query (.serverFindByID serverId)) with
  | .error e => markProjectVolumeUnavailable vol.projectId ("pinned server lookup failed: " ++ e.text)
  | .ok srv =>
    if srv.status ≠ .active then
      markProjectVolumeUnavailable vol.projectId (projectVolumeServerStatusMessage srv.id srv.status)
    else if !(← serverSupportsCloudHypervisor srv.id) then
      markProjectVolumeUnavailable vol.projectId
        ("pinned server " ++ toString srv.id ++ " is not a cloud-hypervisor worker")
    else if vol.status == .unavailable && vol.attachedVmId.isNone then
      match ← attempt (volumeStmt (.updateStatus vol.projectId .available "")) with
      | .ok updated => pure updated
      | .error _ => pure vol
    else pure vol

def ensureProjectVolumeServer (vol : ProjectVolume) : Go Op ProjectVolume := do
  match vol.serverId with
  | some serverId => checkPinnedServer vol serverId
  | none =>
    match ← attempt findLeastLoadedCloudHypervisorServer with
    | .error _ =>
      markProjectVolumeUnavailable vol.projectId "no active cloud-hypervisor worker is available"
    | .ok srv =>
      let _ ← volumeStmt (.assignServer vol.projectId srv.id)
      volumeStmt (.updateStatus vol.projectId .available "")

def detachProjectVolumeIfAttached (projectId vmId : Id) (status : VolumeStatus)
    (lastError : String) : Go Op Unit := do
  match ← attempt (query (.projectVolumeFindByProjectID projectId)) with
  | .error e => if e.isNoRows then pure () else throw (e.wrap "find project volume")
  | .ok vol =>
    if vol.attachedVmId ≠ some vmId then pure ()
    else
      let _ ← context "detach volume" (volumeStmt (.detachVM projectId status lastError))

def detachProjectVolumeForInstance (inst : DeploymentInstance) (status : VolumeStatus)
    (lastError : String) : Go Op Unit := do
  match inst.vmId with
  | none => pure ()
  | some vmId =>
    let dep ← context "fetch deployment for volume detach"
      (query (.deploymentFirstByID inst.deploymentId))
    detachProjectVolumeIfAttached dep.projectId vmId status lastError

/-- Mark the volume of the instance's project unavailable, when the volume is pinned to the
instance's server. The result says whether it was. -/
def markProjectVolumeUnavailableForInstance (inst : DeploymentInstance)
    (serverStatus : ServerStatus) : Go Op Bool := do
  match inst.serverId with
  | none => pure false
  | some serverId =>
    let dep ← query (.deploymentFirstByID inst.deploymentId)
    match ← attempt (query (.projectVolumeFindByProjectID dep.projectId)) with
    | .error e => if e.isNoRows then pure false else throw e
    | .ok vol =>
      if vol.serverId ≠ some serverId then pure false
      else
        let _ ← markProjectVolumeUnavailable dep.projectId
          (projectVolumeServerStatusMessage serverId serverStatus)
        pure true

end Kindling
