import Kindling.Deploy.Routes
import Kindling.Deploy.Scaling

/-!
# The deployment reconciler

`internal/deploy/deploy.go` and `deploy_build.go`: one pass over one deployment, from its build to
its promotion.
-/

namespace Kindling

open Fallible

def projectSecretEnvelopePrefix : String := "enc:v1:"

def isEncryptedProjectSecretValue (stored : String) : Bool :=
  projectSecretEnvelopePrefix.toList.isPrefixOf stored.toList

def decodeValue (decoder : Option (String → Except String String)) (ev : EnvironmentVariable) :
    Except Err String :=
  match decoder with
  | some decode =>
    (decode ev.value).mapError fun m => (Err.of (.message m)).wrap ("decrypt project secret " ++ ev.name)
  | none =>
    if isEncryptedProjectSecretValue ev.value then
      .error (.of (.message ("decrypt project secret " ++ ev.name ++ ": no secret decoder configured")))
    else .ok ev.value

def buildRuntimeEnv (envVars : List EnvironmentVariable)
    (decoder : Option (String → Except String String)) : Except Err (List String) :=
  envVars.mapM fun ev => do
    let value ← decodeValue decoder ev
    return ev.name ++ "=" ++ value

/-- What one pass has resolved about its deployment. -/
structure ReconcileContext where
  dep : Deployment
  proj : Project
  service : Option Service
  desired : Int
  persistentVolume : Option PersistentVolumeMount
  imageRef : String := ""
  env : List String := []

def buildPollRetryInterval : Time := 10 * second

def buildStmt (s : BuildStmt β) : Pass β := ofCall (.builds s)

/-- Create or check the build. The flag says that the pass is over. -/
def ensureBuild (dep : Deployment) : Pass (Deployment × Bool) := do
  match dep.buildId with
  | none =>
    let id ← ofTotal .newUUID
    let build ← context "create build" (buildStmt (.create
        { id, projectId := dep.projectId, serviceId := dep.serviceId
          githubCommit := dep.githubCommit
          githubBranch :=
            if trimSpace dep.githubBranch == "" then "main" else trimSpace dep.githubBranch }))
    let dep ← context "update deployment build" (deploymentStmt (.updateBuild dep.id build.id))
    return (dep, true)
  | some buildId =>
    let build ← context "fetch build" (query (.buildFirstByID buildId))
    if build.failedAt.isSome then
      deploymentStmt (.updateFailedAt dep.id)
      return (dep, true)
    if build.imageId.isNone then
      scheduleRetry dep.id buildPollRetryInterval
      return (dep, true)
    return (dep, false)

/-- A read by a nullable column: null matches no row. -/
def queryBy (q : Id → Query β) (id : Option Id) : Pass β :=
  match id with
  | some id => query (q id)
  | none => throw (.of .noRows)

def syncDeploymentImage (dep : Deployment) : Pass Deployment := do
  let build ← context "fetch build" (queryBy Query.buildFirstByID dep.buildId)
  if dep.imageId ≠ build.imageId then
    context "update deployment image" (deploymentStmt (.updateImage dep.id build.imageId))
  else return dep

def effectiveEnvVars (rc : ReconcileContext) : Pass (List EnvironmentVariable) :=
  match rc.service with
  | some s =>
    context "fetch service env vars" (query (.environmentVariableFindEffectiveByServiceID s.id))
  | none => context "fetch env vars" (query (.environmentVariableFindByProjectID rc.dep.projectId))

def prepareImageAndEnv (d : Deployer) (rc : ReconcileContext) : Pass ReconcileContext := do
  let image ← context "fetch image" (queryBy Query.imageFindByID rc.dep.imageId)
  let envVars ← effectiveEnvVars rc
  let env ← context "build runtime env" (ofResult (buildRuntimeEnv envVars d.secretDecoder))
  return { rc with
    imageRef := image.registry ++ "/" ++ image.repository ++ ":" ++ image.tag, env }

def cleanupDeploymentAllInstances (d : Deployer) (deploymentId : Id) : Pass Unit := do
  let .ok instList ← attempt (listInstances deploymentId) | return ()
  forEach instList fun inst => act (.deleteInstancePermanently d inst)

def softDeleteLegacyVM (dep : Deployment) : Pass Unit :=
  match dep.vmId with
  | some vmId => discard (ofCall (.vmSoftDelete vmId))
  | none => pure ()

/-- One iteration of `drainOldDeployments`. -/
def drainDeployment (d : Deployer) (old : Deployment) : Pass Unit := do
  cleanupDeploymentAllInstances d old.id
  softDeleteLegacyVM old
  discard (deploymentStmt (.markStopped old.id))

def drainOldDeployments (d : Deployer) (current : Deployment) : Pass Unit := do
  let .ok old ← attempt
    (query (.deploymentFindRunningAndOlder current.projectId current.id)) | return ()
  forEach old (drainDeployment d)

/-- One iteration of `stopOldDeploymentsForVolume`. -/
def stopDeploymentForVolume (d : Deployer) (old : Deployment) : Pass Unit := do
  let instList ← listInstances old.id
  forEach instList fun inst => act (.deleteInstancePermanently d inst)
  softDeleteLegacyVM old
  deploymentStmt (.markStopped old.id)

/-- Stop the running deployments that may hold the volume. The result says whether there were
any. -/
def stopOldDeploymentsForVolume (d : Deployer) (current : Deployment) : Pass Bool := do
  let old ← query (.deploymentFindRunningAndOlder current.projectId current.id)
  if old.isEmpty then return false
  forEach old (stopDeploymentForVolume d)
  return true

/-- Make sure that the volume's server is ready. The flag says that the pass is over. -/
def resolveProjectVolume (d : Deployer) (dep : Deployment) (projectVolume : Option ProjectVolume) :
    Pass (Option PersistentVolumeMount × Bool) := do
  let some vol := projectVolume | return (none, false)
  match ← attempt (perform (.ensureProjectVolumeServer vol)) with
  | .error e =>
    scheduleRetry dep.id (projectVolumeRetryDelay e)
    return (none, true)
  | .ok resolved =>
    if dep.kind = .production ∧ dep.runningAt = none then
      if ← context "stop old deployments for volume" (stopOldDeploymentsForVolume d dep) then
        scheduleRetry dep.id reconcileRetryInterval
        return (none, true)
    return (some (persistentVolumeMountFromRow resolved), false)

def previewVolumeMessage : String := "persistent volumes are not supported for preview deployments"

def failPreviewVolumeDeployment (dep : Deployment) : Pass Unit := do
  discard (volumeStmt (.updateStatus dep.projectId .unavailable previewVolumeMessage))
  if dep.failedAt.isNone then discard (deploymentStmt (.updateFailedAt dep.id))

def reconcileTerminalDeployment (d : Deployer) (dep : Deployment) : Pass Unit := do
  cleanupDeploymentAllInstances d dep.id
  let some vmId := dep.vmId | return ()
  let .ok vm ← attempt (query (.vmFirstByID vmId)) | return ()
  if vm.deletedAt.isNone then discard (ofCall (.vmSoftDelete vmId))

def isRunningInstanceHealthy (d : Deployer) (inst : DeploymentInstance) : Pass Bool := do
  let some vmId := inst.vmId | return false
  let .ok vm ← attempt (query (.vmFirstByID vmId)) | return false
  let hostHealthCheckOK ← optionalHostHealthCheck d
  let localOK ← localRuntimeHealthy d inst
  return shouldTreatRunningInstanceAsHealthy inst vm d.rtName hostHealthCheckOK d.serverId localOK

/-- The restart part of `reconcileOneInstance`: within the budget, reset, place and start the
instance; beyond it, trip the circuit breaker. -/
def restartInstance (d : Deployer) (rc : ReconcileContext) (templateRef : String)
    (templateSourceVmId : Option Id) (inst : DeploymentInstance) : Pass Unit := do
  if restartBudgetExceeded inst false (← ofTotal .now) then
    discard (deploymentStmt (.circuitBreak rc.dep.id))
    return ()
  let inst ← perform (.resetStaleInstance d rc.dep inst rc.persistentVolume)
  let inst ← perform (.assignServerIfNeeded rc.dep inst rc.persistentVolume)
  if inst.serverId ≠ some d.serverId then return ()
  perform (.startNewInstance d rc.dep inst rc.imageRef rc.env templateRef templateSourceVmId
    rc.persistentVolume)

def reconcileOneInstance (d : Deployer) (rc : ReconcileContext) (templateRef : String)
    (templateSourceVmId : Option Id) (inst : DeploymentInstance) : Pass Unit := do
  if inst.role = .template then return ()
  if rc.dep.circuitBroken then return ()
  let inst ← perform (.reconcileInstanceServerAssignment d rc.dep inst rc.persistentVolume)
  if inst.vmId.isSome then
    if ← perform (.tryResumeFromSuspended d rc.dep inst rc.persistentVolume) then return ()
  if inst.status = .running ∧ inst.vmId.isSome = true then
    if ← isRunningInstanceHealthy d inst then return ()
  restartInstance d rc templateRef templateSourceVmId inst

def provisionSurge (d : Deployer) (deploymentId : Id) (desired surgeTarget : Int) :
    Pass (List DeploymentInstance) := do
  context "ensure instance count" (perform (.ensureInstanceCountUp d deploymentId surgeTarget))
  let instList ← context "list deployment instances" (listInstances deploymentId)
  context "activate warm pool instances" (activateWarmPoolInstances instList desired)

/-- The template to clone from; volumes are never cloned. -/
def cloneTemplate (d : Deployer) (rc : ReconcileContext) (instList : List DeploymentInstance) :
    Pass (String × Option Id) := do
  let template ← templateSourceForDeployment d rc.dep.imageId instList
  return if rc.persistentVolume.isSome then ("", none) else template

/-- Scale to the surge target, then reconcile each instance. The result is `false` when the pass is
over (a retry is scheduled). -/
def surgeAndReconcile (d : Deployer) (rc : ReconcileContext) (instList : List DeploymentInstance) :
    Pass Bool := do
  let statusMap ← context "load server statuses" (serverStatusByIDs instList [])
  let onDraining := countInstancesOnDrainingServers instList statusMap
  let surgeTarget := rc.desired + onDraining
  let _ ← context "scale down excess" (scaleDownExcess d rc.dep.id instList surgeTarget statusMap)
  let instList ← provisionSurge d rc.dep.id rc.desired surgeTarget
  let (templateRef, templateSourceVmId) ← cloneTemplate d rc instList
  match ← attempt (forEach instList (reconcileOneInstance d rc templateRef templateSourceVmId)) with
  | .error _ =>
    scheduleRetry rc.dep.id reconcileRetryInterval
    return false
  | .ok _ => return true

def retireReplaced (d : Deployer) (rc : ReconcileContext) (instList : List DeploymentInstance)
    (statusMap : List (Id × ServerStatus)) :
    Pass (List DeploymentInstance × List (Id × ServerStatus)) := do
  let ready ← countReadyOffDrainingServers d statusMap instList
  if rc.desired ≤ ready ∧ countInstancesOnDrainingServers instList statusMap > 0 then
    let instList ← context "remove draining instances"
      (removeInstancesOnDrainingServers d rc.dep.id instList statusMap rc.desired)
    let statusMap ← context "load server statuses" (serverStatusByIDs instList [])
    return (instList, statusMap)
  else return (instList, statusMap)

/-- Retire what draining servers hold; when they hold nothing, remove the instances in excess. -/
def retireDrainingInstances (d : Deployer) (rc : ReconcileContext) : Pass Unit := do
  let instList ← context "list deployment instances" (listInstances rc.dep.id)
  let statusMap ← context "load server statuses" (serverStatusByIDs instList [])
  let (instList, statusMap) ← retireReplaced d rc instList statusMap
  if countInstancesOnDrainingServers instList statusMap = 0 ∧
      rc.desired < activeInstanceCount instList then
    let _ ← context "scale down excess instances"
      (scaleDownExcess d rc.dep.id instList rc.desired statusMap)

/-- Everything `reconcileInstances` does before the promotion. The result is the number of ready
instances, or `none` when the pass is over. -/
def convergeInstances (d : Deployer) (rc : ReconcileContext) : Pass (Option Nat) := do
  let instList ← context "list deployment instances" (listInstances rc.dep.id)
  repairInstancesOnBadServers d instList
  let instList ← context "list deployment instances" (listInstances rc.dep.id)
  if rc.desired = 0 then
    context "scale down instances" (scaleDownInstances d instList 0)
    return some 0
  if !(← surgeAndReconcile d rc instList) then return none
  retireDrainingInstances d rc
  let instList ← context "list deployment instances" (listInstances rc.dep.id)
  let ready ← countInstancesReady d instList
  if (ready : Int) < rc.desired then
    scheduleRetry rc.dep.id reconcileRetryInterval
    return none
  if rc.dep.wakeRequestedAt.isSome then
    context "clear wake" (deploymentStmt (.clearWakeRequested rc.dep.id))
  return some ready

def routeAndDrain (d : Deployer) (rc : ReconcileContext) : Pass Unit := do
  match rc.dep.kind with
  | .preview => context "preview routes" (ensurePreviewRoutes rc.dep rc.proj)
  | .production =>
    context "production routes" (ensureProductionRoutes rc.dep rc.proj rc.service)
    drainOldDeployments d rc.dep

/-- Mark the deployment running and reset its circuit breaker, then switch the traffic to it. -/
def promoteDeployment (d : Deployer) (rc : ReconcileContext) : Pass Unit := do
  if rc.dep.runningAt.isSome then return ()
  context "mark running" (deploymentStmt (.markRunning rc.dep.id))
  discard (deploymentStmt (.resetCircuit rc.dep.id))
  routeAndDrain d rc

def reconcileInstances (d : Deployer) (rc : ReconcileContext) : Pass Unit := do
  let some _ ← convergeInstances d rc | return ()
  promoteDeployment d rc

/-- What a pass over a live deployment resolves before it touches instances; `none` when the pass
is over. -/
def resolveContext (d : Deployer) (rc : ReconcileContext) (projectVolume : Option ProjectVolume) :
    Pass (Option ReconcileContext) := do
  let (dep, done) ← ensureBuild rc.dep
  if done then return none
  let (persistentVolume, done) ← resolveProjectVolume d dep projectVolume
  if done then return none
  let dep ← syncDeploymentImage dep
  if d.rt.isNone then throw (.of (.message "no runtime configured"))
  let rc ← prepareImageAndEnv d { rc with dep, persistentVolume }
  return some rc

def fetchService (dep : Deployment) : Pass (Option Service) :=
  match dep.serviceId with
  | none => pure none
  | some s => do
    let service ← context "fetch service" (query (.serviceFirstByID s))
    return some service

/-- The deployment, its project and service, the desired replica count and the volume. A deployment
with a volume has at most one replica. -/
def fetchContext (deploymentId : Id) : Pass (ReconcileContext × Option ProjectVolume) := do
  let dep ← context "fetch deployment" (query (.deploymentFirstByID deploymentId))
  let proj ← context "fetch project" (query (.projectFirstByID dep.projectId))
  let service ← fetchService dep
  let desired := effectiveReplicaCount proj service dep
  let projectVolume ← context "fetch project volume" (projectVolumeForDeployment dep)
  let desired := if projectVolume.isSome ∧ desired > 1 then 1 else desired
  return ({ dep, proj, service, desired, persistentVolume := none }, projectVolume)

/-- A pass up to its work on instances; `none` when the pass is over. -/
def resolveDeployment (d : Deployer) (deploymentId : Id) : Pass (Option ReconcileContext) := do
  let (rc, projectVolume) ← fetchContext deploymentId
  if projectVolume.isSome ∧ rc.dep.kind = .preview then
    failPreviewVolumeDeployment rc.dep
    return none
  if !rc.dep.live then
    reconcileTerminalDeployment d rc.dep
    return none
  resolveContext d rc projectVolume

def reconcileDeployment (d : Deployer) (deploymentId : Id) : Pass Unit := do
  let some rc ← resolveDeployment d deploymentId | return ()
  reconcileInstances d rc

end Kindling
