import Kindling.Deploy.Effects
import Kindling.Lib.Typestate
import Kindling.Preview.Naming

/-!
# Builds

`internal/builder`, and the recovery sweep of `cmd/kindling/serve_background.go`: a reconcile pass
claims the lease of a build, runs it and releases the lease; the sweep puts builds that have been
left behind back to `pending`. A pass may start at any time.
-/

namespace Kindling

open Fallible

inductive BuildUpdate : Type → Type
  | claimLease (id server : Id) : BuildUpdate Build
  | releaseLease (id server : Id) : BuildUpdate Unit
  | markBuilding (id : Id) (vm : Option Id) : BuildUpdate Unit
  | markSuccessful (id image : Id) : BuildUpdate Unit
  | markFailed (id : Id) : BuildUpdate Unit
  | resetForRetry (id : Id) : BuildUpdate Build

namespace BuildUpdate

def target : BuildUpdate β → Id
  | claimLease id _ | releaseLease id _ | markBuilding id _ | markSuccessful id _ | markFailed id
  | resetForRetry id => id

/-- The rest of the `WHERE` clause. That of `BuildResetForRetry` also asks for `deleted_at`, which the
table does not have; here the statement may succeed, and it may fail. -/
def applies : BuildUpdate β → Build → Bool
  | claimLease _ s, b => b.processingBy == none || b.processingBy == some s
  | releaseLease _ s, b => b.processingBy == some s
  | _, _ => true

def change (now : Time) : BuildUpdate β → Build → Build
  | claimLease _ s, b => { b with processingBy := some s, updatedAt := now }
  | releaseLease .., b => { b with processingBy := none, updatedAt := now }
  | markBuilding _ vm, b =>
    { b with status := .building, vmId := vm, buildingAt := some now, updatedAt := now }
  | markSuccessful _ image, b =>
    { b with status := .successful, imageId := some image, updatedAt := now }
  | markFailed _, b => { b with status := .failed, failedAt := some now, updatedAt := now }
  | resetForRetry _, b =>
    { b with status := .pending, processingBy := none, buildingAt := none, updatedAt := now }

theorem change_id (now : Time) (s : BuildUpdate β) (b : Build) : (s.change now b).id = b.id := by
  cases s <;> rfl

def result : BuildUpdate β → Option Build → Except Err β
  | claimLease .., r | resetForRetry _, r => one r
  | releaseLease .., _ | markBuilding .., _ | markSuccessful .., _ | markFailed _, _ => .ok ()

abbrev Builds := Table Id Build (·.id)

def exec (now : Time) (s : BuildUpdate β) (t : Builds) : Except Err β × Builds :=
  let r := t.updateKey s.target s.applies (s.change now) (s.change_id now)
  (s.result r.1, r.2)

end BuildUpdate

/-- A server whose last heartbeat is less than three minutes old. -/
def World.heard (w : World) (now : Time) (server : Id) : Bool :=
  (w.servers.find? server).any fun s => decide (now < s.lastHeartbeatAt + 180 * second)

/-- `BuildResetOrphaned`, which only selects: the builds in progress on a server that is silent. -/
def World.orphanedBuilds (w : World) (now : Time) : List Build := w.builds.rows.filter fun b =>
    b.status == .building && b.processingBy.any fun s => !w.heard now s

/-- `BuildResetStale`, which only selects as well. -/
def World.staleBuilds (w : World) (now timeout : Time) : List Build := w.builds.rows.filter fun b =>
    (b.status == .pending || b.status == .building) && decide (b.updatedAt + timeout < now) &&
      b.processingBy.all fun s => !w.heard now s

/-- `ImageFindOrCreate` -/
def World.findOrCreateImage (w : World) (image : Image) : Except Err Image × World :=
  match w.images.rows.find? fun i =>
      i.registry == image.registry && i.repository == image.repository && i.tag == image.tag with
  | some i => (.ok i, w)
  | none =>
    let r := inserting w.images image
    (r.1, { w with images := r.2 })

/-- Calls that leave the package. `getConfig` returns the registry. -/
inductive BuilderCall
  | getConfig | downloadSource (repository commit : String) | mkdirTemp
  | extractAndDetect (rootDirectory dockerfilePath : String)
  | buildAndPush (imageRef dockerfilePath : String)
  | connect | trySessionAdvisoryLock
  deriving DecidableEq, Repr

inductive BuildOp : Type → Type 1
  | query {β : Type} (q : Query β) : BuildOp (Except Err β)
  | write {β : Type} (s : BuildUpdate β) : BuildOp (Except Err β)
  | create (build : Build) : BuildOp (Except Err Build)
  | resetOrphaned : BuildOp (Except Err (List Build))
  | resetStale (timeout : Time) : BuildOp (Except Err (List Build))
  | imageFindOrCreate (image : Image) : BuildOp (Except Err Image)
  | external (c : BuilderCall) : BuildOp (Except Err String)
  | now : BuildOp Time
  | newUUID : BuildOp Id
  /-- What the rest of the system does to all the other tables. -/
  | elsewhere (w : World) : BuildOp Unit

def BuildOp.step : BuildOp β → Answer → World → β × World
  | query q, a, w => (if a.fail then .error (.of .unavailable) else q.eval a.now w, w)
  | write s, a, w => onTable a (s.exec a.now) World.builds World.withBuilds w
  | create b, a, w =>
    onTable a (inserting · { b with updatedAt := a.now }) World.builds World.withBuilds w
  | resetOrphaned, a, w =>
    (if a.fail then .error (.of .unavailable) else .ok (w.orphanedBuilds a.now), w)
  | resetStale timeout, a, w =>
    (if a.fail then .error (.of .unavailable) else .ok (w.staleBuilds a.now timeout), w)
  | imageFindOrCreate image, a, w =>
    if a.fail then (.error (.of .unavailable), w) else w.findOrCreateImage image
  | external _, a, w => (if a.fail then .error (.of (.message a.text)) else .ok a.text, w)
  | now, a, w => (a.now, w)
  | newUUID, a, w => (a.uuids 0, w)
  | elsewhere w', _, w => ((), w'.withBuilds w.builds)

instance : Atomic BuildOp Answer World where
  step := BuildOp.step

/-! ## Reconcile passes -/

/-- `Builder`. `getConfig` says whether there is a config provider. -/
structure Builder where
  serverId : Id
  getConfig : Bool := true

def buildStuckTimeout : Time := 15 * 60 * second

section calls
variable {β : Type}

def buildQuery (q : Query β) : Go BuildOp β := ofCall (.query q)

def buildUpdate (s : BuildUpdate β) : Go BuildOp β := ofCall (.write s)

def builderCall (c : BuilderCall) : Go BuildOp String := ofCall (.external c)

end calls

def BuildStatus.ended : BuildStatus → Bool
  | .successful | .failed => true
  | .pending | .building => false

def Builder.pullConfig (b : Builder) : Go BuildOp String :=
  if b.getConfig then builderCall .getConfig
  else throw (.of (.message "builder: no config provider"))

def normalizeRegistryURL (registryURL : String) : String :=
  if trimSpace registryURL == "" then "kindling" else trimSpace registryURL

def serviceOr (project : String) (service : Option String) : String :=
  match service with
  | some s => if trimSpace s == "" then project else s
  | none => project

def passesRootFilter (rootDir path : String) : Bool :=
  let dir := trimPrefix "/" rootDir
  let dir := if dir != "" && !hasSuffix dir "/" then dir ++ "/" else dir
  path != "" && (dir == "" || hasPrefix path dir && path != dir)

@[irreducible] def imageRepository (project : Project) (service : Option Service) : String :=
  let repo := lower (normalizeRepo project.githubRepository)
  let repo := if repo == "" then lower (trimSpace project.githubRepository) else repo
  match service with
  | some s =>
    if !s.isPrimary && trimSpace s.slug != "" then trimSuffix "/" repo ++ "/" ++ s.slug else repo
  | none => repo

@[irreducible] def builtImage (id : Id) (registryURL : String) (project : Project)
    (service : Option Service) (build : Build) : Image :=
  { id
    registry := normalizeRegistryURL registryURL
    repository := imageRepository project service
    tag := String.ofList (build.githubCommit.toList.take 12) }

def Image.ref (i : Image) : String := i.registry ++ "/" ++ i.repository ++ ":" ++ i.tag

def isStuck (build : Build) : Go BuildOp Bool := do
  match build.status, build.buildingAt with
  | .building, some t =>
    let now ← ofTotal .now
    return decide (t + buildStuckTimeout < now)
  | _, _ => return false

def markBuilding (build : Build) : Go BuildOp Unit :=
  if build.status = .pending then
    context "mark building" (buildUpdate (.markBuilding build.id none))
  else pure ()

def fetchBuildService (build : Build) : Go BuildOp (Option Service) :=
  match build.serviceId with
  | some id => do
    let service ← context "fetch service" (buildQuery (.serviceFirstByID id))
    return some service
  | none => return none

/-- What `ReconcileBuild` does while it holds the lease. -/
def withBuildLease (b : Builder) (build : Build) : Go BuildOp Unit := do
  markBuilding build
  let project ← context "fetch project" (buildQuery (.projectFirstByID build.projectId))
  let service ← fetchBuildService build
  let registryURL ← context "load builder config" b.pullConfig
  match ← attempt (builderCall (.downloadSource project.githubRepository build.githubCommit)) with
  | .error _ => buildUpdate (.markFailed build.id)
  | .ok _ =>
  let _ ← context "create build dir" (builderCall .mkdirTemp)
  let rootDirectory := serviceOr project.rootDirectory (service.map (·.rootDirectory))
  let dockerfilePath := serviceOr project.dockerfilePath (service.map (·.dockerfilePath))
  match ← attempt (builderCall (.extractAndDetect rootDirectory dockerfilePath)) with
  | .error _ => buildUpdate (.markFailed build.id)
  | .ok _ =>
  let dockerfilePath := if dockerfilePath == "" then "Dockerfile" else dockerfilePath
  let ref := (builtImage 0 registryURL project service build).ref
  match ← attempt (builderCall (.buildAndPush ref dockerfilePath)) with
  | .error _ => buildUpdate (.markFailed build.id)
  | .ok _ =>
    let id ← ofTotal .newUUID
    let image ← context "create image record"
      (ofCall (.imageFindOrCreate (builtImage id registryURL project service build)))
    context "mark successful" (buildUpdate (.markSuccessful build.id image.id))

def Builder.reconcileBuild (b : Builder) (buildId : Id) : Go BuildOp Unit := do
  let build ← context "fetch build" (buildQuery (.buildFirstByID buildId))
  if build.status.ended then return
  if ← isStuck build then buildUpdate (.markFailed build.id)
  else
    match ← attempt (buildUpdate (.claimLease build.id b.serverId)) with
    | .error _ => return
    | .ok build =>
      deferring (buildUpdate (.releaseLease buildId b.serverId)) (withBuildLease b build)

def buildRecoveryStuckTimeout : Time := 15 * 60 * second

def runBuildRecoveryOnce : Go BuildOp Unit := do
  match ← attempt (builderCall .connect) with
  | .error _ => return
  | .ok _ =>
  match ← attempt (builderCall .trySessionAdvisoryLock) with
  | .error _ => return
  | .ok _ =>
  match ← attempt (ofCall .resetOrphaned) with
  | .error _ => return
  | .ok orphaned =>
  forEach orphaned fun b => discard (buildUpdate (.resetForRetry b.id))
  match ← attempt (ofCall (.resetStale buildRecoveryStuckTimeout)) with
  | .error _ => return
  | .ok stale => forEach stale fun b => discard (buildUpdate (.resetForRetry b.id))

/-- The passes of a server over a build, of which its scheduler runs at most one at a time, recovery
sweeps, deployment reconcilers, which create builds, and everything else. -/
inductive BuildActor
  | pass (server build : Id)
  | recovery (n : Nat)
  | deployer (n : Nat)
  | other (n : Nat)
  deriving DecidableEq, Repr

def buildStarts : BuildActor → Prog BuildOp (Except Err Unit) → Prop
  | .pass server build, p => ∃ b : Builder, b.serverId = server ∧ p = b.reconcileBuild build
  | .recovery _, p => p = runBuildRecoveryOnce
  | .deployer _, p => ∃ build : Build, p = discard (ofCall (.create build))
  | .other _, p => ∃ w : World, p = ofTotal (.elsewhere w)

abbrev BuildTeam := Team BuildActor BuildOp (Except Err Unit) World

end Kindling
