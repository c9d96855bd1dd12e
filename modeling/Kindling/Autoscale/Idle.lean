import Kindling.Rpc.Domains

/-!
# Scaling idle projects and previews to zero

The idle sweeps: `runIdleScaleDownOnce` of `cmd/kindling/serve_background.go` for projects and
`RunIdleScaleDownOnce` of `internal/preview/cleanup.go` for preview deployments. Requests are recorded
by the edge proxy (`recordRequestActivity` and `requestColdStart` of `internal/edgeproxy`). Whether a
sweep gets the advisory lock of the leader is left to the environment.
-/

namespace Kindling

open Fallible

/-- What is scaled to zero: a project, or a preview deployment. -/
inductive IdleTarget
  | project (id : Id)
  | preview (id : Id)
  deriving DecidableEq, Repr

/-- A row that a sweep has marked: its last request when it was marked, and the idle time of the
sweep. -/
structure IdleMark where
  target : IdleTarget
  lastRequest : Option Time
  idleSeconds : Int
  markedAt : Time
  deriving DecidableEq, Repr

structure IdleWorld where
  db : World := {}
  clock : Time := 0
  /-- All marks so far. No program reads them. -/
  marks : List IdleMark := []

/-- `last_request_at IS NOT NULL AND last_request_at < NOW() - idle_seconds` -/
def idleSince (now : Time) (idleSeconds : Int) (lastRequest : Option Time) : Bool :=
  lastRequest.any fun t : Time => decide ((t : Int) < now - idleSeconds * second)

def Project.scalable (p : Project) : Bool :=
  p.scaleToZeroEnabled && p.maxInstanceCount > 0 && !p.scaledToZero

def Deployment.scalablePreview (d : Deployment) : Bool :=
  d.kind == .preview && d.runningAt.isSome && d.live && !d.previewScaledToZero

namespace IdleWorld

def projectsFindForIdleScaleDown (w : IdleWorld) (idleSeconds : Int) : List Project :=
  (w.db.projects.selectBy (fun p => p.scalable && idleSince w.clock idleSeconds p.lastRequestAt)
    (·.lastRequestAt.getD 0)).take 100

def deploymentsFindPreviewForIdleScaleDown (w : IdleWorld) (idleSeconds : Int) : List Deployment :=
  (w.db.deployments.selectBy (fun d => d.scalablePreview &&
      (d.previewEnvironmentId.bind w.db.previewEnvironments.find?).any (·.closedAt.isNone) &&
      idleSince w.clock idleSeconds d.previewLastRequestAt)
    (·.previewLastRequestAt.getD 0)).take 100

def updateProject (w : IdleWorld) (id : Id) (f : Project → Project) (hf : ∀ p, (f p).id = p.id) :
    IdleWorld :=
  { w with db := { w.db with projects := w.db.projects.updateWhere (·.id == id) f hf } }

def updateDeployment (w : IdleWorld) (id : Id) (f : Deployment → Deployment)
    (hf : ∀ d, (f d).id = d.id) : IdleWorld :=
  { w with db := { w.db with deployments := w.db.deployments.updateWhere (·.id == id) f hf } }

/-- `ProjectMarkScaledToZero`; the idle time is recorded with the mark only. -/
def projectMarkScaledToZero (w : IdleWorld) (idleSeconds : Int) (id : Id) : IdleWorld :=
  match (w.db.projects.find? id).filter Project.scalable with
  | none => w
  | some p =>
    { w.updateProject id ({ · with scaledToZero := true }) fun _ => rfl with
      marks := ⟨.project id, p.lastRequestAt, idleSeconds, w.clock⟩ :: w.marks }

def deploymentPreviewMarkScaledToZero (w : IdleWorld) (idleSeconds : Int) (id : Id) : IdleWorld :=
  match (w.db.deployments.find? id).filter Deployment.scalablePreview with
  | none => w
  | some d =>
    { w.updateDeployment id ({ · with previewScaledToZero := true }) fun _ => rfl with
      marks := ⟨.preview id, d.previewLastRequestAt, idleSeconds, w.clock⟩ :: w.marks }

def deploymentRequestWake (w : IdleWorld) (id : Id) : Except Err Deployment × IdleWorld :=
  match (w.db.deployments.find? id).filter Deployment.live with
  | none => (.error (.of .noRows), w)
  | some d =>
    let wake (d : Deployment) : Deployment :=
      { d with wakeRequestedAt := d.wakeRequestedAt <|> some w.clock }
    (.ok (wake d), w.updateDeployment id wake fun _ => rfl)

end IdleWorld

inductive IdleOp : Type → Type 1
  | connect : IdleOp (Except Err Unit)
  | trySessionAdvisoryLock (key : String) : IdleOp (Except Err Bool)
  | projectsFindForIdleScaleDown (idleSeconds : Int) : IdleOp (Except Err (List Project))
  | projectMarkScaledToZero (idleSeconds : Int) (id : Id) : IdleOp (Except Err Unit)
  | deploymentLatestRunningByProjectID (projectId : Id) : IdleOp (Except Err Deployment)
  | deploymentsFindPreviewForIdleScaleDown (idleSeconds : Int) : IdleOp (Except Err (List Deployment))
  | deploymentPreviewMarkScaledToZero (idleSeconds : Int) (id : Id) : IdleOp (Except Err Unit)
  | projectUpdateLastRequestAt (id : Id) : IdleOp (Except Err Unit)
  | deploymentPreviewUpdateLastRequestAt (id : Id) : IdleOp (Except Err Unit)
  | projectClearScaledToZero (id : Id) : IdleOp (Except Err Unit)
  | deploymentPreviewClearScaledToZero (id : Id) : IdleOp (Except Err Unit)
  | deploymentRequestWake (id : Id) : IdleOp (Except Err Deployment)
  /-- Any other statement. -/
  | edit (change : World → World) : IdleOp (Except Err Unit)

/-- A statement at the time of the database's clock; one that fails changes nothing. -/
def onClock (a : Answer) (w : IdleWorld) (f : IdleWorld → Except Err β × IdleWorld) :
    Except Err β × IdleWorld :=
  let w := { w with clock := max w.clock a.now }
  if a.fail then (.error (.of .unavailable), w) else f w

def IdleOp.step : IdleOp β → Answer → IdleWorld → β × IdleWorld
  | connect, a, w => onClock a w fun w => (.ok (), w)
  | trySessionAdvisoryLock _, a, w => onClock a w fun w => (.ok a.ok, w)
  | projectsFindForIdleScaleDown idle, a, w =>
    onClock a w fun w => (.ok (w.projectsFindForIdleScaleDown idle), w)
  | projectMarkScaledToZero idle id, a, w =>
    onClock a w fun w => (.ok (), w.projectMarkScaledToZero idle id)
  | deploymentLatestRunningByProjectID p, a, w =>
    onClock a w fun w => (one (w.db.latestRunning (·.projectId == p)), w)
  | deploymentsFindPreviewForIdleScaleDown idle, a, w =>
    onClock a w fun w => (.ok (w.deploymentsFindPreviewForIdleScaleDown idle), w)
  | deploymentPreviewMarkScaledToZero idle id, a, w =>
    onClock a w fun w => (.ok (), w.deploymentPreviewMarkScaledToZero idle id)
  | projectUpdateLastRequestAt id, a, w => onClock a w fun w =>
    (.ok (), w.updateProject id ({ · with lastRequestAt := some w.clock }) fun _ => rfl)
  | deploymentPreviewUpdateLastRequestAt id, a, w => onClock a w fun w =>
    (.ok (), w.updateDeployment id
      (fun d => if d.kind = .preview then { d with previewLastRequestAt := some w.clock } else d)
      fun d => by split <;> rfl)
  | projectClearScaledToZero id, a, w => onClock a w fun w =>
    (.ok (), w.updateProject id ({ · with scaledToZero := false }) fun _ => rfl)
  | deploymentPreviewClearScaledToZero id, a, w => onClock a w fun w =>
    (.ok (), w.updateDeployment id ({ · with previewScaledToZero := false }) fun _ => rfl)
  | deploymentRequestWake id, a, w => onClock a w fun w => w.deploymentRequestWake id
  | edit change, a, w => onClock a w fun w => (.ok (), { w with db := change w.db })

instance : Atomic IdleOp Answer IdleWorld where
  step := IdleOp.step

/-- Connect, and become the leader of the sweeps of a kind. -/
def acquireLeader (key : String) : Go IdleOp Bool := do
  match ← attempt (ofCall .connect) with
  | .error _ => return false
  | .ok _ =>
  match ← attempt (ofCall (.trySessionAdvisoryLock key)) with
  | .error _ => return false
  | .ok acquired => return acquired

/-- A sweep: the leader selects rows and handles them one by one. -/
def sweepAsLeader (key : String) (select : IdleOp (Except Err (List α))) (round : α → Go IdleOp Unit) :
    Go IdleOp Unit := do
  if ← acquireLeader key then
    match ← attempt (ofCall select) with
    | .error _ => return
    | .ok rows => forEach rows round
  else return

def scaleProjectDown (idleSeconds : Int) (p : Project) : Go IdleOp Unit := do
  match ← attempt (ofCall (.projectMarkScaledToZero idleSeconds p.id)) with
  | .error _ => return
  | .ok _ => discard (ofCall (.deploymentLatestRunningByProjectID p.id))

def runIdleScaleDownOnce (idleSeconds : Int) : Go IdleOp Unit :=
  sweepAsLeader "kindling_idle_scaler" (.projectsFindForIdleScaleDown idleSeconds)
    (scaleProjectDown idleSeconds)

def scalePreviewDown (idleSeconds : Int) (dep : Deployment) : Go IdleOp Unit :=
  discard (ofCall (.deploymentPreviewMarkScaledToZero idleSeconds dep.id))

/-- `RunIdleScaleDownOnce` of `internal/preview`. -/
def runPreviewIdleScaleDownOnce (idleSeconds : Int) : Go IdleOp Unit :=
  let idleSeconds := if idleSeconds ≤ 0 then 300 else idleSeconds
  sweepAsLeader "kindling_preview_idle" (.deploymentsFindPreviewForIdleScaleDown idleSeconds)
    (scalePreviewDown idleSeconds)

/-- What the edge proxy has looked up for the host of a request. -/
structure EdgeLookup where
  deploymentKind : Option DeploymentKind := none
  projectId : Option Id := none
  deploymentId : Option Id := none
  deriving DecidableEq, Repr

def recordRequestActivity (lookup : EdgeLookup) : Go IdleOp Unit :=
  match lookup.deploymentKind, lookup.deploymentId, lookup.projectId with
  | some .preview, some id, _ => discard (ofCall (.deploymentPreviewUpdateLastRequestAt id))
  | some .preview, none, _ => return
  | _, _, some id => discard (ofCall (.projectUpdateLastRequestAt id))
  | _, _, none => return

/-- An identifier that is not valid names no row. -/
def clearScaledToZero (lookup : EdgeLookup) : Go IdleOp Unit :=
  match lookup.deploymentKind, lookup.deploymentId, lookup.projectId with
  | some .preview, some id, _ =>
    context "clear preview scaled_to_zero" (ofCall (.deploymentPreviewClearScaledToZero id))
  | some .preview, none, _ => return
  | _, _, some id => context "clear scaled_to_zero" (ofCall (.projectClearScaledToZero id))
  | _, _, none => return

def requestWake : Option Id → Go IdleOp Unit
  | some id => do
    let _ ← context "request wake" (ofCall (.deploymentRequestWake id))
  | none => throw (Err.wrap "request wake" (.of .noRows))

/-- A request for a host without backends, whose activity is recorded on the side. -/
def requestColdStart (lookup : EdgeLookup) : Go IdleOp Unit := do
  clearScaledToZero lookup
  requestWake lookup.deploymentId

/-- Sweeps of any servers, requests, and whatever else writes to the database. -/
inductive IdleActor
  | projectSweep (n : Nat)
  | previewSweep (n : Nat)
  | request (n : Nat)
  | coldStart (n : Nat)
  | other (n : Nat)
  deriving DecidableEq, Repr

def IdleOp.IsEdit (β : Type) : IdleOp β → Prop
  | .edit _ => True
  | _ => False

def idleStarts : IdleActor → Prog IdleOp Unit → Prop
  | .projectSweep _, p => ∃ idleSeconds, p = quietly (runIdleScaleDownOnce idleSeconds)
  | .previewSweep _, p => ∃ idleSeconds, p = quietly (runPreviewIdleScaleDownOnce idleSeconds)
  | .request _, p => ∃ lookup, p = quietly (recordRequestActivity lookup)
  | .coldStart _, p => ∃ lookup, p = quietly (requestColdStart lookup)
  | .other _, p => p.Uses IdleOp.IsEdit

abbrev IdleTeam := Team IdleActor IdleOp Unit IdleWorld

end Kindling
