import Kindling.Autoscale.Idle
import Kindling.Verify.Autoscaling

/-!
# Sweeps of the autoscaler

`RunOnce` and `RunFastOnce` of `internal/autoscale`, with any results of their queries, and what they
store.
-/

namespace Kindling

open Fallible

def minute : Time := 60 * second

def cpuLookback : Time := 2 * minute

def scaleDownCooldown : Time := 5 * minute

def shouldSkipAutoscale (service : Service) (metrics : Metrics) : Bool :=
  service.desiredInstanceCount == 0 && metrics.avgRequestsPerMinute == 0 && !metrics.hasCPU

def shouldHoldScaleDown (proj : Project) (now : Time) : Bool :=
  proj.lastRequestAt.any fun t => decide (now < t + scaleDownCooldown)

inductive AutoscaleOp : Type → Type 1
  | idle {β : Type} (op : IdleOp β) : AutoscaleOp β
  | projectFindAll : AutoscaleOp (Except Err (List Project))
  | serviceListByProjectID (project : Id) : AutoscaleOp (Except Err (List Service))
  | deploymentLatestRunningByServiceID (service : Id) : AutoscaleOp (Except Err Deployment)
  /-- The request counts of `ProjectHTTPUsageRollupsAggregatedByDeployment`. -/
  | httpUsage (project deployment : Id) (first last : Time) : AutoscaleOp (Except Err (List Int))
  /-- The CPU percentages of `InstanceUsageLatestPerInstanceByDeployment`. -/
  | cpuUsage (project deployment : Id) (since : Time) : AutoscaleOp (Except Err (List (Option ℚ)))
  | serviceSetDesiredInstanceCount (service : Id) (count : Int) : AutoscaleOp (Except Err Unit)
  | scheduleDeploymentNow (deployment : Id) : AutoscaleOp Unit

/-- What a sweep is given; `RunOnce` gives it three minutes, `RunFastOnce` one and `scaleUpOnly`. -/
structure AutoscaleSweep where
  arch : Arch
  now : Time
  windowMinutes : Nat
  scaleUpOnly : Bool

namespace AutoscaleSweep
variable (s : AutoscaleSweep)

def bucketMinute : Time := s.now - s.now % minute

def httpWindowStart : Time := s.bucketMinute - s.windowMinutes * minute

def httpWindowInclusiveEnd : Time := if s.scaleUpOnly then s.bucketMinute else s.bucketMinute - 1

def avgRPM (requestCount : Int) : ℚ :=
  if s.scaleUpOnly then
    let elapsedMin : ℚ := (s.now - s.httpWindowStart : Nat) / (minute : Nat)
    requestCount / if elapsedMin < 1 / 60 then 1 / 60 else elapsedMin
  else requestCount / (s.windowMinutes : ℚ)

def metrics (counts : List Int) (cpu : List (Option ℚ)) : Metrics where
  avgRequestsPerMinute := s.avgRPM counts.sum
  totalCPUPercent := cpu.reduceOption.sum
  hasCPU := cpu.any (·.isSome)

/-- The count that is stored for a service, unless it is passed over. -/
def next? (proj : Project) (svc : Service) (metrics : Metrics) : Option Int :=
  let current := clampCurrentTarget proj (some svc)
  let next := computeDesiredInstanceCount s.arch proj (some svc) metrics
  if shouldSkipAutoscale svc metrics then none
  else if s.scaleUpOnly ∧ next ≤ current then none
  else if ¬s.scaleUpOnly ∧ next < current ∧ shouldHoldScaleDown proj s.now then none
  else if next = current then none
  else some next

def cpuPercents (project deployment : Id) : Go AutoscaleOp (List (Option ℚ)) :=
  if s.scaleUpOnly then pure [] else ofCall (.cpuUsage project deployment (s.now - cpuLookback))

def scaleService (proj : Project) (svc : Service) : Go AutoscaleOp Unit := do
  let dep ← ofCall (.deploymentLatestRunningByServiceID svc.id)
  let counts ← ofCall (.httpUsage proj.id dep.id s.httpWindowStart s.httpWindowInclusiveEnd)
  let cpu ← s.cpuPercents proj.id dep.id
  match s.next? proj svc (s.metrics counts cpu) with
  | none => return
  | some next =>
    ofCall (.serviceSetDesiredInstanceCount svc.id next)
    ofTotal (.scheduleDeploymentNow dep.id)

def scaleProject (proj : Project) : Go AutoscaleOp Unit :=
  if proj.maxInstanceCount ≤ 0 ∨ proj.scaledToZero then pure ()
  else do
    let services ← ofCall (.serviceListByProjectID proj.id)
    forEach services fun svc => discard (s.scaleService proj svc)

def runAutoscaleSweepWithWindow : Go AutoscaleOp Unit := do
  let projects ← ofCall .projectFindAll
  forEach projects fun proj => discard (s.scaleProject proj)

def runOnce : Go AutoscaleOp Unit := do
  if ← hoist (fun _ => .idle) (acquireLeader "kindling_project_autoscaler") then
    s.runAutoscaleSweepWithWindow
  else return

/-- What a sweep may store for a service. -/
structure Stores (proj : Project) (svc : Service) (count : Int) : Prop where
  changes : count ≠ clampCurrentTarget proj (some svc)
  lowers : count < clampCurrentTarget proj (some svc) →
    count = clampCurrentTarget proj (some svc) - 1 ∧ s.scaleUpOnly = false ∧
      shouldHoldScaleDown proj s.now = false
  agreed : validateProjectScalingBounds proj.minInstanceCount proj.maxInstanceCount = .ok () →
    ∀ dep : Deployment, dep.kind = .production → CountAgreed proj svc dep count

/-- The projects that a sweep has listed, and the services of the one it has come to. -/
structure Sight where
  projects : List Project := []
  listed : List (Id × Service) := []

def sight : Typestate AutoscaleOp Sight where
  start := {}
  allows m
    | .serviceSetDesiredInstanceCount id count =>
      ∃ proj ∈ m.projects, 0 < proj.maxInstanceCount ∧ proj.scaledToZero = false ∧
        ∃ svc, (proj.id, svc) ∈ m.listed ∧ svc.id = id ∧ s.Stores proj svc count
    | _ => True
  possible _ _ _ := True
  next m
    | .projectFindAll, r => { m with projects := r.toOption.getD [] }
    | .serviceListByProjectID p, r => { m with listed := (r.toOption.getD []).map (p, ·) }
    | _, _ => m

variable {s} {proj : Project} {svc : Service} {metrics : Metrics} {m : Sight}

theorem stores_of_next? (hmax : 0 < proj.maxInstanceCount) (hawake : proj.scaledToZero = false)
    (h : s.next? proj svc metrics = some count) : s.Stores proj svc count := by
  unfold next? at h
  dsimp only at h
  split_ifs at h with hskip hup hhold hsame
  cases h
  refine ⟨hsame, fun hlt => ?_, fun hvalid dep hkind => ?_⟩
  · have hslow : s.scaleUpOnly = false := by simpa using fun hs => hup ⟨hs, hlt.le⟩
    refine ⟨?_, hslow, by simpa [hslow, hlt] using hhold⟩
    revert hlt
    unfold computeDesiredInstanceCount stepFrom
    simp only [if_neg hmax.not_ge]
    split_ifs <;> omega
  · have hbounds := (validateProjectScalingBounds_eq_ok.mp hvalid).2
    rw [computeDesiredInstanceCount_eq]
    exact countAgreed_decideFrom hkind hawake s.arch svc metrics
      ((nonZeroFloor_le_iff hmax).mpr hbounds) _

theorem scaleService_follows (hmax : 0 < proj.maxInstanceCount) (hawake : proj.scaledToZero = false)
    (hproj : proj ∈ m.projects) (hsvc : (proj.id, svc) ∈ m.listed) :
    s.sight.Follows (s.scaleService proj svc) (fun _ m' => m' = m) m := by
  refine .of_uses ?_
  refine .bind (.ofCall ⟨trivial, fun _ _ => rfl⟩) fun dep => ?_
  refine .bind (.ofCall ⟨trivial, fun _ _ => rfl⟩) fun counts => ?_
  refine .bind (.ite .pure (.ofCall ⟨trivial, fun _ _ => rfl⟩)) fun cpu => ?_
  cases hnext : s.next? proj svc (s.metrics counts cpu) with
  | none => exact .pure
  | some next =>
    have hstores := stores_of_next? hmax hawake hnext
    refine .bind (.ofCall ⟨⟨proj, hproj, hmax, hawake, svc, hsvc, rfl, hstores⟩, fun _ _ => rfl⟩) ?_
    exact fun _ => .ofTotal ⟨trivial, fun _ _ => rfl⟩

theorem scaleProject_follows (hproj : proj ∈ m.projects) : s.sight.Follows (s.scaleProject proj)
    (fun _ m' => m'.projects = m.projects) m := by
  unfold scaleProject
  split
  · exact .pure rfl
  next hactive =>
  simp only [not_or, not_le, Bool.not_eq_true] at hactive
  refine ⟨trivial, ?_⟩
  rintro (_ | services) -
  · rfl
  refine (Typestate.Follows.forEach (I := fun m' => m'.projects = m.projects ∧
    m'.listed = services.map (proj.id, ·)) ?_ ⟨rfl, rfl⟩).mono fun _ _ h => h.1
  rintro svc hsvc m' ⟨hprojects, hlisted⟩
  refine .attempt_bind (scaleService_follows hactive.1 hactive.2 (hprojects ▸ hproj)
    (hlisted ▸ List.mem_map_of_mem hsvc)) ?_
  rintro _ _ rfl
  exact .pure ⟨hprojects, hlisted⟩

/-- **What sweeps store.** Whatever the queries return and whichever calls fail, a sweep stores counts
only for services that it has listed, of projects with a maximum that are not scaled to zero. A stored
count is not the one there was; it is lower only in a slow sweep, by one, and not within the cooldown
after a request; and the deployer and the API take it as it is if the API accepts the bounds of the
project. -/
theorem sweeps_store_in_order (s : AutoscaleSweep) :
    s.sight.Follows s.runOnce (fun _ _ => True) {} := by
  have hleader : s.sight.Follows (hoist (fun _ => .idle)
      (acquireLeader "kindling_project_autoscaler")) (fun _ m' => m' = {}) {} :=
    .hoist (.of_uses (.of_forall (fun _ _ => ⟨trivial, fun _ _ => rfl⟩) _))
  refine .bind hleader ?_ fun _ _ _ => trivial
  rintro (_ | _) _ rfl
  · trivial
  refine ⟨trivial, ?_⟩
  rintro (_ | projects) -
  · trivial
  refine (Typestate.Follows.forEach (I := fun m' => m'.projects = projects) ?_ rfl).any
  intro proj hproj m' hm'
  refine .attempt_bind (scaleProject_follows (hm' ▸ hproj)) fun _ _ h => ?_
  exact .pure (h.trans hm')

end AutoscaleSweep

end Kindling
