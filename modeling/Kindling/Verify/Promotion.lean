import Kindling.Deploy.PassFootprint

/-!
# Entering the promotion

A pass that has found enough ready instances enters `promoteDeployment`. What happens from there
on depends only on the row the pass holds and on the state in which the promotion starts.
-/

namespace Kindling

open Fallible

variable {d : Deployer} {id : Id} {as as' : List Answer} {w w' : World} {rc : ReconcileContext}
  {dep : Deployment} {vol : Option ProjectVolume}

/-! ## The pass up to the promotion -/

/-- The pass finds at least the desired number of ready instances and enters the promotion with the
context `rc`, in the state `w'` and with the answers `as'` left. -/
def EntersPromotion (d : Deployer) (id : Id) (as : List Answer) (w : World) (rc : ReconcileContext)
    (as' : List Answer) (w' : World) : Prop :=
  ∃ as₁ w₁ ready, (resolveDeployment d id).outcome as w = ⟨.ok (some rc), w₁, as₁⟩ ∧
    (convergeInstances d rc).outcome as₁ w₁ = ⟨.ok (some ready), w', as'⟩

theorem EntersPromotion.outcome (h : EntersPromotion d id as w rc as' w') :
    (reconcileDeployment d id).outcome as w = (promoteDeployment d rc).outcome as' w' := by
  obtain ⟨as₁, w₁, ready, hresolve, hconverge⟩ := h
  unfold reconcileDeployment
  rw [outcome_bind, hresolve]
  change (reconcileInstances d rc).outcome as₁ w₁ = _
  unfold reconcileInstances
  rw [outcome_bind, hconverge]
  rfl

theorem EntersPromotion.meets (h : EntersPromotion d id as w rc as' w')
    (hm : Meets G (reconcileDeployment d id) as w) :
    Meets G (promoteDeployment d rc) as' w' := by
  obtain ⟨as₁, w₁, ready, hresolve, hconverge⟩ := h
  have h₁ := (meets_bind.mp hm).2 (some rc) (by rw [hresolve])
  rw [hresolve] at h₁
  have h₂ := (meets_bind.mp (h₁)).2 (some ready) (by rw [hconverge])
  rw [hconverge] at h₂
  exact h₂

theorem ensureBuild_continues (h : (ensureBuild dep).outcome as w = ⟨.ok (dep', false), w', as'⟩) :
    dep' = dep ∧ w' = w := by
  unfold ensureBuild at h
  split at h
  · obtain ⟨_, _, _, -, h₁⟩ := outcome_bind_ok h
    obtain ⟨_, _, _, -, h₂⟩ := outcome_bind_ok h₁
    obtain ⟨_, _, _, -, h₃⟩ := outcome_bind_ok h₂
    cases h₃
  · obtain ⟨build, w₁, as₁, hbuild, h₁⟩ := outcome_bind_ok h
    obtain ⟨-, rfl, rfl⟩ := query_ok (context_ok.mp hbuild)
    split at h₁
    · obtain ⟨_, _, _, -, h₂⟩ := outcome_bind_ok h₁
      cases h₂
    · split at h₁
      · obtain ⟨_, _, _, -, h₂⟩ := outcome_bind_ok h₁
        cases h₂
      · cases h₁
        exact ⟨rfl, rfl⟩

theorem resolveProjectVolume_continues
    (h : (resolveProjectVolume d dep vol).outcome as w = ⟨.ok (mount, false), w', as'⟩) :
    w'.deployments = w.deployments := by
  unfold resolveProjectVolume at h
  split at h
  · next vol =>
    obtain ⟨r, w₁, as₁, hensure, h₁⟩ := outcome_bind_ok h
    have hcontrol := (Task.ensureProjectVolumeServer vol).exec_sameControl as w
    cases hensure
    split at h₁
    · obtain ⟨_, _, _, -, h₂⟩ := outcome_bind_ok h₁
      cases h₂
    split at h₁
    · obtain ⟨stopped, w₂, as₂, hstop, h₂⟩ := outcome_bind_ok h₁
      split at h₂
      · obtain ⟨_, _, _, -, h₃⟩ := outcome_bind_ok h₂
        cases h₃
      cases h₂
      obtain ⟨old, w₃, as₃, hold, hstop⟩ := outcome_bind_ok (context_ok.mp hstop)
      obtain ⟨-, rfl, rfl⟩ := query_ok hold
      split at hstop
      · cases hstop
        exact hcontrol.deployments
      · obtain ⟨_, _, _, -, h₃⟩ := outcome_bind_ok hstop
        cases h₃
        contradiction
    · cases h₁
      exact hcontrol.deployments
  · cases h
    rfl

theorem queryBy_state {id : Option Id} (h : (queryBy q id).outcome as w = ⟨.ok b, w', as'⟩) :
    w' = w := by
  unfold queryBy at h
  split at h
  · exact (query_ok h).2.1
  · cases h

theorem syncDeploymentImage_ok (hrow : w.deployments.find? dep.id = some dep)
    (h : (syncDeploymentImage dep).outcome as w = ⟨.ok dep', w', as'⟩) :
    (∃ img, dep' = { dep with imageId := img }) ∧ SameButProgress dep.id w w' := by
  obtain ⟨build, w₁, as₁, hq, h₁⟩ := outcome_bind_ok h
  obtain rfl := queryBy_state (context_ok.mp hq)
  split at h₁
  · obtain ⟨-, hres, hw, -⟩ := deploymentStmt_ok (context_ok.mp h₁)
    obtain ⟨r, hr, -, rfl, -⟩ := Table.updateKey_fst_eq_some (one_ok hres)
    cases hrow.symm.trans hr
    subst hw
    exact ⟨⟨build.imageId, rfl⟩, fun _ hid => DeploymentStmt.find?_exec_ne hid,
      fun g hg => DeploymentStmt.find?_exec_map (hg (.updateImage dep.id build.imageId) trivial _) _⟩
  · cases h₁
    exact ⟨⟨dep.imageId, rfl⟩, .of_eq rfl⟩

theorem prepareImageAndEnv_ok (h : (prepareImageAndEnv d rc).outcome as w = ⟨.ok rc', w', as'⟩) :
    rc'.dep = rc.dep ∧ rc'.service = rc.service ∧ w' = w := by
  obtain ⟨_, w₁, as₁, himage, h₁⟩ := outcome_bind_ok h
  obtain ⟨vars, w₂, as₂, henv, h₂⟩ := outcome_bind_ok h₁
  obtain ⟨_, w₃, as₃, hbuild, h₃⟩ := outcome_bind_ok h₂
  obtain rfl := queryBy_state (context_ok.mp himage)
  have hw : w₂ = w₁ := by
    unfold effectiveEnvVars at henv
    split at henv <;> exact (query_ok (context_ok.mp henv)).2.1
  rw [Outcome.mk.injEq] at hbuild
  obtain ⟨-, rfl, rfl⟩ := hbuild
  cases h₃
  exact ⟨rfl, rfl, hw⟩

theorem fetchService_ok (h : (fetchService dep).outcome as w = ⟨.ok service, w', as'⟩) :
    w' = w ∧ service.map (·.id) = dep.serviceId := by
  unfold fetchService at h
  split at h
  · next hs =>
    cases h
    exact ⟨rfl, hs.symm⟩
  · next s hs =>
    obtain ⟨svc, w₁, as₁, hq, h⟩ := outcome_bind_ok h
    obtain ⟨hrow, rfl, rfl⟩ := query_ok (context_ok.mp hq)
    cases h
    exact ⟨rfl, by rw [hs, Option.map_some, Table.find?_key (one_ok hrow)]⟩

/-- What a pass reads first: the row of its deployment, and the service that row names. -/
theorem fetchContext_ok (h : (fetchContext id).outcome as w = ⟨.ok (rc, vol), w', as'⟩) :
    w' = w ∧ w.deployments.find? id = some rc.dep ∧ rc.service.map (·.id) = rc.dep.serviceId := by
  obtain ⟨dep, w₁, as₁, hdep, h₁⟩ := outcome_bind_ok h
  obtain ⟨proj, w₂, as₂, hproj, h₂⟩ := outcome_bind_ok h₁
  obtain ⟨service, w₃, as₃, hservice, h₃⟩ := outcome_bind_ok h₂
  obtain ⟨vol', w₄, as₄, hvol, h₄⟩ := outcome_bind_ok h₃
  obtain ⟨hrow, rfl, rfl⟩ := query_ok (context_ok.mp hdep)
  obtain ⟨-, rfl, rfl⟩ := query_ok (context_ok.mp hproj)
  obtain ⟨rfl, hid⟩ := fetchService_ok hservice
  have hstate := projectVolumeForDeployment_state (E := Action) dep as₃ w₃
  rw [context_ok.mp hvol] at hstate
  cases hstate
  cases h₄
  exact ⟨rfl, one_ok hrow, hid⟩

theorem resolveContext_ok (hrow : w.deployments.find? rc.dep.id = some rc.dep)
    (h : (resolveContext d rc vol).outcome as w = ⟨.ok (some rc'), w', as'⟩) :
    (∃ img, rc'.dep = { rc.dep with imageId := img }) ∧ rc'.service = rc.service ∧
      SameButProgress rc.dep.id w w' := by
  obtain ⟨⟨dep, done⟩, w₁, as₁, hbuild, h₁⟩ := outcome_bind_ok h
  dsimp only at h₁
  split at h₁
  · cases h₁
  next hdone =>
  obtain rfl : done = false := by simpa using hdone
  obtain ⟨rfl, rfl⟩ := ensureBuild_continues hbuild
  obtain ⟨⟨mount, done⟩, w₂, as₂, hvol, h₂⟩ := outcome_bind_ok h₁
  split at h₂
  · cases h₂
  next hdone =>
  obtain rfl : done = false := by simpa using hdone
  have hdeps := resolveProjectVolume_continues hvol
  obtain ⟨dep', w₃, as₃, hsync, h₃⟩ := outcome_bind_ok h₂
  obtain ⟨himg, hsame⟩ := syncDeploymentImage_ok (hdeps ▸ hrow) hsync
  split at h₃
  · cases h₃
  obtain ⟨rc₂, w₄, as₄, hprep, h₄⟩ := outcome_bind_ok h₃
  cases h₄
  obtain ⟨hdep, hservice, rfl⟩ := prepareImageAndEnv_ok hprep
  refine ⟨?_, hservice, (SameButProgress.of_eq hdeps).trans hsame⟩
  rw [hdep]
  exact himg

/-- What a pass has established when it goes on to the instances: its row is live, the context holds
that row up to the image, and no other deployment has been touched. -/
structure Resolved (id : Id) (w w' : World) (rc : ReconcileContext) (D : Deployment) : Prop where
  row : w.deployments.find? id = some D
  live : D.live = true
  dep : ∃ img, rc.dep = { D with imageId := img }
  service : rc.service.map (·.id) = D.serviceId
  same : SameButProgress id w w'

theorem Resolved.id_eq (h : Resolved id w w' rc D) : rc.dep.id = id := by
  obtain ⟨img, hdep⟩ := h.dep
  have hid : D.id = id := Table.find?_key h.row
  rw [hdep, ← hid]

theorem resolveDeployment_ok (h : (resolveDeployment d id).outcome as w = ⟨.ok (some rc), w', as'⟩)
    :
    ∃ D, Resolved id w w' rc D := by
  obtain ⟨⟨rc₁, vol⟩, w₁, as₁, hfetch, h₁⟩ := outcome_bind_ok h
  obtain ⟨rfl, hrow, hservice⟩ := fetchContext_ok hfetch
  dsimp only at h₁
  split at h₁
  · obtain ⟨_, _, _, -, h₂⟩ := outcome_bind_ok h₁
    cases h₂
  split at h₁
  · obtain ⟨_, _, _, -, h₂⟩ := outcome_bind_ok h₁
    cases h₂
  next hlive =>
  have hid : rc₁.dep.id = id := Table.find?_key hrow
  obtain ⟨himg, hsvc, hsame⟩ := resolveContext_ok (hid ▸ hrow) h₁
  exact ⟨rc₁.dep, hrow, by simpa using hlive, himg, hsvc ▸ hservice, hid ▸ hsame⟩

theorem EntersPromotion.resolved (h : EntersPromotion d id as w rc as' w') :
    ∃ D, Resolved id w w' rc D := by
  obtain ⟨as₁, w₁, ready, hresolve, hconverge⟩ := h
  obtain ⟨D, hD⟩ := resolveDeployment_ok hresolve
  have hsame := uses_own_outcome (convergeInstances_own d rc) as₁ w₁
  rw [hconverge, hD.id_eq] at hsame
  exact ⟨D, { hD with same := hD.same.trans hsame }⟩

theorem Resolved.deletedAt (h : Resolved id w w' rc D) :
    (w'.deployments.find? id).map (·.deletedAt) = some none := by
  have hlive := h.live
  simp only [Deployment.live, Bool.and_eq_true, Option.isNone_iff_eq_none] at hlive
  rw [h.same.own (·.deletedAt) fun s _ _ _ => by cases s <;> rfl, h.row, Option.map_some, hlive.1.1]

theorem mem_findRunningAndOlder :
    x ∈ w.findRunningAndOlder projectId id ↔
      w.deployments.find? x.id = some x ∧ x.runningAndOlder projectId id = true := by
  rw [World.findRunningAndOlder, Table.mem_selectBy]
  exact and_congr_left fun _ => ⟨Table.find?_of_mem, Table.mem_of_find?⟩

/-- The deployments to drain are determined by the rows other than the deployment's own. -/
theorem mem_findRunningAndOlder_congr
    (h : ∀ i, i ≠ id → w'.deployments.find? i = w.deployments.find? i) :
    x ∈ w'.findRunningAndOlder projectId id ↔ x ∈ w.findRunningAndOlder projectId id := by
  rw [mem_findRunningAndOlder, mem_findRunningAndOlder]
  refine and_congr_left fun hx => ?_
  have hne : x.id ≠ id := by
    simp only [Deployment.runningAndOlder, Bool.and_eq_true, bne_iff_ne] at hx
    exact hx.2
  rw [h x.id hne]

theorem drainOldDeployments_outcome : (drainOldDeployments d current).outcome as w =
      if (as.headD default).fail then ⟨.ok (), w, as.tail⟩
      else (forEach (w.findRunningAndOlder current.projectId current.id)
        (drainDeployment d)).outcome as.tail w := by
  unfold drainOldDeployments
  rw [outcome_bind, outcome_attempt, query_outcome]
  by_cases hfail : (as.headD default).fail = true
  · rw [if_pos hfail, if_pos hfail]
    rfl
  · rw [if_neg hfail, if_neg hfail]
    rfl

theorem drainOldDeployments_onlyStops (d : Deployer) (current : Deployment) (as : List Answer)
    (w : World) :
    OnlyStops (fun id => ∃ x ∈ w.findRunningAndOlder current.projectId current.id, x.id = id) w
      ((drainOldDeployments d current).outcome as w).state := by
  rw [drainOldDeployments_outcome]
  split
  · exact .of_eq rfl
  · exact uses_stops_outcome (.forEach fun x hx => drainDeployment_stops d ⟨x, hx, rfl⟩)

theorem routeAndDrain_production (d : Deployer) (hkind : rc.dep.kind = .production) :
    routeAndDrain d rc = (do
      context "production routes" (ensureProductionRoutes rc.dep rc.proj rc.service)
      drainOldDeployments d rc.dep) := by
  unfold routeAndDrain
  rw [hkind]

theorem routeAndDrain_preview (hkind : rc.dep.kind = .preview) :
    routeAndDrain d rc = context "preview routes" (ensurePreviewRoutes rc.dep rc.proj) := by
  unfold routeAndDrain
  rw [hkind]

theorem productionRoutes_deployments (rc : ReconcileContext) (as : List Answer) (w : World) :
    ((context "production routes" (ensureProductionRoutes rc.dep rc.proj rc.service)).outcome as
      w).state.deployments = w.deployments :=
  SparesDeployments.outcome (.wrap ensureProductionRoutes_spares) as w

/-- Whatever fails, the end of a promotion stops only the deployments that are to be drained when it
starts. -/
theorem routeAndDrain_onlyStops (d : Deployer) (rc : ReconcileContext) (as : List Answer)
    (w : World) :
    OnlyStops (fun id => ∃ x ∈ w.findRunningAndOlder rc.dep.projectId rc.dep.id, x.id = id) w
      ((routeAndDrain d rc).outcome as w).state := by
  cases hkind : rc.dep.kind with
  | preview =>
    rw [routeAndDrain_preview hkind]
    exact .of_eq (SparesDeployments.outcome (.wrap ensurePreviewRoutes_spares) as w)
  | production =>
    have hroutes := productionRoutes_deployments rc as w
    rw [routeAndDrain_production d hkind, outcome_bind]
    rcases hout : (context "production routes" (ensureProductionRoutes rc.dep rc.proj
      rc.service)).outcome as w with ⟨_ | _, w₁, as₁⟩
    · rw [hout] at hroutes
      exact .of_eq hroutes
    · rw [hout] at hroutes
      have hdrain := drainOldDeployments_onlyStops d rc.dep as₁ w₁
      rw [World.findRunningAndOlder, hroutes] at hdrain
      exact (OnlyStops.of_eq hroutes).trans hdrain

def World.circuitBroken (w : World) (id : Id) : Bool :=
  ((w.deployments.find? id).map (·.circuitBroken)).getD false

theorem routeAndDrain_circuit {id : Id} :
    ((routeAndDrain d rc).outcome as w).state.circuitBroken id = w.circuitBroken id :=
  congrArg (·.getD false)
    ((routeAndDrain_onlyStops d rc as w).columns (·.circuitBroken) (fun _ _ => rfl) id)

/-! ## The steps of a promotion -/

def World.markedRunning (w : World) (id : Id) (a : Answer) : World :=
  w.withDeployments ((DeploymentStmt.markRunning id).exec a.now w.deployments).2

def World.circuitReset (w : World) (id : Id) (a : Answer) : World :=
  if a.fail then w else w.withDeployments ((DeploymentStmt.resetCircuit id).exec a.now w.deployments).2

/-- The state in which the routes are written: the deployment is marked running, and the attempt to
reset its circuit breaker has been made. -/
def World.beforeRoutes (w : World) (id : Id) (as : List Answer) : World :=
  (w.markedRunning id (as.headD default)).circuitReset id (as.tail.headD default)

theorem beforeRoutes_others {id : Id} (hi : i ≠ id) :
    (w.beforeRoutes id as).deployments.find? i = w.deployments.find? i := by
  have hmark : (w.markedRunning id (as.headD default)).deployments.find? i = w.deployments.find? i :=
    DeploymentStmt.find?_exec_ne hi
  unfold World.beforeRoutes World.circuitReset
  split
  · exact hmark
  · exact (DeploymentStmt.find?_exec_ne hi).trans hmark

theorem beforeRoutes_columns {γ : Type} {g : Deployment → γ}
    (hrun : ∀ now r, g { r with runningAt := some now } = g r)
    (hcircuit : ∀ r, g { r with circuitBroken := false } = g r) (w : World) (id : Id)
    (as : List Answer) (i : Id) :
    ((w.beforeRoutes id as).deployments.find? i).map g = (w.deployments.find? i).map g := by
  have hmark : ((w.markedRunning id (as.headD default)).deployments.find? i).map g =
      (w.deployments.find? i).map g :=
    DeploymentStmt.find?_exec_map (fun r => hrun _ r) i
  unfold World.beforeRoutes World.circuitReset
  split
  · exact hmark
  · exact (DeploymentStmt.find?_exec_map hcircuit i).trans hmark

/-- A promotion does nothing for a row with `running_at` set, stops when it cannot set it, and
goes on to the routes otherwise, whether or not the circuit breaker could be reset. -/
theorem promoteDeployment_outcome (d : Deployer) (rc : ReconcileContext) (as : List Answer)
    (w : World) : (promoteDeployment d rc).outcome as w =
      if rc.dep.runningAt.isSome then ⟨.ok (), w, as⟩
      else if (as.headD default).fail then
        ⟨.error ((Err.of .unavailable).wrap "mark running"), w, as.tail⟩
      else (routeAndDrain d rc).outcome as.tail.tail (w.beforeRoutes rc.dep.id as) := by
  unfold promoteDeployment
  split
  · rfl
  rw [outcome_bind, context, outcome_wrap, deploymentStmt_outcome]
  split
  · rfl
  simp only [DeploymentStmt.exec, DeploymentStmt.result, Except.mapError, andThen_ok]
  rw [outcome_bind, discard_outcome, deploymentStmt_outcome]
  unfold World.beforeRoutes World.circuitReset
  split <;> rfl

theorem promoteDeployment_meets (hrun : ¬rc.dep.runningAt.isSome = true)
    (hmark : ¬(as.headD default).fail = true) (hm : Meets G (promoteDeployment d rc) as w) :
    Meets G (routeAndDrain d rc) as.tail.tail (w.beforeRoutes rc.dep.id as) := by
  unfold promoteDeployment at hm
  rw [if_neg hrun] at hm
  have hout : (context "mark running" (deploymentStmt (.markRunning rc.dep.id))).outcome as w =
      ⟨.ok (), w.markedRunning rc.dep.id (as.headD default), as.tail⟩ := by
    rw [context_ok, deploymentStmt_outcome, if_neg hmark]
    rfl
  have h₁ := (meets_bind.mp hm).2 () (by rw [hout])
  rw [hout] at h₁
  have hout₂ := discard_outcome (deploymentStmt (.resetCircuit rc.dep.id)) as.tail
    (w.markedRunning rc.dep.id (as.headD default))
  have h₂ := (meets_bind.mp h₁).2 () (by rw [hout₂])
  rw [hout₂, deploymentStmt_outcome] at h₂
  unfold World.beforeRoutes World.circuitReset
  split at h₂
  · next hfail => rwa [if_pos hfail]
  · next hfail => rwa [if_neg hfail]

theorem circuitBroken_markedRunning {id : Id} :
    (w.markedRunning id a).circuitBroken id' = w.circuitBroken id' :=
  congrArg (·.getD false) (DeploymentStmt.find?_exec_map (fun _ => rfl) id')

theorem circuitBroken_circuitReset
    (hlive : (w.deployments.find? id).map (·.deletedAt) = some none) :
    (w.circuitReset id a).circuitBroken id = (a.fail && w.circuitBroken id) := by
  unfold World.circuitReset
  split
  · next hfail => rw [hfail, Bool.true_and]
  next hfail =>
  obtain ⟨r, hr, hdel⟩ := Option.map_eq_some_iff.mp hlive
  have happ : (DeploymentStmt.resetCircuit id).applies r = true := by
    simp [DeploymentStmt.applies, hdel]
  have h := (DeploymentStmt.resetCircuit id).find?_exec_self a.now hr happ
  rw [Bool.eq_false_iff.mpr hfail]
  exact congrArg (fun o => (Option.map (·.circuitBroken) o).getD false) h

/-- A project with one service, a finished build and one server. -/
def oneServerWorld : World := {
  projects := .single { id := 1 }
  services := .single { id := 2, projectId := 1 }
  builds := .single { id := 3, projectId := 1, imageId := some 4 }
  images := .single { id := 4 }
  servers := .single { id := 5 } }

/-- A deployment with one healthy instance and a broken circuit. -/
def brokenWorld (runningAt : Option Time) : World := { oneServerWorld with
    deployments := .single
      { id := 10, projectId := 1, serviceId := some 2, buildId := some 3, imageId := some 4,
        runningAt, circuitBroken := true }
    instances := .single
      { id := 20, deploymentId := 10, serverId := some 5, vmId := some 30, status := .running }
    vms := .single { id := 30, serverId := 5, imageId := 4, status := .running }
    running := [{ server := 5, inst := 20 }] }

end Kindling
