import Kindling.Deploy.Footprint

/-!
# What a pass leaves alone

Which of its calls can change deployments, and how. Before the promotion a pass changes only the
row of its own deployment, and neither promotes nor stops it; the one exception is a pass that
stops other deployments to free a volume, and such a pass ends there.
-/

namespace Kindling

open Fallible

variable {p : Pass α} {target : Int} {host : String}

variable {id : Id} {S : Id → Prop} {w w' : World}

def Action.SparesDeployments (β : Type) : Action β → Prop
  | .deployments _ => False
  | _ => True

theorem Action.exec_deployments {a : Action β} (h : a.SparesDeployments) (as : List Answer)
    (w : World) : (Effect.exec a as w).state.deployments = w.deployments := by
  cases a with
  | deployments s => exact h.elim
  | task t => exact (t.exec_sameControl as w).deployments
  | volumes s | domains s | builds s | instanceUpdateRole id role | vmSoftDelete id =>
    exact onTable_elim (P := fun w' => w'.deployments = w.deployments) rfl fun _ => rfl
  | _ => rfl

def Action.SparesDomains (β : Type) : Action β → Prop
  | .domains _ => False
  | _ => True

theorem Action.exec_domains {a : Action β} (h : a.SparesDomains) (as : List Answer) (w : World) :
    (Effect.exec a as w).state.domains = w.domains := by
  cases a with
  | domains s => exact h.elim
  | task t => exact (t.exec_sameControl as w).domains
  | volumes s | deployments s | builds s | instanceUpdateRole id role | vmSoftDelete id =>
    exact onTable_elim (P := fun w' => w'.domains = w.domains) rfl fun _ => rfl
  | _ => rfl

abbrev SparesDeployments (p : Pass β) : Prop := Uses Action.SparesDeployments p

theorem SparesDeployments.outcome (h : SparesDeployments p) (as : List Answer)
    (w : World) : (p.outcome as w).state.deployments = w.deployments :=
  Prog.Uses.run h (fun _ _ ha as w' hw' => (Action.exec_deployments ha as w').trans hw') rfl

def DomainStmt.pointsTo : DomainStmt β → Option Id
  | updateDeploymentForService dep _ | updateManagedByServiceID _ _ dep
  | updateDeploymentForDomainID _ dep => some dep
  | deleteManagedByServiceID _ => none
  | create d => d.deploymentId

def Action.PointsTo (id : Id) (β : Type) : Action β → Prop
  | .deployments _ => False
  | .domains s => ∀ id', s.pointsTo = some id' → id' = id
  | _ => True

theorem Uses.spares_of_pointsTo (h : Uses (Action.PointsTo id) p) : SparesDeployments p := by
  refine h.mono fun _ a ha => ?_
  cases a with
  | deployments => exact ha.elim
  | _ => trivial

attribute [local simp] query domainStmt context discard Reads.read Option.forall Action.PointsTo
  DomainStmt.pointsTo

@[simp] theorem ensureManagedDomain_pointsTo :
    Uses (Action.PointsTo dep.id) (ensureManagedDomain dep service host) := by
  simp [ensureManagedDomain]

@[simp] theorem ensureServiceDomain_pointsTo :
    Uses (Action.PointsTo dep.id) (ensureServiceDomain dep proj service) := by
  simp [ensureServiceDomain, publicHTTPEndpoint]
  intros
  split <;> simp

@[simp] theorem ensureProductionRoutes_pointsTo :
    Uses (Action.PointsTo dep.id) (ensureProductionRoutes dep proj service) := by
  unfold ensureProductionRoutes
  split <;> simp

theorem ensureProductionRoutes_spares :
    SparesDeployments (ensureProductionRoutes dep proj service) :=
  Uses.spares_of_pointsTo ensureProductionRoutes_pointsTo

@[simp] theorem updateStableDomain_pointsTo :
    Uses (Action.PointsTo dep.id) (updateStableDomain dep e) := by
  simp [updateStableDomain]

@[simp] theorem ensureImmutableDomain_pointsTo :
    Uses (Action.PointsTo dep.id) (ensureImmutableDomain dep e host) := by
  simp [ensureImmutableDomain]

@[simp] theorem ensurePreviewRoutes_pointsTo :
    Uses (Action.PointsTo dep.id) (ensurePreviewRoutes dep proj) := by
  simp [ensurePreviewRoutes]
  repeat' split
  all_goals simp

theorem ensurePreviewRoutes_spares : SparesDeployments (ensurePreviewRoutes dep proj) :=
  Uses.spares_of_pointsTo ensurePreviewRoutes_pointsTo

/-! ## Work on the instances -/

def Action.InstanceWork (β : Type) : Action β → Prop
  | .deployments _ | .domains _ => False
  | _ => True

abbrev InstanceWork (p : Pass β) : Prop := Uses Action.InstanceWork p

theorem InstanceWork.spares (h : InstanceWork p) : SparesDeployments p := by
  refine h.mono fun _ a ha => ?_
  cases a with
  | deployments => exact ha.elim
  | _ => trivial

attribute [local simp] Action.InstanceWork perform act deploymentStmt volumeStmt buildStmt
  WritesVolumes.volumes scheduleRetry listInstances healthCheckVMFromHost

@[simp] theorem read_work (q : Query β) : InstanceWork (query q) := by
  simp

@[simp] theorem act_work : InstanceWork (act t) := by
  simp

@[simp] theorem serverStatusByIDs_work (l : List DeploymentInstance)
    (m : List (Id × ServerStatus)) :
    InstanceWork (serverStatusByIDs l m) := by
  induction l generalizing m with
  | nil => exact .pure
  | cons i l ih => cases h : i.serverId <;> simp [serverStatusByIDs, h, ih]

@[simp] theorem runningVM_work : InstanceWork (runningVM inst) := by
  simp [runningVM]
  split <;> simp

@[simp] theorem hostHealthCheck_work : InstanceWork (hostHealthCheck d) := by
  simp [hostHealthCheck]

@[simp] theorem optionalHostHealthCheck_work : InstanceWork (optionalHostHealthCheck d) := by
  simp [optionalHostHealthCheck]

@[simp] theorem localRuntimeHealthy_work : InstanceWork (localRuntimeHealthy d inst) := by
  simp [localRuntimeHealthy]

@[simp] theorem countInstancesReady_work : InstanceWork (countInstancesReady d l) := by
  induction l with
  | nil => exact .pure
  | cons i l ih => simp [countInstancesReady, instanceReady, ih]

@[simp] theorem countReadyOffDrainingServers_work :
    InstanceWork (countReadyOffDrainingServers d m l) := by
  induction l with
  | nil => exact .pure
  | cons i l ih => simp [countReadyOffDrainingServers, readyOffDrainingServer, ih]

@[simp] theorem retainedWarmPoolBudget_work : InstanceWork (retainedWarmPoolBudget d dep) := by
  simp [retainedWarmPoolBudget]
  intros
  split <;> simp

@[simp] theorem pruneWarmPoolInstances_work : InstanceWork (pruneWarmPoolInstances d l keep) := by
  simp [pruneWarmPoolInstances]

theorem promoteCandidates_work : InstanceWork (promoteCandidates ids) := by
  induction ids with
  | nil => exact .pure
  | cons id ids ih => simp [promoteCandidates, ih]

@[simp] theorem activateWarmPoolInstances_work :
    InstanceWork (activateWarmPoolInstances l desired) := by
  simp [activateWarmPoolInstances, promoteCandidates_work]

@[simp] theorem templateSourceForDeployment_work :
    InstanceWork (templateSourceForDeployment d img l) := by
  induction l with
  | nil => exact .pure
  | cons i l ih =>
    unfold templateSourceForDeployment
    split <;> simp [ih]
    intros
    split <;> simp [ih]

@[simp] theorem scaleDownInstances_work : InstanceWork (scaleDownInstances d l n) := by
  unfold scaleDownInstances
  split <;> simp
  split <;> simp

@[simp] theorem removeExcess_work : InstanceWork (removeExcess d dep target fuel l m) := by
  induction fuel generalizing l m with
  | zero => simp [removeExcess]
  | succ fuel ih =>
    cases m <;> simp [removeExcess, currentStatuses] <;> intros <;> split <;> simp [ih]

@[simp] theorem scaleDownExcess_work : InstanceWork (scaleDownExcess d dep l target m) := by
  simp [scaleDownExcess]

@[simp] theorem removeInstancesOnDrainingServers_work :
    InstanceWork (removeInstancesOnDrainingServers d dep l m desired) := by
  simp [removeInstancesOnDrainingServers]

@[simp] theorem isRunningInstanceHealthy_work : InstanceWork (isRunningInstanceHealthy d inst) := by
  unfold isRunningInstanceHealthy
  split <;> simp

/-- Calls that change deployments only by stopping some of those in `S`, and leave the domains
alone. -/
def Action.Stops (S : Id → Prop) (β : Type) : Action β → Prop
  | .deployments (.markStopped id) => S id
  | .deployments _ | .domains _ => False
  | _ => True

theorem InstanceWork.stops (h : InstanceWork p) (S : Id → Prop) : Uses (Action.Stops S) p := by
  refine h.mono fun _ a ha => ?_
  cases a with
  | deployments | domains => exact ha.elim
  | _ => trivial

@[simp] theorem cleanupDeploymentAllInstances_work :
    InstanceWork (cleanupDeploymentAllInstances d dep) := by
  simp [cleanupDeploymentAllInstances]

@[simp] theorem softDeleteLegacyVM_work : InstanceWork (softDeleteLegacyVM dep) := by
  unfold softDeleteLegacyVM
  split <;> simp

theorem drainDeployment_stops (d : Deployer) (h : S old.id) :
    Uses (Action.Stops S) (drainDeployment d old) := by
  simp [drainDeployment, InstanceWork.stops, Action.Stops, h]

/-- Statements that neither end, nor promote, nor reset the circuit of a deployment. -/
def DeploymentStmt.Progress : DeploymentStmt β → Prop
  | .markRunning _ | .markStopped _ | .updateFailedAt _ | .resetCircuit _ => False
  | _ => True

/-- Calls that change at most the row of the deployment `id`, and neither promote nor end it. -/
def Action.OwnProgress (id : Id) (β : Type) : Action β → Prop
  | .deployments s => s.target = id ∧ s.Progress
  | .domains _ => False
  | _ => True

theorem InstanceWork.own (h : InstanceWork p) (id : Id) : Uses (Action.OwnProgress id) p := by
  refine h.mono fun _ a ha => ?_
  cases a with
  | deployments | domains => exact ha.elim
  | _ => trivial

/-- The one statement on deployments here trips the circuit breaker of the pass's own row. -/
theorem reconcileOneInstance_own {ref : String} :
    Uses (Action.OwnProgress rc.dep.id) (reconcileOneInstance d rc ref src inst) := by
  simp [reconcileOneInstance, restartInstance, InstanceWork.own, Action.OwnProgress,
    DeploymentStmt.target, DeploymentStmt.Progress]

@[simp] theorem provisionSurge_work : InstanceWork (provisionSurge d dep desired target) := by
  simp [provisionSurge]

@[simp] theorem cloneTemplate_work : InstanceWork (cloneTemplate d rc l) := by
  simp [cloneTemplate]

theorem surgeAndReconcile_own : Uses (Action.OwnProgress rc.dep.id) (surgeAndReconcile d rc l) := by
  simp [surgeAndReconcile, InstanceWork.own, reconcileOneInstance_own, Action.OwnProgress]

@[simp] theorem retireDrainingInstances_work : InstanceWork (retireDrainingInstances d rc) := by
  simp [retireDrainingInstances, retireReplaced]

theorem convergeInstances_own (d : Deployer) (rc : ReconcileContext) :
    Uses (Action.OwnProgress rc.dep.id) (convergeInstances d rc) := by
  simp [convergeInstances, repairInstancesOnBadServers, InstanceWork.own, surgeAndReconcile_own,
    Action.OwnProgress, DeploymentStmt.target, DeploymentStmt.Progress]

/-- Calls that neither promote a deployment nor change a domain. -/
def Action.KeepsTraffic (β : Type) : Action β → Prop
  | .deployments (.markRunning _) | .domains _ => False
  | _ => True

theorem InstanceWork.keepsTraffic (h : InstanceWork p) : Uses Action.KeepsTraffic p := by
  refine h.mono fun _ a ha => ?_
  cases a with
  | deployments | domains => exact ha.elim
  | _ => trivial

theorem convergeInstances_keepsTraffic (d : Deployer) (rc : ReconcileContext) :
    Uses Action.KeepsTraffic (convergeInstances d rc) := by
  refine (convergeInstances_own d rc).mono fun _ a ha => ?_
  cases a with
  | deployments s =>
    cases s with
    | markRunning => exact ha.2.elim
    | _ => trivial
  | domains => exact ha.elim
  | _ => trivial

attribute [local simp] Action.KeepsTraffic

attribute [local simp low] InstanceWork.keepsTraffic

@[simp] theorem projectVolumeForDeployment_work :
    InstanceWork (projectVolumeForDeployment dep) := by
  simp [projectVolumeForDeployment]

@[simp] theorem reconcileTerminalDeployment_work :
    InstanceWork (reconcileTerminalDeployment d dep) := by
  unfold reconcileTerminalDeployment
  split <;> simp

@[simp] theorem failPreviewVolumeDeployment_keepsTraffic :
    Uses Action.KeepsTraffic (failPreviewVolumeDeployment dep) := by
  simp [failPreviewVolumeDeployment]

@[simp] theorem ensureBuild_keepsTraffic : Uses Action.KeepsTraffic (ensureBuild dep) := by
  unfold ensureBuild
  split <;> simp

@[simp] theorem stopDeploymentForVolume_keepsTraffic :
    Uses Action.KeepsTraffic (stopDeploymentForVolume d old) := by
  simp [stopDeploymentForVolume]

@[simp] theorem stopOldDeploymentsForVolume_keepsTraffic :
    Uses Action.KeepsTraffic (stopOldDeploymentsForVolume d dep) := by
  simp [stopOldDeploymentsForVolume]

@[simp] theorem resolveProjectVolume_keepsTraffic :
    Uses Action.KeepsTraffic (resolveProjectVolume d dep vol) := by
  cases vol <;> simp [resolveProjectVolume]

@[simp] theorem queryBy_work {id : Option Id} : InstanceWork (queryBy q id) := by
  unfold queryBy
  split <;> simp

@[simp] theorem syncDeploymentImage_keepsTraffic :
    Uses Action.KeepsTraffic (syncDeploymentImage dep) := by
  simp [syncDeploymentImage]

@[simp] theorem effectiveEnvVars_work : InstanceWork (effectiveEnvVars rc) := by
  unfold effectiveEnvVars
  split <;> simp

@[simp] theorem prepareImageAndEnv_work : InstanceWork (prepareImageAndEnv d rc) := by
  simp [prepareImageAndEnv]

@[simp] theorem resolveContext_keepsTraffic :
    Uses Action.KeepsTraffic (resolveContext d rc vol) := by
  simp [resolveContext]

@[simp] theorem fetchService_work : InstanceWork (fetchService dep) := by
  unfold fetchService
  split <;> simp

@[simp] theorem fetchContext_work : InstanceWork (fetchContext id) := by
  simp [fetchContext]

theorem resolveDeployment_keepsTraffic (d : Deployer) (id : Id) :
    Uses Action.KeepsTraffic (resolveDeployment d id) := by
  simp [resolveDeployment]

/-! ## What that means for the deployments -/

def World.stopped (w : World) (id : Id) : Bool := (w.deployments.find? id).any (·.stoppedAt.isSome)

/-- The deployments of `w'` are those of `w`, except for columns of the row `id` that say neither
what the deployment is nor whether it runs. -/
structure SameButProgress (id : Id) (w w' : World) : Prop where
  others : ∀ id', id' ≠ id → w'.deployments.find? id' = w.deployments.find? id'
  own : ∀ {γ : Type} (g : Deployment → γ), (∀ {β : Type} (s : DeploymentStmt β), s.Progress →
    ∀ now r, g (s.change now r) = g r) →
    (w'.deployments.find? id).map g = (w.deployments.find? id).map g

theorem World.stopped_congr
    (h : (w'.deployments.find? id).map (·.stoppedAt) = (w.deployments.find? id).map (·.stoppedAt)) :
    w'.stopped id = w.stopped id := by
  have h' := congrArg (Option.any (·.isSome)) h
  rwa [Option.any_map, Option.any_map] at h'

theorem SameButProgress.stopped (h : SameButProgress id w w') (i : Id) :
    w'.stopped i = w.stopped i := by
  by_cases hi : i = id
  · subst hi
    refine World.stopped_congr (h.own (·.stoppedAt) fun s hs now r => ?_)
    cases s <;> first | rfl | exact hs.elim
  · rw [World.stopped, World.stopped, h.others i hi]

theorem SameButProgress.of_eq (h : w'.deployments = w.deployments) :
    SameButProgress id w w' := ⟨fun _ _ => by rw [h], fun _ _ => by rw [h]⟩

theorem SameButProgress.trans (h : SameButProgress id w₁ w₂) (h' : SameButProgress id w₂ w₃) :
    SameButProgress id w₁ w₃ :=
  ⟨fun i hi => (h'.others i hi).trans (h.others i hi), fun g hg => (h'.own g hg).trans (h.own g hg)⟩

theorem Action.OwnProgress.exec {a : Action β} (h : a.OwnProgress id) (as : List Answer) (w : World)
    : SameButProgress id w (Effect.exec a as w).state := by
  cases a with
  | deployments s =>
    obtain ⟨rfl, hs⟩ := h
    rw [deployments_exec, deploymentStmt_outcome]
    split
    · exact .of_eq rfl
    · exact ⟨fun _ hid => DeploymentStmt.find?_exec_ne hid,
        fun g hg => DeploymentStmt.find?_exec_map (hg s hs _) _⟩
  | _ =>
    refine .of_eq (Action.exec_deployments ?_ as w)
    trivial

/-- The deployments of `w'` are those of `w`, except that some of those in `S` have been stopped. -/
structure OnlyStops (S : Id → Prop) (w w' : World) : Prop where
  others : ∀ id, ¬S id → w'.deployments.find? id = w.deployments.find? id
  columns : ∀ {γ : Type} (g : Deployment → γ), (∀ now r, g { r with stoppedAt := some now } = g r) →
    ∀ id, (w'.deployments.find? id).map g = (w.deployments.find? id).map g
  stopped : ∀ id, w.stopped id = true → w'.stopped id = true

theorem OnlyStops.of_eq (h : w'.deployments = w.deployments) : OnlyStops S w w' :=
  ⟨fun _ _ => by rw [h], fun _ _ _ => by rw [h], fun _ hs => by rwa [World.stopped, h]⟩

theorem OnlyStops.trans (h : OnlyStops S w₁ w₂) (h' : OnlyStops S w₂ w₃) : OnlyStops S w₁ w₃ :=
  ⟨fun id hid => (h'.others id hid).trans (h.others id hid),
    fun g hg id => (h'.columns g hg id).trans (h.columns g hg id),
    fun id hid => h'.stopped id (h.stopped id hid)⟩

theorem OnlyStops.mono (h : OnlyStops S w w') (hST : ∀ id, S id → T id) : OnlyStops T w w' :=
  { h with others := fun id hid => h.others id fun hs => hid (hST id hs) }

theorem stopped_markStopped (hr : w.deployments.find? id = some r) (now : Time) :
    (w.withDeployments ((DeploymentStmt.markStopped id).exec now w.deployments).2).stopped id =
      true := by
  have h := (DeploymentStmt.markStopped id).find?_exec_self now hr rfl
  change Option.any _ (((DeploymentStmt.markStopped id).exec now w.deployments).2.find? id) = true
  exact h ▸ rfl

theorem onlyStops_markStopped (h : S id) (now : Time) (w : World) :
    OnlyStops S w
      (w.withDeployments ((DeploymentStmt.markStopped id).exec now w.deployments).2) where
  others id' hid' := DeploymentStmt.find?_exec_ne fun he : id' = id => hid' (he ▸ h)
  columns g hg id' := DeploymentStmt.find?_exec_map (fun r => hg now r) id'
  stopped id' hs := by
    by_cases he : id' = id
    · obtain ⟨r, hr, -⟩ := Option.any_eq_true _ _ |>.mp hs
      subst he
      exact stopped_markStopped hr now
    · have h' : ((DeploymentStmt.markStopped id).exec now w.deployments).2.find? id' =
          w.deployments.find? id' := DeploymentStmt.find?_exec_ne he
      unfold World.stopped at hs ⊢
      rwa [World.withDeployments_deployments, h']

theorem Action.Stops.exec {a : Action β} (h : a.Stops S) (as : List Answer) (w : World) :
    OnlyStops S w (Effect.exec a as w).state := by
  cases a with
  | deployments s =>
    cases s with
    | markStopped id =>
      rw [deployments_exec, deploymentStmt_outcome]
      split
      · exact .of_eq rfl
      · exact onlyStops_markStopped h _ w
    | _ => exact h.elim
  | _ =>
    refine .of_eq (Action.exec_deployments ?_ as w)
    trivial

theorem uses_stops_outcome (h : Uses (Action.Stops S) p) : OnlyStops S w (p.outcome as w).state :=
  Prog.Uses.run h (fun _ _ ha as _ hs => hs.trans (ha.exec as _)) (.of_eq rfl)

theorem uses_stops_domains (h : Uses (Action.Stops S) p) (as : List Answer) (w : World)
    : (p.outcome as w).state.domains = w.domains := by
  refine Prog.Uses.run h (fun _ a ha as w' hw' => (Action.exec_domains ?_ as w').trans hw') rfl
  cases a with
  | domains => exact ha.elim
  | _ => trivial

theorem uses_own_outcome (h : Uses (Action.OwnProgress id) p) (as : List Answer)
    (w : World) : SameButProgress id w (p.outcome as w).state :=
  Prog.Uses.run h (fun _ _ ha as _ hs => hs.trans (ha.exec as _)) (.of_eq rfl)

end Kindling
