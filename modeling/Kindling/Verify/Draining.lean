import Kindling.Verify.Promotion

/-!
# What a promotion stops

The drain at the end of a promotion stops the rows that `DeploymentFindRunningAndOlder` returns, and
no others. The rows it returns at that point are those it would have returned before the pass.
-/

namespace Kindling

open Fallible

variable {G : Prog.Guard Action Answer World} {w w' : World} {d : Deployer} {rc : ReconcileContext}
  {as as' : List Answer} {id : Id}

/-- The calls of a drain whose failure leaves a deployment running. -/
def drainGuard : Prog.Guard Action Answer World
  | _, .query (.deploymentFindRunningAndOlder ..), as, _ => (as.headD default).fail = false
  | _, .deployments (.markStopped _), as, _ => (as.headD default).fail = false
  | _, _, _, _ => True

theorem drainGuard_nil (a : Action β) (w : World) : drainGuard β a [] w := by
  cases a with
  | query q => cases q <;> first | rfl | trivial
  | deployments s => cases s <;> first | rfl | trivial
  | _ => trivial

theorem discard_returns : Ensures G (discard p) (fun r _ => r = .ok ()) w :=
  .attempt_bind (.true p w) fun _ _ _ => .pure rfl

theorem cleanupDeploymentAllInstances_returns :
    Ensures G (cleanupDeploymentAllInstances d id) (fun r _ => r = .ok ()) w := by
  refine .attempt_bind (.true _ w) fun r w' _ => ?_
  split
  · exact (Ensures.forEach
      (fun _ _ w _ => discard_returns.mono fun _ _ h => ⟨h, trivial⟩) trivial).mono
      fun _ _ h => h.1
  · exact .pure rfl

theorem softDeleteLegacyVM_returns :
    Ensures G (softDeleteLegacyVM old) (fun r _ => r = .ok ()) w := by
  unfold softDeleteLegacyVM
  split
  · exact discard_returns
  · exact .pure rfl

theorem SparesDeployments.ensures (h : SparesDeployments p) (w : World) :
    Ensures G p (fun _ w' => w'.deployments = w.deployments) w :=
  Uses.ensures h (fun _ _ ha as w' hw' => (Action.exec_deployments ha as w').trans hw') rfl

theorem drainDeployment_ensures (hr : w.deployments.find? old.id = some r) :
    Ensures drainGuard (drainDeployment d old)
      (fun res w' => res = .ok () ∧ OnlyStops (· = old.id) w w' ∧ w'.stopped old.id = true) w := by
  refine .bind (cleanupDeploymentAllInstances_returns.and
    (cleanupDeploymentAllInstances_work.spares.ensures w)) (fun _ w₁ h₁ => ?_)
    fun _ _ h => by cases h.1
  refine .bind (softDeleteLegacyVM_returns.and
    (softDeleteLegacyVM_work.spares.ensures w₁)) (fun _ w₂ h₂ => ?_) fun _ _ h => by cases h.1
  have hdeps : w₂.deployments = w.deployments := h₂.2.trans h₁.2
  refine .attempt_bind (.ofCall fun as hok => ?_) fun _ _ h => .pure ⟨rfl, h⟩
  rw [deployments_exec, deploymentStmt_outcome, if_neg (Bool.eq_false_iff.mp hok)]
  exact ⟨(OnlyStops.of_eq hdeps).trans (onlyStops_markStopped (S := (· = old.id)) rfl _ w₂),
    stopped_markStopped (hdeps ▸ hr) _⟩

theorem drainDeployments_ensures (hl : ∀ x ∈ l, (w.deployments.find? x.id).isSome = true) :
    Ensures drainGuard (forEach l (drainDeployment d))
      (fun res w' => res = .ok () ∧ OnlyStops (· ∈ l.map (·.id)) w w' ∧
        ∀ x ∈ l, w'.stopped x.id = true) w := by
  induction l generalizing w with
  | nil => exact .pure ⟨rfl, .of_eq rfl, fun _ h => by cases h⟩
  | cons x l ih =>
    obtain ⟨r, hr⟩ := Option.isSome_iff_exists.mp (hl x List.mem_cons_self)
    refine .bind (drainDeployment_ensures hr) (fun _ w₁ ⟨_, hw₁, hx⟩ => ?_)
      fun _ _ h => by cases h.1
    have hl₁ : ∀ y ∈ l, (w₁.deployments.find? y.id).isSome = true := by
      intro y hy
      rw [← Option.isSome_map (f := fun _ => ()), hw₁.columns _ (fun _ _ => rfl), Option.isSome_map]
      exact hl y (List.mem_cons_of_mem x hy)
    refine (ih hl₁).mono fun res w₂ ⟨hres, hw₂, hstop⟩ => ⟨hres, ?_, ?_⟩
    · refine (hw₁.mono ?_).trans (hw₂.mono ?_)
      · rintro _ rfl
        exact List.mem_cons_self
      · exact fun _ h => List.mem_cons_of_mem _ h
    · intro y hy
      rcases List.mem_cons.mp hy with rfl | hy
      · exact hw₂.stopped _ hx
      · exact hstop y hy

theorem drainOldDeployments_ensures (d : Deployer) (current : Deployment) (w : World) :
    Ensures drainGuard (drainOldDeployments d current) (fun res w' => res = .ok () ∧
        ∀ x ∈ w.findRunningAndOlder current.projectId current.id, w'.stopped x.id = true) w := by
  refine .attempt_bind (Q := fun r w' => w' = w ∧
    r = .ok (w.findRunningAndOlder current.projectId current.id)) (.ofCall fun as hok => ⟨rfl, ?_⟩)
    fun r w' hr => ?_
  · change (if _ then _ else _) = _
    rw [if_neg (Bool.eq_false_iff.mp hok)]
    rfl
  obtain rfl := hr.1.symm
  rw [hr.2]
  refine (drainDeployments_ensures fun x hx => ?_).mono fun _ _ h => ⟨h.1, h.2.2⟩
  rw [(mem_findRunningAndOlder.mp hx).1]
  rfl

def NewlyStopped (w w' : World) (x : Deployment) : Prop :=
  w.deployments.find? x.id = some x ∧ x.stoppedAt = none ∧ w'.stopped x.id = true

theorem stopped_of_find? (hx : w.deployments.find? x.id = some x) (hstop : x.stoppedAt = none) :
    w.stopped x.id = false := by
  rw [World.stopped, hx, Option.any_some, hstop]
  rfl

theorem promoteDeployment_stopped
    (h : ((promoteDeployment d rc).outcome as w).state.stopped id = true) :
    w.stopped id = true ∨ ∃ x ∈ w.findRunningAndOlder rc.dep.projectId rc.dep.id, x.id = id := by
  rw [promoteDeployment_outcome] at h
  split at h
  · exact .inl h
  split at h
  · exact .inl h
  have hstops := routeAndDrain_onlyStops d rc as.tail.tail (w.beforeRoutes rc.dep.id as)
  by_cases hid : ∃ x ∈ (w.beforeRoutes rc.dep.id as).findRunningAndOlder rc.dep.projectId rc.dep.id,
    x.id = id
  · obtain ⟨x, hx, rfl⟩ := hid
    refine .inr ⟨x, ?_, rfl⟩
    exact (mem_findRunningAndOlder_congr fun i hi => beforeRoutes_others hi).mp hx
  · rw [World.stopped, hstops.others id hid] at h
    rw [← World.stopped_congr (beforeRoutes_columns (fun _ _ => rfl) (fun _ => rfl) w rc.dep.id as id)]
    exact .inl h

theorem EntersPromotion.mem_of_newlyStopped (h : EntersPromotion d id as w rc as' w')
    (hD : Resolved id w w' rc D)
    (hx : NewlyStopped w ((reconcileDeployment d id).outcome as w).state x) :
    x ∈ w.findRunningAndOlder D.projectId id := by
  obtain ⟨img, hdep⟩ := hD.dep
  obtain rfl := hD.id_eq
  obtain ⟨hxrow, hxlive, hxstop⟩ := hx
  have hproject : rc.dep.projectId = D.projectId := by rw [hdep]
  rw [h.outcome] at hxstop
  rcases promoteDeployment_stopped hxstop with hstop | ⟨y, hy, hyx⟩
  · -- the pass has stopped nothing before its promotion
    rw [hD.same.stopped, stopped_of_find? hxrow hxlive] at hstop
    cases hstop
  · rw [mem_findRunningAndOlder_congr hD.same.others, hproject] at hy
    have hyrow := (mem_findRunningAndOlder.mp hy).1
    rw [hyx, hxrow] at hyrow
    cases hyrow
    exact hy

/-! ## A promotion that stops everything it finds -/

theorem EntersPromotion.replay (h : EntersPromotion d id as w rc as' w') :
    ∃ pre, ∀ more, EntersPromotion d id (pre ++ more) w rc more w' := by
  obtain ⟨as₁, w₁, ready, hresolve, hconverge⟩ := h
  obtain ⟨pre₁, h₁⟩ := outcome_replay (resolveDeployment d id) as w
  obtain ⟨pre₂, h₂⟩ := outcome_replay (convergeInstances d rc) as₁ w₁
  refine ⟨pre₁ ++ pre₂, fun more => ⟨pre₂ ++ more, w₁, ready, ?_, ?_⟩⟩
  · rw [List.append_assoc, h₁, hresolve]
  · rw [h₂, hconverge]

theorem drainOldDeployments_nil :
    ∀ x ∈ w.findRunningAndOlder current.projectId current.id,
      ((drainOldDeployments d current).outcome [] w).state.stopped x.id = true :=
  ((drainOldDeployments_ensures d current w).outcome
    (Prog.meets_nil (fun _ a w => drainGuard_nil a w) _ w)).2

theorem routeAndDrain_exists_stopping (hkind : rc.dep.kind = .production)
    (h : (routeAndDrain d rc).outcome as w = ⟨.ok (), w', as'⟩) :
    ∃ as₂, ∀ x ∈ w.findRunningAndOlder rc.dep.projectId rc.dep.id,
      ((routeAndDrain d rc).outcome as₂ w).state.stopped x.id = true := by
  rw [routeAndDrain_production d hkind] at h ⊢
  obtain ⟨_, w₁, as₁, hroutes, -⟩ := outcome_bind_ok h
  obtain ⟨pre, hpre⟩ := outcome_replay (context "production routes"
    (ensureProductionRoutes rc.dep rc.proj rc.service)) as w
  have hdeps := productionRoutes_deployments rc as w
  rw [hroutes] at hpre hdeps
  refine ⟨pre ++ [], fun x hx => ?_⟩
  rw [outcome_bind, hpre]
  refine drainOldDeployments_nil x ?_
  rwa [World.findRunningAndOlder, hdeps]

theorem EntersPromotion.exists_stopping (h : EntersPromotion d id as w rc as' w')
    (hD : Resolved id w w' rc D) (hkind : D.kind = .production) (hrun : D.runningAt = none)
    (hok : ((reconcileDeployment d id).outcome as w).value = .ok ()) :
    ∃ as₂ as₂', EntersPromotion d id as₂ w rc as₂' w' ∧ ∀ x ∈ w.findRunningAndOlder D.projectId id,
        ((reconcileDeployment d id).outcome as₂ w).state.stopped x.id = true := by
  obtain ⟨img, hdep⟩ := hD.dep
  obtain rfl := hD.id_eq
  have hkind' : rc.dep.kind = .production := by rw [hdep, ← hkind]
  have hproject : rc.dep.projectId = D.projectId := by rw [hdep]
  have hrun' : ¬rc.dep.runningAt.isSome = true := by simp [hdep, hrun]
  rw [h.outcome, promoteDeployment_outcome, if_neg hrun'] at hok
  split at hok
  · cases hok
  next hmark =>
  rcases hout : (routeAndDrain d rc).outcome as'.tail.tail (w'.beforeRoutes rc.dep.id as') with
    ⟨_ | _, w₁, as₁⟩
  · rw [hout] at hok
    cases hok
  obtain ⟨as₂, has₂⟩ := routeAndDrain_exists_stopping hkind' hout
  obtain ⟨pre, hpre⟩ := h.replay
  have h₂ := hpre (as'.headD default :: as'.tail.headD default :: as₂)
  refine ⟨_, _, h₂, fun x hx => ?_⟩
  rw [h₂.outcome, promoteDeployment_outcome, if_neg hrun', List.headD_cons, if_neg hmark]
  refine has₂ x ?_
  rw [mem_findRunningAndOlder_congr fun i hi => beforeRoutes_others hi,
    mem_findRunningAndOlder_congr hD.same.others, hproject]
  exact hx

/-- **What a promotion stops.** When a pass can promote the production deployment `D`, its promotion
stops only older deployments of the same service, in every execution, exactly when every other
running production deployment of the project is such a deployment. -/
theorem promotion_stops_only_older_iff {d : Deployer} {id : Id} {w : World} {D : Deployment}
    (hrow : w.deployments.find? id = some D) (hkind : D.kind = .production)
    (hrun : D.runningAt = none)
    (hcan : ∃ as rc as' w', EntersPromotion d id as w rc as' w' ∧
      ((reconcileDeployment d id).outcome as w).value = .ok ()) :
    (∀ as rc as' w', EntersPromotion d id as w rc as' w' →
      ∀ x, NewlyStopped w ((reconcileDeployment d id).outcome as w).state x →
        x.kind = .production ∧ x.serviceId = D.serviceId ∧ x.createdAt < D.createdAt) ↔
      ∀ x ∈ w.findRunningAndOlder D.projectId id,
        x.serviceId = D.serviceId ∧ x.createdAt < D.createdAt := by
  have hresolved : ∀ {as rc as' w'}, EntersPromotion d id as w rc as' w' →
      Resolved id w w' rc D := by
    intro as rc as' w' h
    obtain ⟨D', hD⟩ := h.resolved
    obtain rfl : D' = D := Option.some.inj (hD.row.symm.trans hrow)
    exact hD
  constructor
  · intro hall x hx
    obtain ⟨as, rc, as', w', h, hok⟩ := hcan
    obtain ⟨as₂, as₂', h₂, hstop⟩ := h.exists_stopping (hresolved h) hkind hrun hok
    have hmem := mem_findRunningAndOlder.mp hx
    have hlive : x.stoppedAt = none := by
      have := hmem.2
      simp only [Deployment.runningAndOlder, Deployment.live, Bool.and_eq_true,
        Option.isNone_iff_eq_none] at this
      exact this.1.2.2
    exact (hall as₂ rc as₂' w' h₂ x ⟨hmem.1, hlive, hstop x hx⟩).2
  · intro hall as rc as' w' h x hx
    have hmem := h.mem_of_newlyStopped (hresolved h) hx
    refine ⟨?_, hall x hmem⟩
    have := (mem_findRunningAndOlder.mp hmem).2
    simp only [Deployment.runningAndOlder, Bool.and_eq_true, beq_iff_eq] at this
    exact this.1.1.1.2

def newDeployment : Deployment :=
  { id := 10, projectId := 1, serviceId := some 2, buildId := some 3, imageId := some 4,
    createdAt := 5 }

/-- The new deployment has a ready instance; `other` is running. -/
def promotableWorld (other : Deployment) (h : [10, other.id].Nodup) : World := { oneServerWorld with
    deployments := ⟨[newDeployment, other], h⟩
    instances := .single { id := 20, deploymentId := 10, serverId := some 5, vmId := some 30, status := .running }
    vms := .single { id := 30, serverId := 5, imageId := 4, status := .running }
    running := [{ server := 5, inst := 20 }] }

def otherService : Deployment :=
  { id := 11, projectId := 1, serviceId := some 6, runningAt := some 6, createdAt := 6 }

/-- The promotion stops a newer deployment of another service. -/
theorem promotion_stops_other_service :
    (∃ rc, EntersPromotion { serverId := 5 } 10 [] (promotableWorld otherService (by decide)) rc []
      (promotableWorld otherService (by decide))) ∧
    NewlyStopped (promotableWorld otherService (by decide))
      ((reconcileDeployment { serverId := 5 } 10).outcome []
        (promotableWorld otherService (by decide))).state otherService :=
  ⟨⟨_, [], _, 1, rfl, rfl⟩, rfl, rfl, rfl⟩

def olderRevision : Deployment :=
  { id := 11, projectId := 1, serviceId := some 2, runningAt := some 4, createdAt := 4 }

theorem olderRevision_other : [10, olderRevision.id].Nodup := by decide

/-- With only an older deployment of the same service running, nothing else can be stopped. -/
theorem promotion_stops_only_older_revision :
    (promotableWorld olderRevision (by decide)).deployments.find? 10 = some newDeployment ∧
    ∀ as rc as' w', EntersPromotion { serverId := 5 } 10 as (promotableWorld olderRevision (by decide)) rc as' w' →
    ∀ x, NewlyStopped (promotableWorld olderRevision (by decide))
      ((reconcileDeployment { serverId := 5 } 10).outcome as
        (promotableWorld olderRevision (by decide))).state x →
      x.kind = .production ∧ x.serviceId = newDeployment.serviceId ∧
        x.createdAt < newDeployment.createdAt := by
  refine ⟨rfl, (promotion_stops_only_older_iff (D := newDeployment) rfl rfl rfl
    ⟨[], _, [], _, ⟨[], _, 1, rfl, rfl⟩, rfl⟩).mpr ?_⟩
  decide

end Kindling
