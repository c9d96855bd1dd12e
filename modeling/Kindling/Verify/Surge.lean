import Kindling.Deploy.Executions

/-!
# The provisioning part of the drain surge

While instances stand on draining servers, `surgeAndReconcile` wants `desired` instances besides
them. It creates instances until active and warm-pool instances together reach the surge target,
but promotes warm-pool instances only up to `desired`.
-/

namespace Kindling

open Fallible

variable {t : InstanceTable} {id dep : Id} {desired : Int} {as as' : List Answer} {w w' : World}
  {ids : List Id}

def roleCount (t : InstanceTable) (deploymentId : Id) (role : InstanceRole) : Nat :=
  t.rows.countP fun r => r.role == role && (r.deploymentId == deploymentId && r.undeleted)

/-- Counting in the table is counting in the list that the reconciler reads. -/
theorem World.countP_instancesOf (w : World) (dep : Id) (role : InstanceRole) :
    (w.instancesOf dep).countP (·.role == role) = roleCount w.instances dep role :=
  Table.countP_selectBy ..

theorem countProvisionableInstances_eq (l : List DeploymentInstance) :
    countProvisionableInstances l =
      l.countP (·.role == .active) + l.countP (·.role == .warmPool) := by
  induction l with
  | nil => rfl
  | cons i l ih =>
    simp only [countProvisionableInstances, isActiveInstance, isWarmPoolInstance,
      List.countP_cons] at ih ⊢
    cases i.role <;> simp <;> omega

theorem roleCount_create
    (h : ((InstanceStmt.create id dep).exec now t).1 = .ok row) (role : InstanceRole) :
    roleCount ((InstanceStmt.create id dep).exec now t).2 dep role =
      roleCount t dep role + if role = .active then 1 else 0 := by
  obtain ⟨-, hins⟩ := inserting_ok h
  change roleCount (inserting t _).2 dep role = _
  rw [roleCount, Table.countP_insert? hins]
  cases role <;> simp [roleCount, DeploymentInstance.undeleted]

theorem provisionLoop_ok
    (h : (provisionLoop dep desired relisting fuel listing).outcome as w = ⟨.ok (), w', as'⟩) :
    roleCount w'.instances dep .warmPool = roleCount w.instances dep .warmPool ∧
      (roleCount w'.instances dep .active : Int) = max (roleCount w.instances dep .active : Int)
          (desired - roleCount w.instances dep .warmPool) := by
  induction fuel generalizing listing as w with
  | zero => cases h
  | succ fuel ih =>
    obtain ⟨rows, w₁, as₁, hlist, h⟩ := outcome_bind_ok h
    obtain ⟨hrows, rfl, rfl⟩ := query_ok (context_ok.mp hlist)
    cases hrows
    have hcount := countProvisionableInstances_eq (w₁.instancesOf dep)
    rw [World.countP_instancesOf, World.countP_instancesOf] at hcount
    split at h
    · next hlt =>
      obtain ⟨id, w₂, as₂, huuid, h⟩ := outcome_bind_ok h
      rw [newUUID_outcome] at huuid
      cases huuid
      obtain ⟨row, w₃, as₃, hcreate, h⟩ := outcome_bind_ok h
      rw [context_ok, outcome_ofCall] at hcreate
      simp only [Effect.exec, Outcome.mk.injEq] at hcreate
      obtain ⟨hrow, rfl⟩ := instances_step_ok (Prod.ext hcreate.1 hcreate.2.1)
      obtain ⟨hw, ha⟩ := ih h
      simp only [World.withInstances_instances, roleCount_create hrow] at hw ha
      exact ⟨hw, by push_cast at ha; omega⟩
    · cases h
      exact ⟨rfl, by omega⟩

/-- A level of effects at which the loop is run changes nothing about its result. -/
theorem ensureInstanceCountUp_ok
    (h : (ensureInstanceCountUp d dep desired).outcome as w = ⟨.ok (), w', as'⟩) :
    roleCount w'.instances dep .warmPool = roleCount w.instances dep .warmPool ∧
      (roleCount w'.instances dep .active : Int) = max (roleCount w.instances dep .active : Int)
          (desired - roleCount w.instances dep .warmPool) := by
  unfold ensureInstanceCountUp at h
  split at h
  · obtain ⟨r, w₁, as₁, htx, hr⟩ := outcome_bind_ok h
    obtain ⟨o, ho⟩ : ∃ o, (provisionLoop dep desired "list instances after create in tx" d.loopBound
      "list instances in tx").outcome as w = o := ⟨_, rfl⟩
    rw [outcome_ofTotal] at htx
    simp only [Effect.exec, Op.exec] at htx
    change Prog.run _ as w = o at ho
    rw [ho] at htx
    rcases o with ⟨_ | v, w₂, as₂⟩
    · cases htx
      cases hr
    · simp only at htx
      split at htx <;> cases htx
      · cases hr
      · cases hr
        exact provisionLoop_ok ho
  · exact provisionLoop_ok ((Prog.run_interp _ (fun _ _ _ _ => rfl) _ as w).symm.trans h)

def AllWarm (t : InstanceTable) (dep : Id) (ids : List Id) : Prop :=
  ∀ id ∈ ids, ∃ r, t.find? id = some r ∧ r.role = .warmPool ∧ r.deploymentId = dep ∧ r.undeleted

theorem roleCount_promote (hwarm : AllWarm t dep (id :: ids)) :
    roleCount ((InstanceStmt.updateRole id .active).exec now t).2 dep .active =
      roleCount t dep .active + 1 := by
  obtain ⟨r, hr, hrole, hdep, hdel⟩ := hwarm id List.mem_cons_self
  have h := t.countP_updateKey ({ · with role := .active }) (fun _ => rfl)
    (fun r => r.role == .active && (r.deploymentId == dep && r.undeleted)) hr hdel
  rw [if_neg (by simp [hrole]), if_pos (by simpa [hdep, DeploymentInstance.undeleted] using hdel)]
    at h
  exact h

theorem AllWarm.promote (now : Time) (hwarm : AllWarm t dep (id :: ids)) (hnd : (id :: ids).Nodup) :
    AllWarm ((InstanceStmt.updateRole id .active).exec now t).2 dep ids := by
  intro i hi
  obtain ⟨r, hr, hrest⟩ := hwarm i (List.mem_cons_of_mem id hi)
  refine ⟨r, ?_, hrest⟩
  have hne : i ≠ id := fun h => (List.nodup_cons.mp hnd).1 (h ▸ hi)
  exact (t.find?_updateKey_ne (·.undeleted) ({ · with role := .active }) (fun _ => rfl) hne).trans hr

theorem promoteCandidates_ok (hwarm : AllWarm w.instances dep ids) (hnd : ids.Nodup)
    (h : (promoteCandidates ids).outcome as w = ⟨.ok rows, w', as'⟩) :
    roleCount w'.instances dep .active = roleCount w.instances dep .active + ids.length := by
  induction ids generalizing as w rows with
  | nil => cases h; rfl
  | cons id ids ih =>
    obtain ⟨row, w₁, as₁, hstep, h⟩ := outcome_bind_ok h
    obtain ⟨rows', w₂, as₂, hrest, h⟩ := outcome_bind_ok h
    cases h
    rw [context_ok, outcome_ofCall] at hstep
    simp only [Effect.exec, Action.prog, Prog.lift, Prog.run, Outcome.mk.injEq] at hstep
    obtain ⟨-, rfl⟩ := instances_step_ok (Prod.ext hstep.1 hstep.2.1)
    have hwarm' := hwarm.promote (as.headD default).now hnd
    rw [ih hwarm' (List.nodup_cons.mp hnd).2 hrest, World.withInstances_instances,
      roleCount_promote hwarm, List.length_cons]
    omega

theorem allWarm_candidates :
    AllWarm w.instances dep (warmPoolPromotionCandidates (w.instancesOf dep) desired) := by
  intro id hid
  obtain ⟨r, hr, rfl⟩ := List.mem_map.mp hid
  have hr' := List.mem_filter.mp (List.mem_of_mem_take hr)
  obtain ⟨hmem, hsel⟩ := Table.mem_selectBy.mp hr'.1
  simp only [Bool.and_eq_true, beq_iff_eq] at hsel
  have hrole : r.role = .warmPool := by simpa [isWarmPoolInstance] using hr'.2
  exact ⟨r, Table.find?_of_mem hmem, hrole, hsel.1, hsel.2⟩

theorem candidates_nodup : (warmPoolPromotionCandidates (w.instancesOf dep) desired).Nodup := by
  refine .map_on ?_ (.sublist (List.take_sublist _ _) (.filter _ (Table.selectBy_nodup ..)))
  intro r hr r' hr' hid
  have hmem : ∀ x, x ∈ ((w.instancesOf dep).filter isWarmPoolInstance).take
      (desired - activeInstanceCount (w.instancesOf dep)).toNat → x ∈ w.instances := fun x hx =>
    (Table.mem_selectBy.mp (List.mem_filter.mp (List.mem_of_mem_take hx)).1).1
  exact Table.eq_of_key_eq (hmem r hr) (hmem r' hr') hid

theorem candidates_length :
    (warmPoolPromotionCandidates (w.instancesOf dep) desired).length =
      min (desired - roleCount w.instances dep .active).toNat
        (roleCount w.instances dep .warmPool) := by
  have hactive := w.countP_instancesOf dep .active
  have hwarm := w.countP_instancesOf dep .warmPool
  rw [List.countP_eq_length_filter] at hwarm
  rw [warmPoolPromotionCandidates, List.length_map, List.length_take]
  change min (desired - (w.instancesOf dep).countP (·.role == .active)).toNat
    ((w.instancesOf dep).filter (·.role == .warmPool)).length = _
  rw [hactive, hwarm]

theorem activateWarmPoolInstances_ok
    (h : (activateWarmPoolInstances (w.instancesOf dep) desired).outcome as w = ⟨.ok l, w', as'⟩) :
    roleCount w'.instances dep .active = roleCount w.instances dep .active +
      min (desired - roleCount w.instances dep .active).toNat
        (roleCount w.instances dep .warmPool) := by
  dsimp only [activateWarmPoolInstances] at h
  rw [← candidates_length]
  split at h
  · next hempty =>
    cases h
    rw [List.isEmpty_iff.mp hempty]
    rfl
  · obtain ⟨rows, w₁, as₁, hpromote, h⟩ := outcome_bind_ok h
    cases h
    exact promoteCandidates_ok allWarm_candidates candidates_nodup hpromote

def drainingInstance : DeploymentInstance :=
  { id := 20, deploymentId := 10, serverId := some 5, vmId := some 30, status := .running }

def pooledInstance : DeploymentInstance :=
  { id := 21, deploymentId := 10, serverId := some 6, vmId := some 31, role := .warmPool,
    status := .stopped }

def surgeWorld : World := {
  servers := ⟨[{ id := 5, status := .draining }, { id := 6 }], by decide⟩
  instances := ⟨[drainingInstance, pooledInstance], by decide⟩ }

def surgeStatuses : List (Id × ServerStatus) := [(5, .draining)]

end Kindling
