import Kindling.Lib.Interleave
import Kindling.Verify.Draining

/-!
# Removed instances and the runtimes

An instance whose row is soft-deleted should not be running anywhere. Every server reconciles every
deployment, but a stop reaches only the runtime of the server that makes it.
-/

namespace Kindling

open Fallible

def World.gone (w : World) (i : Id) : Bool := (w.instances.find? i).any (·.deletedAt.isSome)

/-- No instance with a deleted row is running. -/
def NoLeftovers (w : World) : Prop := ∀ g ∈ w.running, w.gone g.inst = false

/-- Every runtime that has the instance running is the deployer's own. -/
def World.runsOnlyOn (w : World) (d : Deployer) (i : Id) : Bool :=
  w.running.all fun g => g.inst != i || (d.rt.isSome && g.server == d.serverId)

/-- From one state to the other, at most the rows of instances in `D` have been deleted, and at most
instances in `R` have been started. -/
structure Changes (D R : Id → Prop) (w w' : World) : Prop where
  gone : ∀ i, w'.gone i = true → w.gone i = true ∨ D i
  running : ∀ g ∈ w'.running, g ∈ w.running ∨ R g.inst

namespace Changes
variable {D R : Id → Prop} {w w' w'' : World}

theorem refl : Changes D R w w := ⟨fun _ => .inl, fun _ => .inl⟩

theorem trans (h : Changes D R w w') (h' : Changes D R w' w'') : Changes D R w w'' where
  gone i hi := (h'.gone i hi).elim (h.gone i) .inr
  running g hg := (h'.running g hg).elim (h.running g) .inr

theorem of_gone (hrun : w'.running = w.running)
    (h : ∀ i, w'.gone i = true → w.gone i = true ∨ D i) : Changes D R w w' :=
  ⟨h, fun _ hg => .inl (hrun ▸ hg)⟩

end Changes

/-- Nothing is left over when what has been deleted was not running, and what has been started was
not deleted. -/
theorem NoLeftovers.changes (h : NoLeftovers w) (hc : Changes D R w w')
    (hD : ∀ g ∈ w'.running, ¬D g.inst) (hR : ∀ i, R i → w.gone i = false) :
    NoLeftovers w' := by
  intro g hg
  refine Bool.eq_false_iff.mpr fun hgone => ?_
  have hold := (hc.gone g.inst hgone).resolve_right (hD g hg)
  rcases hc.running g hg with hg' | hg'
  · exact Bool.eq_false_iff.mp (h g hg') hold
  · exact Bool.eq_false_iff.mp (hR g.inst hg') hold

/-! ## What operations change -/

/-- Statements that delete at most the rows of instances in `D`. -/
def Stmt.Deletes (D : Id → Prop) (β : Type) : Stmt β → Prop
  | .instances (.softDelete i) => D i
  | _ => True

/-- Operations that delete at most rows in `D` and start at most instances in `R`. -/
def Op.Changes (D R : Id → Prop) (β : Type) : Op β → Prop
  | .db s => s.Deletes D
  | .tx p => p.Uses (Stmt.Deletes D)
  | .runtime _ (.start inst) | .runtime _ (.startClone inst ..) => R inst.id
  | .runtime _ (.resume i) | .runtime _ (.finalizeMigrationTarget i) => R i
  | _ => True

theorem Within.changes (h : Within R p) : Uses (Op.Changes R.deletes R.starts) p := by
  have hdeletes : ∀ {β : Type} {s : Stmt β}, s.Within R → s.Deletes R.deletes := by
    intro β s hs
    cases s with
    | instances s => cases s <;> first | exact hs | trivial
    | _ => trivial
  refine h.mono fun β op hop => ?_
  cases op with
  | db s => exact hdeletes hop
  | tx p => exact .mono hop fun _ _ hs => hdeletes hs.within
  | runtime server c => cases c <;> exact hop
  | _ => trivial

theorem InstanceStmt.gone_exec (h : (Stmt.instances s).Deletes D) (now : Time) (t : InstanceTable)
    (i : Id) (hi : ((s.exec now t).2.find? i).any (·.deletedAt.isSome) = true) :
    (t.find? i).any (·.deletedAt.isSome) = true ∨ D i := by
  cases hr : t.find? i with
  | none => rcases s.find?_exec_new now hr with hnew | ⟨dep, hnew⟩ <;> rw [hnew] at hi <;> cases hi
  | some r =>
    have hid : r.id = i := Table.find?_key hr
    rw [s.find?_exec now hr] at hi
    split at hi
    · next htarget =>
      cases s with
      | softDelete j =>
        simp only [targets, hid, beq_iff_eq] at htarget
        exact .inr (htarget ▸ h)
      | _ => exact .inl hi
    · exact .inl hi

theorem startGuest_changes (h : R g.inst) (w : World) : Changes D R w (w.startGuest g) := by
  refine ⟨fun _ => .inl, fun x hx => ?_⟩
  rcases List.mem_cons.mp hx with rfl | hx
  · exact .inr h
  · exact .inl (List.mem_filter.mp hx).1

theorem RuntimeCall.step_changes (h : (Op.runtime server c).Changes D R) (a : Answer) (w : World) :
    Changes D R w (c.step server a w).2 := by
  cases c with
  | start | startClone | finalizeMigrationTarget =>
    dsimp only [RuntimeCall.step]
    split
    · exact .refl
    · exact startGuest_changes h w
  | resume i =>
    dsimp only [RuntimeCall.step]
    split
    · exact .refl
    split
    · exact .refl
    · next g hg =>
      have hinst : g.inst = i := by
        have := List.find?_some hg
        simp only [Guest.is, Bool.and_eq_true, beq_iff_eq] at this
        exact this.2
      exact ⟨fun _ => .inl, (startGuest_changes (D := D) (hinst ▸ h) w).running⟩
  | suspend i =>
    dsimp only [RuntimeCall.step]
    split
    · exact .refl
    split
    · exact .refl
    · exact ⟨fun _ => .inl, fun x hx => .inl (List.mem_filter.mp hx).1⟩
  | stop i =>
    dsimp only [RuntimeCall.step]
    split
    · exact .refl
    · exact ⟨fun _ => .inl, fun x hx => .inl (List.mem_filter.mp hx).1⟩
  | createTemplate | healthy | migrationMetadata => exact .refl

theorem Stmt.Deletes.step {s : Stmt β} (h : s.Deletes D) (a : Answer) (w : World) :
    Changes D R w (s.step a w).2 := by
  cases s with
  | query q => exact .refl
  | newUUID => exact .refl
  | instances s => exact onTable_elim .refl fun _ => .of_gone rfl (InstanceStmt.gone_exec h a.now _)
  | _ =>
    refine onTable_elim .refl fun _ => .of_gone ?_ fun _ => ?_
    · rfl
    · exact .inl

theorem Op.Changes.exec {op : Op β} (h : op.Changes D R) (as : List Answer) (w : World) :
    Kindling.Changes D R w (op.exec as w).state := by
  cases op with
  | db s => exact Stmt.Deletes.step h _ w
  | tx p =>
    refine Op.tx_elim .refl (Prog.Uses.run h (fun _ s hs as w' hw => ?_) .refl)
    exact hw.trans (Stmt.Deletes.step hs _ w')
  | runtime server c => exact RuntimeCall.step_changes h _ w
  | _ => exact .of_gone rfl fun _ => .inl

theorem uses_changes (h : Uses (Op.Changes D R) p) : Ensures G p (fun _ w' => Changes D R w w') w :=
  h.ensures (fun _ _ hop as w' hw => hw.trans (hop.exec as w')) .refl

/-- Stopping an instance does not fail. -/
def Op.stops : Op β → List Answer → Bool
  | .runtime _ (.stop _), as => !(as.headD default).fail
  | _, _ => true

def stopGuard : Prog.Guard Op Answer World := fun _ op as _ => op.stops as = true

/-- The program leaves no deleted instance running. -/
def LeavesNone (p : Go Op β) (w : World) : Prop :=
  Ensures stopGuard p (fun _ w' => NoLeftovers w') w

section steps
variable {w : World}

theorem LeavesNone.bind (h : LeavesNone p w) (hf : ∀ a w', NoLeftovers w' → LeavesNone (f a) w') :
    LeavesNone (p >>= f) w :=
  Ensures.bind h hf fun _ _ => id

/-- A program that neither deletes rows nor starts anything. -/
theorem LeavesNone.of_tame (h : Within ⟨fun _ => False, fun _ => True, fun _ => False, True, True⟩ p)
    (hw : NoLeftovers w) : LeavesNone p w :=
  (uses_changes h.changes).mono fun _ _ hc => hw.changes hc (fun _ _ => id) fun _ => False.elim

/-- An instance that is not running may be deleted. -/
theorem LeavesNone.of_stopped (h : Within { deletes := (· = i) } p) (hw : NoLeftovers w)
    (hstopped : ∀ g ∈ w.running, g.inst ≠ i) : LeavesNone p w :=
  (uses_changes h.changes).mono fun _ _ hc => hw.changes hc
    (fun g hg => hstopped g ((hc.running g hg).resolve_right id)) fun _ => False.elim

/-- An instance that is not deleted may be started. -/
theorem LeavesNone.of_present (h : Uses (Op.Changes (fun _ => False) (· = i)) p)
    (hw : NoLeftovers w) (hpresent : w.gone i = false) : LeavesNone p w :=
  (uses_changes h).mono fun _ _ hc => hw.changes hc (fun _ _ => id) fun _ hi => hi ▸ hpresent

theorem runsOnlyOn_iff : w.runsOnlyOn d i = true ↔
    ∀ g ∈ w.running, g.inst = i → d.rt.isSome = true ∧ g.server = d.serverId := by
  simp [World.runsOnlyOn, ← imp_iff_not_or]

/-- Nothing is left over, and the deployer's own runtime is the only one to have the instance. -/
structure Stoppable (d : Deployer) (i : Id) (w : World) : Prop where
  none : NoLeftovers w
  only : w.runsOnlyOn d i = true

theorem Stoppable.tame (h : Stoppable d i w) (hc : Changes (fun _ => False) (fun _ => False) w w') :
    Stoppable d i w' where
  none := h.none.changes hc (fun _ _ => id) fun _ => False.elim
  only := runsOnlyOn_iff.mpr fun g hg =>
    runsOnlyOn_iff.mp h.only g ((hc.running g hg).resolve_right id)

theorem stopQuietly_ensures (hw : Stoppable d i w) :
    Ensures stopGuard (d.stopQuietly i)
      (fun _ w' => NoLeftovers w' ∧ ∀ g ∈ w'.running, g.inst ≠ i) w := by
  unfold Deployer.stopQuietly
  split
  · refine .attempt_bind (.ofCall fun as hg => ?_) fun _ _ h => .pure h
    have hok : (as.headD default).fail = false := (Bool.not_eq_true' _).mp hg
    have hstate : (Effect.exec (Op.runtime d.serverId (.stop i)) as w).state =
        w.stopGuest d.serverId i := by
      change ((RuntimeCall.stop i).step d.serverId (as.headD default) w).2 = _
      rw [RuntimeCall.step, if_neg (Bool.eq_false_iff.mp hok)]
    rw [hstate]
    refine ⟨fun g hg => hw.none g (List.mem_filter.mp hg).1, fun g hg hi => ?_⟩
    obtain ⟨hmem, hnot⟩ := List.mem_filter.mp hg
    have hserver := (runsOnlyOn_iff.mp hw.only g hmem hi).2
    simp [Guest.is, hserver, hi] at hnot
  · next hrt =>
    exact .pure ⟨hw.none, fun g hg hi => hrt (runsOnlyOn_iff.mp hw.only g hg hi).1⟩

end steps

section removal
variable {d : Deployer} {inst : DeploymentInstance} {w : World}

theorem deleteInstancePermanently_none (hw : Stoppable d inst.id w) :
    LeavesNone (deleteInstancePermanently d inst) w := by
  have hdelete : Within { deletes := (· = inst.id) }
      (discard (instanceStmt (.softDelete inst.id))) := discard_uses (.ofCall rfl)
  refine Ensures.bind (stopQuietly_ensures hw) (fun _ w₁ h₁ => ?_) fun _ _ h => h.1
  refine LeavesNone.of_stopped ?_ h₁.1 h₁.2
  split
  · exact .bind (discard_uses ((detachProjectVolumeForInstance_quiet ..).within)) fun _ =>
      .bind (discard_uses (.ofCall trivial)) fun _ => hdelete
  · exact hdelete

theorem suspendToWarmPool_none (hw : Stoppable d inst.id w) :
    Ensures stopGuard (suspendToWarmPool d inst vm)
      (fun r w' => NoLeftovers w' ∧ (r = .ok false → Stoppable d inst.id w')) w := by
  have hkeep : ∀ {α : Type} {p : Go Op α} {w}, Quiet p → Stoppable d inst.id w →
      Ensures stopGuard p (fun _ w' => Stoppable d inst.id w') w := fun hp hw =>
    (uses_changes (Within.changes (R := {}) hp.within)).mono fun _ _ hc => hw.tame hc
  have hdelete : ∀ w, Stoppable d inst.id w →
      Ensures stopGuard (do deleteInstancePermanently d inst; return true)
        (fun r w' => NoLeftovers w' ∧ (r = .ok false → Stoppable d inst.id w')) w := by
    intro w hw
    refine .bind (deleteInstancePermanently_none hw) (fun _ w' h => .pure ⟨h, ?_⟩)
      fun _ _ h => ⟨h, ?_⟩ <;> exact nofun
  refine .attempt_bind (hkeep (instanceStmt_quiet trivial) hw) fun r w₁ hw₁ => ?_
  split
  · exact hdelete w₁ hw₁
  refine .attempt_bind (hkeep (instanceStmt_quiet trivial) hw₁) fun r w₂ hw₂ => ?_
  split
  · exact hdelete w₂ hw₂
  refine .attempt_bind (hkeep (vmStmt_quiet trivial) hw₂) fun r w₃ hw₃ => ?_
  split
  · exact hdelete w₃ hw₃
  refine .attempt_bind (hkeep (runtime_quiet trivial) hw₃) fun r w₄ hw₄ => ?_
  split
  · exact .pure ⟨hw₄.none, fun _ => hw₄⟩
  refine .bind (hkeep suspendedSnapshotRef_quiet hw₄) (fun ref w₅ hw₅ => ?_)
    fun _ _ h => ⟨h.none, nofun⟩
  refine .attempt_bind (hkeep (vmStmt_quiet trivial) hw₅) fun r w₆ hw₆ => ?_
  split
  · exact .pure ⟨hw₆.none, nofun⟩
  · exact .pure ⟨hw₆.none, fun _ => hw₆⟩

theorem cleanupInstance_none (hw : Stoppable d inst.id w) :
    LeavesNone (cleanupInstance d inst) w := by
  refine Ensures.bind
    ((uses_changes (Within.changes (R := {}) suspendableVM_quiet.within)).mono fun _ _ hc => hw.tame hc)
    (fun vm w₁ hw₁ => ?_) fun _ _ h => h.none
  split
  · refine .bind (suspendToWarmPool_none hw₁) (fun done w₂ h => ?_) fun _ _ h => h.1
    split
    · exact .pure h.1
    · next hdone =>
      rw [Bool.not_eq_true] at hdone
      exact deleteInstancePermanently_none (h.2 (by rw [hdone]))
  · exact deleteInstancePermanently_none hw₁

end removal

section assignment
variable {d : Deployer} {inst : DeploymentInstance} {w : World}

/-- An instance on a draining server that the assignment deletes. -/
def World.retires (w : World) (inst : DeploymentInstance) : Bool :=
  w.onDrainingServer inst && (isWarmPoolInstance inst || w.vmSuspended inst)

theorem leaveDrainingServer_none (hs : inst.serverId = some s) (hw : NoLeftovers w)
    (hsafe : w.runsOnlyOn d inst.id = true ∨ w.retires inst = false) :
    LeavesNone (leaveDrainingServer d inst s) w := by
  have hdelete : w.retires inst = true →
      LeavesNone (do deleteInstancePermanently d inst; return inst) w := by
    intro hretires
    refine .bind (deleteInstancePermanently_none ⟨hw, ?_⟩) fun _ _ h => .pure h
    exact hsafe.resolve_right fun h => Bool.eq_false_iff.mp h hretires
  refine .attempt_bind read_ensures fun r w' hr => ?_
  cases r with
  | error e =>
    obtain rfl : w' = w := hr
    exact .pure hw
  | ok srv =>
    obtain ⟨rfl, now, hsrv⟩ := hr
    dsimp only
    split
    · exact .pure hw
    · next hdraining =>
      have hdrain : w'.onDrainingServer inst = true := by
        have hfind : w'.servers.find? s = some srv := one_ok hsrv
        simpa [World.onDrainingServer, hs, hfind] using hdraining
      split
      · next hwarm => exact hdelete (by rw [World.retires, hdrain, hwarm]; rfl)
      · refine .bind_yields hasSuspendedVM_ensures (fun suspended w₁ h₁ => ?_) fun _ _ h => h ▸ hw
        obtain ⟨rfl, hsusp⟩ := h₁
        split
        · next hb => exact hdelete (by rw [World.retires, hdrain, hsusp hb, Bool.or_true]; rfl)
        · split
          · exact LeavesNone.of_tame (releaseInstance_within trivial) hw
          · exact .pure hw

theorem reconcileInstanceServerAssignment_none (hw : NoLeftovers w)
    (hsafe : w.runsOnlyOn d inst.id = true ∨ w.retires inst = false) :
    LeavesNone (reconcileInstanceServerAssignment d dep inst vol) w := by
  unfold reconcileInstanceServerAssignment
  split
  · next s hs =>
    split
    · refine .bind_yields (.wrap_yields projectVolumeForDeployment_ensures)
        (fun o w' h => ?_) fun _ _ h => h ▸ hw
      obtain ⟨rfl, -⟩ := h
      split
      · split
        · exact LeavesNone.of_tame (releaseInstance_within trivial) hw
        · exact leaveDrainingServer_none hs hw hsafe
      · exact leaveDrainingServer_none hs hw hsafe
    · exact leaveDrainingServer_none hs hw hsafe
  · exact .pure hw

end assignment

section starting
variable {w : World}

theorem updateStatus_ensures (hw : NoLeftovers w) :
    Ensures G (instanceStmt (.updateStatus i st))
      (Yields (fun _ w' => NoLeftovers w' ∧ w'.gone i = false) NoLeftovers) w := by
  have hnone : ∀ now, NoLeftovers
      (w.withInstances ((InstanceStmt.updateStatus i st).exec now w.instances).2) := fun now =>
    hw.changes (D := fun _ => False)
      (.of_gone rfl (InstanceStmt.gone_exec (s := .updateStatus i st) trivial now w.instances)) (fun _ _ => id)
      fun _ => False.elim
  refine instanceStmt_ensures hw fun now => ?_
  cases hres : ((InstanceStmt.updateStatus i st).exec now w.instances).1 with
  | error e => exact hnone now
  | ok r =>
    refine ⟨hnone now, ?_⟩
    obtain ⟨r₀, hr₀, hundeleted, -, -⟩ := Table.updateKey_fst_eq_some (returning_ok hres)
    rw [World.gone, World.withInstances_instances, InstanceStmt.find?_exec _ now hr₀]
    have hdel : r₀.deletedAt = none := by simpa [DeploymentInstance.undeleted] using hundeleted
    split <;> simp [InstanceStmt.change, hdel]

def startReach (i : Id) : Reach := { releases := fun _ => True, starts := (· = i), attaches := True }

theorem startNewInstance_none {ref : String} (hw : NoLeftovers w) :
    LeavesNone (startNewInstance d dep inst imageRef env ref src vol) w := by
  unfold startNewInstance
  split
  · refine .of_tame ?_ hw
    split
    · exact .bind (context_uses (.ofCall trivial)) fun _ => .pure
    · exact .pure
  refine .bind_yields (.wrap_yields (updateStatus_ensures hw)) (fun _ w₁ h₁ => ?_) fun _ _ h => h
  refine LeavesNone.of_present (Within.changes (R := startReach inst.id) ?_) h₁.1 h₁.2
  refine .bind (launchInstance_within rfl) fun started =>
    .bind (.attempt (persistInstanceVMMetadata_within trivial)) fun r => ?_
  split
  · exact .bind (discard_uses (.ofCall trivial)) fun _ =>
      .bind (markFailed_quiet _).within fun _ => .throw
  · exact (finishStart_quiet ..).within

theorem resumeOnRuntime_none (hw : NoLeftovers w) :
    LeavesNone (resumeOnRuntime d dep inst vm vol) w := by
  refine .bind_yields (.wrap_yields (updateStatus_ensures hw)) (fun _ w₁ h₁ => ?_) fun _ _ h => h
  refine LeavesNone.of_present (Within.changes (R := startReach inst.id) ?_) h₁.1 h₁.2
  refine .bind (.attempt (.ofCall rfl)) fun r => ?_
  split
  · split
    · exact resetLostSuspended_within trivial
    · exact .throw
  · exact recordResumed_quiet.within

theorem tryResumeFromSuspended_none (hw : NoLeftovers w) :
    LeavesNone (tryResumeFromSuspended d dep inst vol) w := by
  unfold tryResumeFromSuspended
  split
  · exact .pure hw
  refine .bind (.of_tame (.attempt (.ofCall trivial)) hw) fun r w₁ hw₁ => ?_
  split
  · exact .pure hw₁
  split
  · exact .pure hw₁
  split
  · exact .pure hw₁
  split
  · exact .bind (.of_tame (context_uses (.ofCall trivial)) hw₁) fun _ w₂ hw₂ =>
      resumeOnRuntime_none hw₂
  · exact resumeOnRuntime_none hw₁

theorem commitOnDestination_starts :
    Uses (Op.Changes (fun _ => False) (· = mig.deploymentInstanceId)) (commitOnDestination d mig) := by
  have htx : ∀ inst vm ref ip port, Uses (Stmt.Deletes fun _ => False)
      (commitMigrationTx mig inst vm ref ip port) := by
    simp [commitMigrationTx, Stmt.Deletes, context]
  refine .bind (.attempt (.ofCall rfl)) fun r => ?_
  split
  · exact discard_uses (.ofCall trivial)
  · exact discard_uses (.ofCall trivial)
  refine .bind (context_uses (.ofCall trivial)) fun inst =>
    .bind (context_uses (.ofCall trivial)) fun vm => .bind (.ofTotal (htx ..)) fun o => ?_
  cases o <;> simp [Op.Changes, discard, Deployer.runtime]

end starting

/-! ## Any interleaving -/

/-- The condition under which a step leaves no deleted instance running: an instance is removed by a
server whose own runtime is the only one to have it, and a migration is committed for an instance
that is not deleted. -/
def Task.stopSafe (w : World) : Task β → Bool
  | .deleteInstancePermanently d inst | .cleanupInstance d inst => w.runsOnlyOn d inst.id
  | .reconcileInstanceServerAssignment d _ inst _ => w.runsOnlyOn d inst.id || !w.retires inst
  | .commitOnDestination _ mig => !w.gone mig.deploymentInstanceId
  | _ => true

/-- Steps meet their condition, and stops succeed. -/
def removalGuard : Prog.Guard Action Answer World
  | _, .task t, as, w => t.stopSafe w = true ∧ Meets stopGuard t.prog as w
  | _, _, _, _ => True

theorem Task.leavesNone (t : Task β) (hw : NoLeftovers w) (h : t.stopSafe w = true) :
    LeavesNone t.prog w := by
  cases t with
  | deleteInstancePermanently d inst => exact deleteInstancePermanently_none ⟨hw, h⟩
  | cleanupInstance d inst => exact cleanupInstance_none ⟨hw, h⟩
  | repairInstance d inst => exact .of_tame (repairInstance_within trivial) hw
  | reconcileInstanceServerAssignment d dep inst vol =>
    rw [Task.stopSafe, Bool.or_eq_true, Bool.not_eq_true'] at h
    exact reconcileInstanceServerAssignment_none hw h
  | tryResumeFromSuspended d dep inst vol => exact tryResumeFromSuspended_none hw
  | resetStaleInstance d dep inst vol => exact .of_tame (resetStaleInstance_within trivial) hw
  | assignServerIfNeeded dep inst vol =>
    exact .of_tame assignServerIfNeeded_quiet.within hw
  | startNewInstance d dep inst imageRef env ref src vol =>
    exact startNewInstance_none hw
  | ensureInstanceCountUp d dep desired =>
    exact .of_tame ensureInstanceCountUp_quiet.within hw
  | ensureProjectVolumeServer vol =>
    exact .of_tame ensureProjectVolumeServer_quiet.within hw
  | recoverDeadServer s => exact .of_tame (recoverDeadServer_within trivial) hw
  | detectDeadServer s => exact .of_tame (detectDeadServer_within trivial) hw
  | commitOnDestination d mig =>
    exact .of_present commitOnDestination_starts hw ((Bool.not_eq_true' _).mp h)

theorem Action.exec_none (a : Action β) (as : List Answer) (hw : NoLeftovers w)
    (h : removalGuard β a as w) : NoLeftovers (Effect.exec a as w).state := by
  have htame : ∀ op : Op β, op.Changes (fun _ => False) (fun _ => False) →
      NoLeftovers (Prog.run (.lift op) as w).state := fun op hop =>
    hw.changes (hop.exec as w) (fun _ _ => id) fun _ => False.elim
  cases a with
  | task t => exact Ensures.outcome (t.leavesNone hw h.1) h.2
  | _ => exact htame _ trivial

instance : Decidable (NoLeftovers w) :=
  inferInstanceAs (Decidable (∀ g ∈ w.running, w.gone g.inst = false))

/-- A deployment that is about to replace an older one, whose instance is on the given server. -/
def rolloutOver (server : Id) : World := { promotableWorld olderRevision olderRevision_other with
    servers := ⟨[{ id := 5 }, { id := 6 }], by decide⟩
    instances := ⟨[
      { id := 20, deploymentId := 10, serverId := some 5, vmId := some 30, status := .running },
      { id := 21, deploymentId := 11, serverId := some server, vmId := some 31, status := .running }],
      by simp⟩
    vms := ⟨[ { id := 30, serverId := 5, imageId := 4, status := .running },
      { id := 31, serverId := server, imageId := 4, status := .running }], by simp⟩
    running := [{ server := 5, inst := 20 }, { server, inst := 21 }] }

instance : Decidable (stopGuard β op as w) := inferInstanceAs (Decidable (_ = true))

instance : Decidable (removalGuard β a as w) := by
  induction a using Action.casesOn <;> first | exact instDecidableAnd | exact instDecidableTrue

end Kindling
