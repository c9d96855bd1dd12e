import Kindling.Deploy.Executions

/-!
# What the steps of a pass leave alone

The functions that act on one instance write instances, VMs, volumes and servers, and call the
runtime; the commit of a migration writes migrations too. They write neither deployments, nor
domains, nor builds. Most of their parts are
quiet: they start nothing in a runtime, create no VM, and neither attach a VM to an instance nor
release or delete one.
-/

namespace Kindling

open Fallible

/-- Statements that write neither deployments, nor domains, nor builds. -/
def Stmt.SparesControl (β : Type) : Stmt β → Prop
  | .deployments _ | .domains _ | .builds _ => False
  | _ => True

def Op.SparesControl (β : Type) : Op β → Prop
  | .db s => s.SparesControl
  | .tx p => p.Uses Stmt.SparesControl
  | _ => True

/-- Statements that write no migrations either. -/
def Stmt.InstanceLevel (β : Type) : Stmt β → Prop
  | .deployments _ | .domains _ | .builds _ | .migrations _ => False
  | _ => True

def Op.InstanceLevel (β : Type) : Op β → Prop
  | .db s => s.InstanceLevel
  | .tx p => p.Uses Stmt.InstanceLevel
  | _ => True

theorem Stmt.InstanceLevel.sparesControl {s : Stmt β} (h : s.InstanceLevel) : s.SparesControl := by
  cases s <;> first | exact h | trivial

theorem Op.InstanceLevel.sparesControl {op : Op β} (h : op.InstanceLevel) : op.SparesControl := by
  cases op with
  | db s => exact Stmt.InstanceLevel.sparesControl h
  | tx p => exact .mono h fun _ _ => Stmt.InstanceLevel.sparesControl
  | _ => trivial

abbrev InstanceLevel (p : Go Op β) : Prop := Uses Op.InstanceLevel p

/-- Statements that neither attach a VM to an instance, nor release an instance, nor delete it. -/
def InstanceStmt.Quiet : InstanceStmt β → Prop
  | .create .. | .updateServer .. | .updateStatus .. | .updateRole .. => True
  | _ => False

def VmStmt.Quiet : VmStmt β → Prop
  | .create _ => False
  | _ => True

def RuntimeCall.Quiet : RuntimeCall β → Prop
  | .start _ | .startClone .. | .resume _ | .finalizeMigrationTarget _ => False
  | _ => True

def Stmt.Quiet (β : Type) : Stmt β → Prop
  | .deployments _ | .domains _ | .builds _ | .migrations _ => False
  | .instances s => s.Quiet
  | .vms s => s.Quiet
  | _ => True

def Op.Quiet (β : Type) : Op β → Prop
  | .db s => s.Quiet
  | .tx p => p.Uses Stmt.Quiet
  | .runtime _ c => c.Quiet
  | _ => True

abbrev Quiet (p : Go Op β) : Prop := Uses Op.Quiet p

theorem Stmt.Quiet.level {s : Stmt β} (h : s.Quiet) : s.InstanceLevel := by
  cases s <;> first | exact h | trivial

/-- Whose rows may be deleted, which instances may lose their VM and which may be started, and whether
VMs may be created and attached, or the instances of a dead server reset. -/
structure Reach where
  deletes : Id → Prop := fun _ => False
  releases : Id → Prop := fun _ => False
  starts : Id → Prop := fun _ => False
  attaches : Prop := False
  resets : Prop := False

def Stmt.Within (R : Reach) (β : Type) : Stmt β → Prop
  | .deployments _ | .domains _ | .builds _ | .migrations _ => False
  | .instances (.softDelete i) => R.deletes i
  | .instances (.prepareRetry i) | .instances (.resetForRetry i) => R.releases i
  | .instances (.attachVM ..) | .vms (.create _) => R.attaches
  | .instances (.resetForDeadServer _) => R.resets
  | _ => True

def Op.Within (R : Reach) (β : Type) : Op β → Prop
  | .db s => s.Within R
  | .tx p => p.Uses Stmt.Quiet
  | .runtime _ (.start inst) | .runtime _ (.startClone inst ..) => R.starts inst.id
  | .runtime _ (.resume i) | .runtime _ (.finalizeMigrationTarget i) => R.starts i
  | _ => True

abbrev Within (R : Reach) (p : Go Op β) : Prop := Uses (Op.Within R) p

theorem Stmt.Quiet.within {s : Stmt β} (h : s.Quiet) : s.Within R := by
  cases s with
  | instances s | vms s => cases s <;> trivial
  | _ => trivial

theorem Quiet.within (h : Quiet p) : Within R p := by
  refine h.mono fun β op hop => ?_
  cases op with
  | db s => exact Stmt.Quiet.within hop
  | tx p => exact hop
  | runtime server c => cases c <;> trivial
  | _ => trivial

theorem Op.Within.level {op : Op β} (h : op.Within R) : op.InstanceLevel := by
  cases op with
  | db s => cases s <;> trivial
  | tx p => exact .mono h fun _ _ => Stmt.Quiet.level
  | _ => trivial

attribute [local simp] query volumeStmt instanceStmt vmStmt Deployer.runtime context discard
  Reads.read WritesVolumes.volumes Op.Quiet Stmt.Quiet InstanceStmt.Quiet VmStmt.Quiet
  RuntimeCall.Quiet Op.Within Stmt.Within

attribute [local simp low] Quiet.within

@[simp] theorem instanceStmt_quiet (h : s.Quiet) : Quiet (instanceStmt s) := .ofCall h

@[simp] theorem vmStmt_quiet (h : s.Quiet) : Quiet (vmStmt s) := .ofCall h

@[simp] theorem runtime_quiet {d : Deployer} {c : RuntimeCall (Except Err β)} (h : c.Quiet) :
    Quiet (d.runtime c) := .ofCall h

@[simp] theorem projectVolumeForDeployment_quiet : Quiet (projectVolumeForDeployment dep) := by
  simp [projectVolumeForDeployment]

@[simp] theorem markProjectVolumeUnavailable_quiet : Quiet (markProjectVolumeUnavailable p m) := by
  simp [markProjectVolumeUnavailable]

@[simp] theorem loadCandidates_quiet : Quiet (loadCandidates l) := by
  induction l with
  | nil => exact .pure
  | cons s l ih => simp [loadCandidates, ih]

@[simp] theorem findLeastLoadedCloudHypervisorServer_quiet :
    Quiet findLeastLoadedCloudHypervisorServer := by
  simp [findLeastLoadedCloudHypervisorServer]
  intros
  split <;> simp

@[simp] theorem serverSupportsCloudHypervisor_quiet : Quiet (serverSupportsCloudHypervisor s) := by
  simp [serverSupportsCloudHypervisor]

@[simp] theorem checkPinnedServer_quiet : Quiet (checkPinnedServer vol s) := by
  simp [checkPinnedServer]

@[simp] theorem ensureProjectVolumeServer_quiet : Quiet (ensureProjectVolumeServer vol) := by
  unfold ensureProjectVolumeServer
  split <;> simp

@[simp] theorem detachProjectVolumeIfAttached_quiet :
    Quiet (detachProjectVolumeIfAttached p v st e) := by
  simp [detachProjectVolumeIfAttached]

@[simp] theorem detachProjectVolumeForInstance_quiet (inst : DeploymentInstance) (st : VolumeStatus)
    (e : String) : Quiet (detachProjectVolumeForInstance inst st e) := by
  unfold detachProjectVolumeForInstance
  split <;> simp

@[simp] theorem markProjectVolumeUnavailableForInstance_quiet (inst : DeploymentInstance)
    (st : ServerStatus) : Quiet (markProjectVolumeUnavailableForInstance inst st) := by
  unfold markProjectVolumeUnavailableForInstance
  split <;> simp

@[simp] theorem stopQuietly_quiet (d : Deployer) (i : Id) : Quiet (d.stopQuietly i) := by
  simp [Deployer.stopQuietly]

@[simp] theorem deleteInstancePermanently_within (hd : R.deletes inst.id) :
    Within R (deleteInstancePermanently d inst) := by
  unfold deleteInstancePermanently
  split <;> simp [hd]

@[simp] theorem suspendedSnapshotRef_quiet : Quiet (suspendedSnapshotRef d inst vm) := by
  simp [suspendedSnapshotRef]

@[simp] theorem suspendToWarmPool_within (hd : R.deletes inst.id) :
    Within R (suspendToWarmPool d inst vm) := by
  simp [suspendToWarmPool, hd]

@[simp] theorem suspendableVM_quiet : Quiet (suspendableVM d inst) := by
  unfold suspendableVM
  split <;> simp

@[simp] theorem cleanupInstance_within (hd : R.deletes inst.id) :
    Within R (cleanupInstance d inst) := by
  simp [cleanupInstance]
  intros
  split <;> simp [hd]

@[simp] theorem repairInstance_within (hr : R.releases inst.id) :
    Within R (repairInstance d inst) := by
  unfold repairInstance
  split
  · simp
    split <;> simp [hr]
  · simp

@[simp] theorem releaseInstance_within (hr : R.releases inst.id) :
    Within R (releaseInstance inst a b) := by
  simp [releaseInstance, hr]

@[simp] theorem hasSuspendedVM_quiet : Quiet (hasSuspendedVM inst) := by
  unfold hasSuspendedVM
  split <;> simp

@[simp] theorem leaveDrainingServer_within (hd : R.deletes inst.id) (hr : R.releases inst.id) :
    Within R (leaveDrainingServer d inst s) := by
  simp [leaveDrainingServer, hd, hr]

@[simp] theorem reconcileInstanceServerAssignment_within (hd : R.deletes inst.id)
    (hr : R.releases inst.id) : Within R (reconcileInstanceServerAssignment d dep inst vol) := by
  unfold reconcileInstanceServerAssignment
  split
  · simp [hd, hr]
    intros
    split <;> simp [hd, hr]
  · simp

@[simp] theorem detachFromVM_quiet (dep : Deployment) (v : Id)
    (vol : Option PersistentVolumeMount) :
    Quiet (detachFromVM dep v vol) := by
  simp [detachFromVM]

@[simp] theorem resetLostSuspended_within (hr : R.releases inst.id) :
    Within R (resetLostSuspended dep inst v vol) := by
  simp [resetLostSuspended, hr]

@[simp] theorem awaitHealthy_quiet : Quiet (awaitHealthy d addr) := by
  simp [awaitHealthy]

@[simp] theorem recordResumed_quiet : Quiet (recordResumed d inst vm addr) := by
  rcases addr with _ | ⟨ip, port⟩ <;> simp [recordResumed, recordAddress]

@[simp] theorem resumeOnRuntime_within (hr : R.releases inst.id) (hs : R.starts inst.id) :
    Within R (resumeOnRuntime d dep inst vm vol) := by
  simp [resumeOnRuntime, hr, hs]

@[simp] theorem tryResumeFromSuspended_within (hr : ∀ i, R.releases i) (hs : ∀ i, R.starts i) :
    Within R (tryResumeFromSuspended d dep inst vol) := by
  unfold tryResumeFromSuspended
  split <;> simp [hr, hs]

@[simp] theorem resetStaleInstance_within (hr : R.releases inst.id) :
    Within R (resetStaleInstance d dep inst vol) := by
  cases h : inst.vmId <;> simp [resetStaleInstance, resetInstance, hr, h]

@[simp] theorem pickServer_quiet : Quiet (pickServer dep vol) := by
  cases vol with
  | none => simp [pickServer]
  | some v =>
    simp [pickServer, Option.forall]
    intros
    split <;> simp

@[simp] theorem assignServerIfNeeded_quiet : Quiet (assignServerIfNeeded dep inst vol) := by
  simp [assignServerIfNeeded]

@[simp] theorem markFailed_quiet (inst : DeploymentInstance) : Quiet (markFailed inst) := by
  simp [markFailed]

@[simp] theorem fillLiveMigrationMetadata_quiet : Quiet (fillLiveMigrationMetadata d i md) := by
  simp [fillLiveMigrationMetadata]

@[simp] theorem coldStart_within {start : RuntimeInstance} (hs : R.starts start.id) :
    Within R (coldStart d start inst t) := by
  simp [coldStart, hs]

@[simp] theorem launchInstance_within {start : RuntimeInstance} {ref : String}
    (hs : R.starts start.id) :
    Within R (launchInstance d start ref src inst mode) := by
  simp [launchInstance, hs]

@[simp] theorem persistInstanceVMMetadata_within (ha : R.attaches) :
    Within R (persistInstanceVMMetadata i img srv vs st addr env md) := by
  rcases addr with _ | ⟨ip, port⟩ <;> cases img <;> simp [persistInstanceVMMetadata] <;>
    intros <;> split <;> simp [ha]

@[simp] theorem abandonStart_quiet : Quiet (abandonStart d inst v e) := by
  simp [abandonStart]

@[simp] theorem attachVolume_quiet : Quiet (attachVolume dep inst v vol) := by
  cases vol <;> simp [attachVolume]

@[simp] theorem finishStart_quiet (d : Deployer) (dep : Deployment) (inst : DeploymentInstance)
    (v : Id)
    (addr : Address) (vol : Option PersistentVolumeMount) :
    Quiet (finishStart d dep inst v addr vol) := by
  simp [finishStart, goLive]

@[simp] theorem startNewInstance_within {ref : String} (hs : R.starts inst.id) (ha : R.attaches) :
    Within R (startNewInstance d dep inst imageRef env ref src vol) := by
  unfold startNewInstance
  split <;> simp [startInMode, hs, ha]

theorem provisionLoop_quiet (dep : Id) (desired : Int) (relisting : String) (fuel : Nat)
    (listing : String) :
    Uses Stmt.Quiet (provisionLoop dep desired relisting fuel listing) := by
  induction fuel generalizing listing with
  | zero => exact .throw
  | succ fuel ih => simp [provisionLoop, ih]

@[simp] theorem ensureInstanceCountUp_quiet : Quiet (ensureInstanceCountUp d dep desired) := by
  unfold ensureInstanceCountUp
  split
  · exact .bind (.ofTotal (provisionLoop_quiet ..)) fun _ => .ofResult
  · exact .interp (provisionLoop_quiet ..) fun _ _ h => ⟨h, fun _ => trivial⟩

@[simp] theorem softDeleteVMs_quiet : Quiet (softDeleteVMs l) := by
  simp [softDeleteVMs]

@[simp] theorem recoverDeadServer_within (hr : R.resets) : Within R (recoverDeadServer s) := by
  simp [recoverDeadServer, hr]

@[simp] theorem detectDeadServer_within (hr : R.resets) : Within R (detectDeadServer s) := by
  simp [detectDeadServer, hr]

theorem commitMigrationTx_sparesControl :
    Uses Stmt.SparesControl (commitMigrationTx mig inst vm ref ip port) := by
  simp [commitMigrationTx, Stmt.SparesControl]

theorem commitOnDestination_sparesControl : Uses Op.SparesControl (commitOnDestination d mig) := by
  simp only [commitOnDestination, uses_bind, forall_except]
  refine ⟨by simp [Op.SparesControl], by simp [fallBack, Op.SparesControl, Stmt.SparesControl], ?_⟩
  rintro ⟨_ | ⟨ip, port⟩, ref⟩ -
  · simp [fallBack, Op.SparesControl, Stmt.SparesControl]
  · simp [Op.SparesControl, Stmt.SparesControl]
    intros
    refine ⟨commitMigrationTx_sparesControl, fun o _ => ?_⟩
    cases o <;> simp [Op.SparesControl]

theorem Task.level (t : Task β) (ht : ¬t.Commits) : InstanceLevel t.prog := by
  have h : Within ⟨fun _ => True, fun _ => True, fun _ => True, True, True⟩ t.prog := by
    cases t with
    | deleteInstancePermanently d inst => exact deleteInstancePermanently_within trivial
    | cleanupInstance d inst => exact cleanupInstance_within trivial
    | repairInstance d inst => exact repairInstance_within trivial
    | reconcileInstanceServerAssignment d dep inst vol =>
      exact reconcileInstanceServerAssignment_within trivial trivial
    | tryResumeFromSuspended d dep inst vol =>
      exact tryResumeFromSuspended_within (fun _ => trivial) fun _ => trivial
    | resetStaleInstance d dep inst vol => exact resetStaleInstance_within trivial
    | assignServerIfNeeded dep inst vol => exact assignServerIfNeeded_quiet.within
    | startNewInstance d dep inst imageRef env ref src vol =>
      exact startNewInstance_within trivial trivial
    | ensureInstanceCountUp d dep desired => exact ensureInstanceCountUp_quiet.within
    | ensureProjectVolumeServer vol => exact ensureProjectVolumeServer_quiet.within
    | recoverDeadServer s => exact recoverDeadServer_within trivial
    | detectDeadServer s => exact detectDeadServer_within trivial
    | commitOnDestination d mig => exact (ht trivial).elim
  exact h.mono fun _ _ => Op.Within.level

theorem Task.sparesControl (t : Task β) : Uses Op.SparesControl t.prog := by
  by_cases ht : t.Commits
  · cases t with
    | commitOnDestination d mig => exact commitOnDestination_sparesControl
    | _ => exact ht.elim
  · exact (t.level ht).mono fun _ _ => Op.InstanceLevel.sparesControl

theorem RuntimeCall.step_state (server : Id) (c : RuntimeCall β) (a : Answer) (w : World) :
    ∃ r s, (c.step server a w).2 = { w with running := r, suspended := s } := by
  cases c <;> simp only [RuntimeCall.step] <;> (try split) <;> (try split) <;> exact ⟨_, _, rfl⟩

/-- A statement that fails changes nothing. -/
theorem onTable_elim {P : World → Prop} {get : World → τ} {set : τ → World → World} (hw : P w)
    (hset : a.fail = false → P (set (f (get w)).2 w)) : P (onTable a f get set w).2 := by
  unfold onTable
  split
  · exact hw
  · next hfail => exact hset (Bool.eq_false_iff.mpr hfail)

/-- A transaction that does not commit changes nothing. -/
theorem Op.tx_elim {P : World → Prop} (hw : P w) (hp : P (p.run as w).state) :
    P (Op.exec (.tx p) as w).state := by
  simp only [Op.exec]
  split
  · exact hw
  split
  · exact hw
  · exact hp

theorem Op.runtime_elim {P : World → Prop} {c : RuntimeCall β}
    (hw : ∀ r s, P { w with running := r, suspended := s }) :
    P (Op.exec (.runtime server c) as w).state := by
  obtain ⟨r, s, hstep⟩ := c.step_state server (as.headD default) w
  simp only [Op.exec, hstep, hw]

/-- The tables that no step writes. -/
structure SameControl (w w' : World) : Prop where
  deployments : w'.deployments = w.deployments
  domains : w'.domains = w.domains
  builds : w'.builds = w.builds
  projects : w'.projects = w.projects
  services : w'.services = w.services
  endpoints : w'.endpoints = w.endpoints
  settings : w'.settings = w.settings

theorem SameControl.rfl : SameControl w w := ⟨.refl _, .refl _, .refl _, .refl _, .refl _,
  .refl _, .refl _⟩

theorem SameControl.trans (h : SameControl w₁ w₂) (h' : SameControl w₂ w₃) : SameControl w₁ w₃ :=
  ⟨h'.deployments.trans h.deployments, h'.domains.trans h.domains, h'.builds.trans h.builds,
    h'.projects.trans h.projects, h'.services.trans h.services, h'.endpoints.trans h.endpoints,
    h'.settings.trans h.settings⟩

theorem Stmt.step_sameControl {s : Stmt β} (h : s.SparesControl) (a : Answer) (w : World) :
    SameControl w (s.step a w).2 := by
  cases s with
  | query q => exact .rfl
  | newUUID => exact .rfl
  | deployments s => exact h.elim
  | domains s => exact h.elim
  | builds s => exact h.elim
  | _ =>
    refine onTable_elim .rfl fun _ => ?_
    exact ⟨rfl, rfl, rfl, rfl, rfl, rfl, rfl⟩

theorem Op.exec_sameControl {op : Op β} (h : op.SparesControl) (as : List Answer) (w : World) :
    SameControl w (op.exec as w).state := by
  cases op with
  | db s => exact s.step_sameControl h _ w
  | tx p =>
    refine Op.tx_elim .rfl (Prog.Uses.run h (fun _ s hs as w' hw => ?_) .rfl)
    exact hw.trans (s.step_sameControl hs _ w')
  | runtime server c => exact Op.runtime_elim fun _ _ => ⟨rfl, rfl, rfl, rfl, rfl, rfl, rfl⟩
  | healthCheck | now => exact .rfl
  | scheduleRetry | scheduleServer => exact ⟨rfl, rfl, rfl, rfl, rfl, rfl, rfl⟩

theorem Task.exec_sameControl (t : Task β) (as : List Answer) (w : World) :
    SameControl w (t.prog.outcome as w).state :=
  Prog.Uses.run t.sparesControl
    (fun _ _ hop as w' hw => hw.trans (Op.exec_sameControl hop as w')) .rfl

end Kindling
