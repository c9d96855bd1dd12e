import Kindling.Deploy.Endings
import Kindling.Verify.Routing

/-!
# Deployments that have ended

A pass reads the row of its deployment once, at its beginning. It marks the deployment as running,
points domains to it and stops others in its favour on the strength of that read, whatever has
happened to the row in the meantime.
-/

namespace Kindling

open Fallible

variable {dep r' : Deployment} {rc : ReconcileContext} {now : Time} {t : DeploymentTable}
  {w : LifeWorld} {i : LifeActor} {n : Nat} {d : Id}

/-! ## What a pass knows about its row -/

inductive PassStage
  | idle
  /-- The pass has begun, and has not read its row. -/
  | begun
  /-- The pass has read a row that has not ended, and has not ended it since. -/
  | live
  | gone
  deriving DecidableEq

namespace PassStage

/-- A pass over `e` acts in favour of `e` alone, and only if it takes `e` to be live. -/
def allows (e : Id) (m : PassStage) : Action β → Prop
  | .query (.deploymentFirstByID id) => m = begun → id = e
  | .deployments (.markRunning id) => id = e ∧ m = live
  | .deployments (.markStopped id) => id ≠ e ∧ m = live
  | .domains s => m = live ∧ ∀ id, s.pointsTo = some id → id = e
  | _ => True

def possible : Action β → β → Prop
  | .query (.deploymentFirstByID id), r => ∀ dep, r = .ok dep → dep.id = id
  | .query (.deploymentFindRunningAndOlder _ id), r => ∀ l, r = .ok l → ∀ old ∈ l, old.id ≠ id
  | .deployments (.updateBuild id _), r | .deployments (.updateImage id _), r =>
    ∀ dep, r = .ok dep → dep.id = id
  | _, _ => True

def next : PassStage → Action β → β → PassStage
  | begun, .query (.deploymentFirstByID _), .ok dep => if dep.live then live else gone
  | begun, .query (.deploymentFirstByID _), .error _ => gone
  | _, .deployments (.updateFailedAt _), _ => gone
  | m, _, _ => m

theorem live_ne_begun : live ≠ begun := nofun

end PassStage

@[simps] def passStages (e : Id) : Typestate Action PassStage :=
  ⟨.idle, PassStage.allows e, fun _ => PassStage.possible, PassStage.next⟩

section programs
open PassStage (live_ne_begun)
variable {e : Id} {m : PassStage}

/-- A program that neither ends nor promotes a deployment. -/
def Stays (e : Id) (m : PassStage) (p : Pass α) : Prop :=
  (passStages e).Follows p (fun _ m' => m' = m) m

theorem Stays.bind (h : Stays e m p) (hf : ∀ a, (passStages e).Follows (f a) R m)
    (herr : ∀ err, R (.error err) m) :
    (passStages e).Follows (p >>= f) R m :=
  .bind h (fun a _ hm => hm ▸ hf a) fun err _ hm => hm ▸ herr err

theorem Stays.attempt_bind (h : Stays e m p) (hf : ∀ r, (passStages e).Follows (f r) R m) :
    (passStages e).Follows (p.attempt >>= f) R m :=
  .attempt_bind h fun r _ hm => hm ▸ hf r

theorem Stays.context (h : Stays e m p) (c : String) : Stays e m (Kindling.context c p) :=
  .wrap h (fun _ _ hm => hm) fun _ _ hm => hm

theorem Stays.of_own (h : Uses (Action.OwnProgress e) p) (hm : m ≠ .begun) : Stays e m p := by
  refine .of_uses (h.mono fun β a ha => ?_)
  cases a with
  | query q =>
    cases q with
    | deploymentFirstByID id =>
      refine ⟨(absurd · hm), fun v _ => ?_⟩
      cases m with
      | begun => exact absurd rfl hm
      | _ => rfl
    | _ => exact ⟨trivial, fun _ _ => by cases m <;> rfl⟩
  | deployments s =>
    cases s with
    | markRunning | markStopped | updateFailedAt | resetCircuit => exact ha.2.elim
    | _ => exact ⟨trivial, fun _ _ => by cases m <;> rfl⟩
  | domains => exact ha.elim
  | _ => exact ⟨trivial, fun _ _ => by cases m <;> rfl⟩

theorem Stays.of_work (h : InstanceWork p) (hm : m ≠ .begun) : Stays e m p := .of_own (h.own e) hm

theorem Stays.read (q : Query β) (hm : m ≠ .begun) : Stays e m (query q : Pass β) :=
  .of_work (read_work q) hm

theorem Stays.forEach (h : ∀ x ∈ xs, Stays e m (f x)) : Stays e m (forEach xs f) :=
  Typestate.Follows.forEach (fun x hx _ hm => hm ▸ h x hx) rfl

theorem stopDeploymentForVolume_stays {d : Deployer} (hold : old.id ≠ e) :
    Stays e .live (stopDeploymentForVolume d old) := by
  refine .bind (.read _ live_ne_begun) (fun l => ?_) fun _ => rfl
  refine Stays.bind (.of_work (.forEach fun _ _ => act_work) live_ne_begun) (fun _ => ?_) fun _ => rfl
  refine Stays.bind (.of_work softDeleteLegacyVM_work live_ne_begun) (fun _ => ?_) fun _ => rfl
  exact .ofCall ⟨hold, rfl⟩ fun _ _ => rfl

theorem findRunningAndOlder_stages (p : Id) :
    (passStages e).Follows (query (.deploymentFindRunningAndOlder p e) : Pass (List Deployment))
      (fun r m' => m' = m ∧ ∀ l, r = .ok l → ∀ old ∈ l, old.id ≠ e) m :=
  .ofCall trivial fun _ hr => ⟨by cases m <;> rfl, hr⟩

theorem stopOldDeploymentsForVolume_stays (d : Deployer) (hdep : dep.id = e) :
    Stays e .live (stopOldDeploymentsForVolume d dep) := by
  subst hdep
  refine Typestate.Follows.bind (findRunningAndOlder_stages _) (fun l m hl => ?_) fun _ _ h => h.1
  obtain ⟨rfl, hl⟩ := hl
  split
  · exact .pure rfl
  · exact (Stays.forEach fun old hold => stopDeploymentForVolume_stays (hl l rfl old hold)).bind
      (fun _ => .pure rfl) fun _ => rfl

theorem resolveProjectVolume_stays {d : Deployer} (hdep : dep.id = e) {vol : Option ProjectVolume} :
    Stays e .live (resolveProjectVolume d dep vol) := by
  unfold resolveProjectVolume
  split
  · refine .attempt_bind (.of_work (.ofCall trivial) live_ne_begun) fun r => ?_
    split
    · exact .ofTotal_bind trivial fun _ _ => .pure rfl
    split
    · refine ((stopOldDeploymentsForVolume_stays d hdep).context _).bind (fun stopped => ?_)
        fun _ => rfl
      split
      · exact .ofTotal_bind trivial fun _ _ => .pure rfl
      · exact .pure rfl
    · exact .pure rfl
  · exact .pure rfl

/-- What the rest of a pass relies on. -/
def LiveContext (e : Id) : Except Err (Option ReconcileContext) → PassStage → Prop :=
  Yields (fun r m => ∀ rc ∈ r, rc.dep.id = e ∧ m = .live) fun _ => True

theorem none_stages : (passStages e).Follows (pure none) (LiveContext e) m :=
  .pure fun _ h => absurd h (Option.not_mem_none _)

attribute [local simp] PassStage.allows.eq_def PassStage.possible.eq_def PassStage.next.eq_def Yields Except.mapError
  context discard query Reads.read deploymentStmt buildStmt scheduleRetry

/-- A pass that fails its deployment because of its build ends there. -/
theorem ensureBuild_stages (hdep : dep.id = e) :
    (passStages e).Follows (ensureBuild dep)
      (Yields (fun r m => r.2 = false → r.1.id = e ∧ m = .live) fun _ => True) .live := by
  cases h : dep.buildId <;> simp [ensureBuild, h, hdep]

theorem syncDeploymentImage_stages (hdep : dep.id = e) :
    (passStages e).Follows (syncDeploymentImage dep)
      (Yields (fun dep m => dep.id = e ∧ m = .live) fun _ => True) .live := by
  refine Stays.bind (.context (.of_work queryBy_work live_ne_begun) _) (fun b => ?_)
    fun _ => trivial
  split <;> simp +contextual [hdep]

theorem prepareImageAndEnv_stages {d : Deployer} (hrc : rc.dep.id = e) :
    (passStages e).Follows (prepareImageAndEnv d rc)
      (Yields (fun rc' m => rc'.dep.id = e ∧ m = .live) fun _ => True) .live := by
  refine Stays.bind (.context (.of_work queryBy_work live_ne_begun) _) (fun image => ?_)
    fun _ => trivial
  refine Stays.bind (.of_work effectiveEnvVars_work live_ne_begun) (fun vars => ?_) fun _ => trivial
  refine Stays.bind (.context (.of_work .ofResult live_ne_begun) _) (fun env => ?_) fun _ => trivial
  exact .pure ⟨hrc, rfl⟩

theorem resolveContext_stages (d : Deployer) (hrc : rc.dep.id = e) (vol : Option ProjectVolume) :
    (passStages e).Follows (resolveContext d rc vol) (LiveContext e) .live := by
  refine (ensureBuild_stages hrc).andThen_yields (fun r m hr => ?_)
  obtain ⟨dep, done⟩ := r
  cases done with
  | true => exact none_stages
  | false =>
    obtain ⟨hdep, rfl⟩ := hr rfl
    refine Stays.bind (resolveProjectVolume_stays hdep) (fun r => ?_) fun _ => trivial
    obtain ⟨mount, done⟩ := r
    cases done with
    | true => exact none_stages
    | false =>
      refine (syncDeploymentImage_stages hdep).andThen_yields (fun dep' m hr => ?_)
      obtain ⟨hdep', rfl⟩ := hr
      split
      · exact .throw trivial
      · refine .andThen_yields (prepareImageAndEnv_stages ?_) (fun rc' m h => ?_)
        · exact hdep'
        · exact .pure fun rc'' h' => Option.mem_some.mp h' ▸ h

/-- The row is read once. -/
theorem fetchContext_stages :
    (passStages e).Follows (fetchContext e) (Yields (fun r m => m ≠ .begun ∧ r.1.dep.id = e ∧
      (r.1.dep.live = true → m = .live)) fun _ => True) .begun := by
  have hread : (passStages e).Follows
      (context "fetch deployment" (query (.deploymentFirstByID e)) : Pass Deployment)
      (Yields (fun dep m => m ≠ .begun ∧ dep.id = e ∧ (dep.live = true → m = .live))
        fun _ => True) .begun := by
    refine .wrap_yields (.ofCall_yields (fun _ => rfl) (fun dep hr => ?_) fun _ _ => trivial)
    change (if dep.live then PassStage.live else .gone) ≠ .begun ∧ _
    exact ⟨by split <;> nofun, hr dep rfl, fun hlive => if_pos hlive⟩
  refine hread.andThen_yields (fun dep m hdep => ?_)
  obtain ⟨hm, hid, hlive⟩ := hdep
  refine Stays.bind (.context (.read _ hm) _) (fun proj => ?_) fun _ => trivial
  refine Stays.bind (.of_work fetchService_work hm) (fun service => ?_) fun _ => trivial
  refine Stays.bind (.context (.of_work projectVolumeForDeployment_work hm) _) (fun vol => ?_)
    fun _ => trivial
  exact .pure ⟨hm, hid, hlive⟩

theorem failPreviewVolumeDeployment_stages :
    (passStages e).Follows (failPreviewVolumeDeployment dep) (fun _ _ => True) m := by
  cases m <;> simp [failPreviewVolumeDeployment, volumeStmt, WritesVolumes.volumes]

theorem resolveDeployment_stages (d : Deployer) :
    (passStages e).Follows (resolveDeployment d e) (LiveContext e) .begun := by
  refine fetchContext_stages.andThen_yields (fun r m hr => ?_)
  obtain ⟨rc, vol⟩ := r
  obtain ⟨hm, hid, hlive⟩ := hr
  dsimp only
  split
  · exact .bind failPreviewVolumeDeployment_stages (fun _ _ _ => none_stages) fun _ _ _ => trivial
  split
  · exact Stays.bind (.of_work reconcileTerminalDeployment_work hm)
      (fun _ => none_stages) fun _ => trivial
  · next hended =>
    obtain rfl : m = .live := hlive (by simpa using hended)
    exact resolveContext_stages d hid vol

theorem Stays.of_pointsTo (h : Uses (Action.PointsTo e) p) : Stays e .live p := by
  refine .of_uses (h.mono fun β a ha => ?_)
  cases a with
  | query q =>
    cases q with
    | deploymentFirstByID id => exact ⟨nofun, fun v _ => by cases v <;> rfl⟩
    | _ => exact ⟨trivial, fun _ _ => rfl⟩
  | deployments => exact ha.elim
  | domains s => exact ⟨⟨rfl, ha⟩, fun _ _ => rfl⟩
  | _ => exact ⟨trivial, fun _ _ => rfl⟩

theorem drainDeployment_stays {d : Deployer} (hold : old.id ≠ e) :
    Stays e .live (drainDeployment d old) := by
  refine .bind (.of_work cleanupDeploymentAllInstances_work live_ne_begun)
    (fun _ => ?_) fun _ => rfl
  refine Stays.bind (.of_work softDeleteLegacyVM_work live_ne_begun) (fun _ => ?_) fun _ => rfl
  exact Stays.attempt_bind (.ofCall ⟨hold, rfl⟩ fun _ _ => rfl) fun _ => .pure rfl

theorem drainOldDeployments_stays (d : Deployer) (hdep : dep.id = e) :
    Stays e .live (drainOldDeployments d dep) := by
  subst hdep
  refine Typestate.Follows.attempt_bind (findRunningAndOlder_stages _) fun r m hl => ?_
  obtain ⟨rfl, hl⟩ := hl
  cases r with
  | error => exact .pure rfl
  | ok l => exact Stays.forEach fun old hold => drainDeployment_stays (hl l rfl old hold)

theorem promoteDeployment_stays (d : Deployer) (hrc : rc.dep.id = e) :
    Stays e .live (promoteDeployment d rc) := by
  subst hrc
  have hroutes : Stays rc.dep.id .live (routeAndDrain d rc) := by
    unfold routeAndDrain
    split
    · exact (Stays.of_pointsTo ensurePreviewRoutes_pointsTo).context _
    · exact ((Stays.of_pointsTo ensureProductionRoutes_pointsTo).context _).bind
        (fun _ => drainOldDeployments_stays d rfl) fun _ => rfl
  unfold Stays at hroutes ⊢
  simp [promoteDeployment, hroutes]

theorem reconcileDeployment_stages (d : Deployer) :
    (passStages e).Follows (reconcileDeployment d e) (fun _ _ => True) .begun := by
  refine (resolveDeployment_stages d).yields_andThen (fun r m hr => ?_)
  cases r with
  | none => exact .pure trivial
  | some rc =>
    obtain ⟨hid, rfl⟩ := hr rc rfl
    refine Stays.bind (.of_own (hid ▸ convergeInstances_own d rc) live_ne_begun) (fun r => ?_)
      fun _ => trivial
    cases r with
    | none => exact .pure trivial
    | some _ => exact .any (promoteDeployment_stays d hid)

end programs

def Action.Requested : Action β → Prop
  | .query _ | .deployments (.updateFailedAt _) => True
  | _ => False

/-- A pass follows `passStages` between its beginning and its end. -/
def lifeStages (i : LifeActor) : Typestate LifeOp PassStage where
  start := .idle
  allows m op := match i, op with
    | .pass e _, .action a => PassStage.allows e m a
    | .pass .., .begins j | .pass .., .finishes j => j = i
    | .request _, .action a => a.Requested
    | .request _, .ending _ => True
    | _, _ => False
  possible _ op v := match op with
    | .action a => PassStage.possible a v
    | _ => True
  next m op v := match i, op with
    | .pass .., .action a => PassStage.next m a v
    | .pass .., .begins _ => .begun
    | .pass .., .finishes _ => .idle
    | _, _ => m

theorem lifeStarts_follow (i : LifeActor) (p : Prog LifeOp (Except Err Unit)) (h : lifeStarts i p) :
    (lifeStages i).Admits p (fun _ _ => True) .idle := by
  cases i with
  | pass e n =>
    obtain ⟨d, rfl⟩ := h
    refine Typestate.Follows.ofTotal_bind rfl fun _ _ => ?_
    have hpass : ((lifeStages (.pass e n)).comap fun _ a => .action a).Follows
        (reconcileDeployment d e) (fun _ _ => True) .begun := reconcileDeployment_stages d
    refine hpass.hoist.attempt_bind fun r m _ => ?_
    exact .ofTotal_bind rfl fun _ _ => .ofResult trivial
  | request n =>
    rcases h with ⟨id, rfl⟩ | ⟨e, rfl⟩
    · refine Typestate.Follows.attempt_bind (.call trivial) fun r _ _ => ?_
      cases r with
      | error => exact .throw trivial
      | ok =>
        refine .wrapped (Q := fun _ _ => True) ?_
        exact .call trivial
    · exact Typestate.Follows.call trivial

/-- The rows that a call ends. -/
def LifeOp.ends : LifeOp β → Deployment → Bool
  | .action (.deployments (.updateFailedAt id)), r
  | .action (.deployments (.markStopped id)), r => r.id == id
  | .ending e, r => e.applies r
  | _, _ => false

/-- A deployment ends while no pass over it is under way, except one that ends it itself. -/
def EndsAlone (i : LifeActor) (_ : List (Call LifeOp)) : Prog.Guard LifeOp Answer LifeWorld :=
  fun _ op _ w => ∀ r ∈ w.world.deployments.rows, op.ends r = true → r.live = true →
    ∀ j ∈ w.underWay, j.deployment = some r.id → j = i

instance : Decidable (EndsAlone i log β op as w) := by
  unfold EndsAlone
  infer_instance

theorem exec_deployments_action (s : DeploymentStmt β) (as : List Answer) (w : World) :
    (Effect.exec (Action.deployments s) as w).state =
      if (as.headD default).fail then w
      else w.withDeployments (s.exec (as.headD default).now w.deployments).2 := by
  rw [deployments_exec, deploymentStmt_outcome]
  split <;> rfl

theorem DeploymentStmt.live_change (now : Time)
    (h : (LifeOp.action (.deployments s)).ends r = false) (hr : r.id = s.target) :
    (s.change now r).live = r.live := by
  cases s with
  | updateFailedAt | markStopped => exact absurd h (by simp [LifeOp.ends, hr, DeploymentStmt.target])
  | _ => rfl

theorem DeploymentStmt.mem_exec {s : DeploymentStmt β} (h : r' ∈ (s.exec now t).2) :
    ∃ r ∈ t, r.id = r'.id ∧ (r' = r ∨ r.id = s.target ∧ r' = s.change now r) := by
  obtain ⟨r, hr, rfl⟩ := (@Table.mem_updateKey _ _ _ t _ _ _ _ (s.change_id now) _).mp h
  refine ⟨r, hr, ?_⟩
  split
  · next happ =>
    obtain ⟨hid, -⟩ := Bool.and_eq_true_iff.mp happ
    exact ⟨(s.change_id now r).symm, .inr ⟨of_decide_eq_true hid, rfl⟩⟩
  · exact ⟨rfl, .inl rfl⟩

theorem Ending.mem_exec {e : Ending} (h : r' ∈ e.exec now t) :
    ∃ r ∈ t, r.id = r'.id ∧ (r' = r ∨ e.applies r = true ∧ r' = e.change now r) := by
  obtain ⟨r, hr, rfl⟩ := (@Table.mem_updateWhere _ _ _ t _ _ _ (e.change_id now)).mp h
  refine ⟨r, hr, ?_⟩
  split
  · next happ => exact ⟨(e.change_id now r).symm, .inr ⟨happ, rfl⟩⟩
  · exact ⟨rfl, .inl rfl⟩

/-- A row that a call does not end stays live. -/
theorem LifeOp.exec_live (op : LifeOp β) (as : List Answer)
    (h : r' ∈ (Effect.exec op as w).state.world.deployments) :
    ∃ r ∈ w.world.deployments, r.id = r'.id ∧ (r.live = true → op.ends r = false → r'.live = true) := by
  have hsame : r' ∈ w.world.deployments → ∃ r ∈ w.world.deployments, r.id = r'.id ∧
      (r.live = true → op.ends r = false → r'.live = true) :=
    fun h => ⟨r', h, rfl, fun hlive _ => hlive⟩
  cases op with
  | begins | finishes => exact hsame h
  | ending e =>
    change r' ∈ (LifeOp.exec _ as w).state.world.deployments at h
    unfold LifeOp.exec at h
    dsimp only at h
    split at h
    · exact hsame h
    · obtain ⟨r, hr, hid, hcases⟩ := Ending.mem_exec h
      refine ⟨r, hr, hid, fun hlive hends => ?_⟩
      rcases hcases with rfl | ⟨happ, -⟩
      · exact hlive
      · exact absurd happ (Bool.eq_false_iff.mp hends)
  | action a =>
    cases a with
    | deployments s =>
      change r' ∈ (Effect.exec (Action.deployments s) as w.world).state.deployments at h
      rw [exec_deployments_action] at h
      split at h
      · exact hsame h
      · obtain ⟨r, hr, hid, hcases⟩ := DeploymentStmt.mem_exec h
        refine ⟨r, hr, hid, fun hlive hends => ?_⟩
        rcases hcases with rfl | ⟨htarget, rfl⟩
        · exact hlive
        · exact (DeploymentStmt.live_change _ hends htarget).trans hlive
    | _ =>
      refine hsame (Action.exec_deployments ?_ as w.world ▸ h)
      trivial

/-! ## Every interleaving -/

/-- The pass whose beginning or end a call records. -/
def LifeOp.marks : LifeOp β → Option LifeActor
  | .begins i | .finishes i => some i
  | _ => none

theorem LifeOp.mem_underWay_exec {op : LifeOp β} (h : op.marks ≠ some j) (as : List Answer)
    (hj : j ∈ w.underWay) :
    j ∈ (Effect.exec op as w).state.underWay := by
  cases op with
  | action => exact hj
  | ending e =>
    change j ∈ (LifeOp.exec _ as w).state.underWay
    unfold LifeOp.exec
    dsimp only
    split <;> exact hj
  | begins i => exact List.mem_cons_of_mem i hj
  | finishes i =>
    refine List.mem_filter.mpr ⟨hj, ?_⟩
    simpa using fun hji : j = i => h (congrArg some hji.symm)

structure Informed (i : LifeActor) (m : PassStage) (w : LifeWorld) : Prop where
  underWay : m = .begun ∨ m = .live → i ∈ w.underWay
  live : m = .live → ∀ r ∈ w.world.deployments, i.deployment = some r.id → r.live = true

theorem Informed.idle : Informed i .idle w := ⟨nofun, nofun⟩

theorem Informed.gone : Informed i .gone w := ⟨nofun, nofun⟩

theorem Informed.exec (h : Informed i m w) {op : LifeOp β} (hmarks : op.marks ≠ some i)
    (hends : m = .live → ∀ r ∈ w.world.deployments,
      i.deployment = some r.id → op.ends r = false) (as : List Answer) :
    Informed i m (Effect.exec op as w).state where
  underWay hm := LifeOp.mem_underWay_exec hmarks as (h.underWay hm)
  live hm r' hr' hi := by
    obtain ⟨r, hr, hid, hlive⟩ := op.exec_live as hr'
    rw [← hid] at hi
    exact hlive (h.live hm r hr hi) (hends hm r hr hi)

/-- The other actors, when a deployment ends while no other pass over it is under way. -/
theorem Informed.exec_other (h : Informed j m w) (hij : j ≠ i) {op : LifeOp β}
    (hmarks : ∀ k ∈ op.marks, k = i) (hguard : EndsAlone i log β op as w) :
    Informed j m (Effect.exec op as w).state := by
  refine h.exec (fun hj => hij (hmarks j hj)) (fun hm r hr hid => ?_) as
  cases hends : op.ends r with
  | false => rfl
  | true => exact absurd (hguard r hr hends (h.live hm r hr hid) j (h.underWay (.inr hm)) hid) hij

theorem lifeStages_marks (h : (lifeStages i).allows m op) : ∀ k ∈ op.marks, k = i := by
  intro k hk
  cases i <;> cases op <;> first
    | exact Option.some.inj (Option.mem_def.mp hk) ▸ h
    | exact absurd hk (Option.not_mem_none k)
    | exact h.elim

theorem DeploymentStmt.exec_one {s : DeploymentStmt Deployment} (hs : ∀ r, s.result r = one r)
    (h : (s.exec now t).1 = .ok dep) :
    dep.id = s.target := by
  have h' := one_ok ((hs _).symm.trans h)
  obtain ⟨_, _, _, _, hid⟩ := Table.updateKey_fst_eq_some h'
  exact hid

theorem exec_query_value (q : Query β) (as : List Answer) (w : World) :
    (Effect.exec (Action.query q) as w).value =
      if (as.headD default).fail then .error (.of .unavailable)
      else q.eval (as.headD default).now w := rfl

theorem PassStage.possible_exec (a : Action β) (as : List Answer) (w : World) :
    PassStage.possible a (Effect.exec a as w).value := by
  cases a with
  | query q =>
    have hread : ∀ b, (Effect.exec (Action.query q) as w).value = .ok b →
        q.eval (as.headD default).now w = .ok b := fun b hb => by
      rw [exec_query_value] at hb
      split at hb
      · cases hb
      · exact hb
    cases q with
    | deploymentFirstByID id =>
      intro dep hdep
      exact Table.find?_key (one_ok (hread dep hdep))
    | deploymentFindRunningAndOlder p id =>
      intro l hl old hold
      rw [← Except.ok.inj (hread l hl)] at hold
      have hold' := (Table.mem_selectBy.mp hold).2
      simp only [Deployment.runningAndOlder, Bool.and_eq_true, bne_iff_ne] at hold'
      exact hold'.2
    | _ => trivial
  | deployments s =>
    have hexec : ∀ b, (Effect.exec (Action.deployments s) as w).value = .ok b →
        (s.exec (as.headD default).now w.deployments).1 = .ok b := fun b hb => by
      rw [show Effect.exec (Action.deployments s) as w = (deploymentStmt s).outcome as w from rfl,
        deploymentStmt_outcome] at hb
      split at hb
      · cases hb
      · exact hb
    cases s with
    | updateBuild | updateImage => exact fun dep hdep => DeploymentStmt.exec_one (fun _ => rfl) (hexec dep hdep)
    | _ => trivial
  | _ => trivial

/-- A pass that has read its row knows whether it is live. -/
theorem Informed.exec_read (h : Informed (.pass e n) .begun w) (as : List Answer) :
    Informed (.pass e n) (PassStage.begun.next (.query (.deploymentFirstByID e))
      (Effect.exec (Action.query (.deploymentFirstByID e)) as w.world).value) w := by
  have hread : ∀ dep, (Effect.exec (Action.query (.deploymentFirstByID e)) as w.world).value =
      .ok dep → w.world.deployments.find? e = some dep := fun dep hdep => by
    rw [exec_query_value] at hdep
    split at hdep
    · cases hdep
    · exact one_ok hdep
  cases hv : (Effect.exec (Action.query (.deploymentFirstByID e)) as w.world).value with
  | error => exact .gone
  | ok dep =>
    change Informed _ (if dep.live then .live else .gone) w
    split
    · next hlive =>
      refine ⟨fun _ => h.underWay (.inl rfl), fun _ r hr hid => ?_⟩
      have hrow := Table.find?_of_mem hr
      rw [← Option.some.inj hid, hread dep hv] at hrow
      exact Option.some.inj hrow ▸ hlive
    · exact .gone

theorem Informed.exec_pass {m : PassStage} (h : Informed (.pass e n) m w) (ha : m.allows e a)
    (as : List Answer) :
    Informed (.pass e n) (m.next a (Effect.exec a as w.world).value)
      (Effect.exec (LifeOp.action a) as w).state := by
  have hkeep : m.next a (Effect.exec a as w.world).value = m →
      (m = .live → ∀ r ∈ w.world.deployments, r.id = e → (LifeOp.action a).ends r = false) →
      Informed (.pass e n) (m.next a (Effect.exec a as w.world).value)
        (Effect.exec (LifeOp.action a) as w).state := fun hnext hends => by
    rw [hnext]
    have hmarks : (LifeOp.action a).marks ≠ some (.pass e n) := (Option.some_ne_none _).symm
    exact h.exec hmarks (fun hm r hr hid => hends hm r hr (Option.some.inj hid).symm) as
  cases a with
  | query q =>
    cases q with
    | deploymentFirstByID id =>
      by_cases hm : m = .begun
      · subst hm
        obtain rfl := ha rfl
        exact h.exec_read as
      · exact hkeep (by cases m <;> first | rfl | exact absurd rfl hm) fun _ _ _ _ => rfl
    | _ => exact hkeep (by cases m <;> rfl) fun _ _ _ _ => rfl
  | deployments s =>
    cases s with
    | updateFailedAt id =>
      have hnext : ∀ v, m.next (.deployments (.updateFailedAt id)) v = .gone := by
        intro v
        cases m <;> rfl
      rw [hnext]
      exact .gone
    | markStopped id =>
      refine hkeep (by cases m <;> rfl) fun _ r _ hr => ?_
      exact beq_eq_false_iff_ne.mpr fun hid => ha.1 (hid.symm.trans hr)
    | _ => exact hkeep (by cases m <;> rfl) fun _ _ _ _ => rfl
  | _ => exact hkeep (by cases m <;> rfl) fun _ _ _ _ => rfl

theorem Informed.exec_own (h : Informed i m w) (hallows : (lifeStages i).allows m op)
    (as : List Answer) :
    (lifeStages i).possible m op (Effect.exec op as w).value ∧
      Informed i ((lifeStages i).next m op (Effect.exec op as w).value)
        (Effect.exec op as w).state := by
  cases i with
  | pass e n =>
    cases op with
    | action a => exact ⟨PassStage.possible_exec a as w.world, h.exec_pass hallows as⟩
    | ending => exact hallows.elim
    | begins j =>
      obtain rfl := hallows
      exact ⟨trivial, fun _ => List.mem_cons_self, nofun⟩
    | finishes => exact ⟨trivial, .idle⟩
  | request n =>
    have hsame : op.marks ≠ some (.request n) → Informed (.request n) m (Effect.exec op as w).state :=
      fun hmarks => h.exec hmarks (fun _ _ _ hid => absurd hid (Option.some_ne_none _).symm) as
    cases op with
    | action a => exact ⟨PassStage.possible_exec a as w.world, hsame (Option.some_ne_none _).symm⟩
    | ending => exact ⟨trivial, hsame (Option.some_ne_none _).symm⟩
    | begins | finishes => exact hallows.elim

theorem endsAlone_keeps : Team.Keeps lifeStarts losePass EndsAlone lifeStages (fun _ _ => True)
    fun M w => ∀ i, Informed i (M i) w where
  starts := lifeStarts_follow
  rest _ := trivial
  start M i w _ hI := (Function.forall_update_iff M fun j m => Informed j m w).mpr
    ⟨.idle, fun j _ => hI j⟩
  crash M i w hI := by
    refine (Function.forall_update_iff M fun j m => Informed j m (losePass i w)).mpr
      ⟨.idle, fun j hj => ⟨fun hm => ?_, (hI j).live⟩⟩
    refine List.mem_filter.mpr ⟨(hI j).underWay hm, ?_⟩
    simpa using hj
  call M i log w β op as hM hallows hguard hI := by
    have hothers : ∀ j, j ≠ i → Informed j (M j) (Effect.exec op as w).state := fun j hj =>
      (hI j).exec_other hj (lifeStages_marks hallows) hguard
    obtain ⟨hpossible, hown⟩ := (hI i).exec_own hallows as
    exact ⟨hpossible, (Function.forall_update_iff M fun j m => Informed j m _).mpr ⟨hown, hothers⟩⟩

/-! ## No step in favour of an ended deployment -/

/-- The deployment has failed, was stopped or was deleted. -/
def World.ended (w : World) (d : Id) : Bool := (w.deployments.find? d).any (!·.live)

/-- From `w` to `w'` nothing has been done in favour of `d` : its row is not marked as running, no
further domain points to it, and if the step is one of a pass over `d`, no other deployment is
stopped. -/
structure LeavesAlone (d : Id) (i : LifeActor) (w w' : World) : Prop where
  running : (w'.deployments.find? d).map (·.runningAt) = (w.deployments.find? d).map (·.runningAt)
  domains : ∀ x ∈ w'.domains, x.deploymentId = some d →
    ∃ y ∈ w.domains, y.id = x.id ∧ y.deploymentId = some d
  others : i.deployment = some d → ∀ id, id ≠ d → (w'.deployments.find? id).map (·.stoppedAt) =
    (w.deployments.find? id).map (·.stoppedAt)

theorem LeavesAlone.of_eq {w w' : World} (hdeployments : w'.deployments = w.deployments)
    (hdomains : w'.domains = w.domains) :
    LeavesAlone d i w w' :=
  ⟨by rw [hdeployments], fun x hx h => ⟨x, hdomains ▸ hx, rfl, h⟩, fun _ _ _ => by rw [hdeployments]⟩

theorem DomainStmt.mem_exec_pointing {s : DomainStmt β} {t : DomainTable} {x : Domain}
    (hs : s.pointsTo ≠ some d) (h : x ∈ (s.exec now t).2) (hx : x.deploymentId = some d) :
    ∃ y ∈ t, y.id = x.id ∧ y.deploymentId = some d := by
  cases s with
  | updateDeploymentForService dep =>
    dsimp only [DomainStmt.exec] at h
    obtain ⟨y, hy, rfl⟩ := Table.mem_updateWhere.mp h
    split at hx
    · exact absurd hx hs
    · next hp => exact ⟨y, hy, by rw [if_neg hp], hx⟩
  | updateDeploymentForDomainID _ dep =>
    dsimp only [DomainStmt.exec] at h
    obtain ⟨y, hy, rfl⟩ := Table.mem_updateKey.mp h
    split at hx
    · exact absurd hx hs
    · next hp => exact ⟨y, hy, by rw [if_neg hp], hx⟩
  | deleteManagedByServiceID => exact ⟨x, (Table.mem_keep.mp h).1, rfl, hx⟩
  | updateManagedByServiceID service host dep =>
    dsimp only [DomainStmt.exec] at h
    split at h
    · exact ⟨x, h, rfl, hx⟩
    · dsimp only [returning] at h
      obtain ⟨y, hy, rfl⟩ := Table.mem_updateWhere.mp h
      split at hx
      · exact absurd hx hs
      · next hp => exact ⟨y, hy, by rw [if_neg hp], hx⟩
  | create dom =>
    dsimp only [DomainStmt.exec] at h
    split at h
    · exact ⟨x, h, rfl, hx⟩
    · rcases mem_inserting h with h | rfl
      · exact ⟨x, h, rfl, hx⟩
      · exact absurd hx hs

theorem Ending.find?_exec_runningAt (e : Ending) (now : Time) (t : DeploymentTable) (id : Id) :
    ((e.exec now t).find? id).map (·.runningAt) = (t.find? id).map (·.runningAt) := by
  unfold Ending.exec
  rw [Table.find?_updateWhere, Option.map_map]
  refine congrArg (Option.map · _) (funext fun r => ?_)
  dsimp only [Function.comp_apply]
  split
  · cases e <;> rfl
  · rfl

theorem DeploymentStmt.leavesAlone (hallows : (lifeStages i).allows m (.action (.deployments s)))
    (hover : m = .live → i.deployment ≠ some d) (now : Time) (w : World) :
    LeavesAlone d i w (w.withDeployments (s.exec now w.deployments).2) := by
  have hcolumns : (∀ r, (s.change now r).runningAt = r.runningAt) →
      (i.deployment = some d → ∀ r, (s.change now r).stoppedAt = r.stoppedAt) →
      LeavesAlone d i w (w.withDeployments (s.exec now w.deployments).2) := fun hrunning hstopped =>
    ⟨DeploymentStmt.find?_exec_map hrunning d, fun x hx h => ⟨x, hx, rfl, h⟩,
      fun hi id _ => DeploymentStmt.find?_exec_map (hstopped hi) id⟩
  cases i with
  | request n =>
    cases s with
    | updateFailedAt => exact hcolumns (fun _ => rfl) fun _ _ => rfl
    | _ => exact hallows.elim
  | pass e n =>
    cases s with
    | markRunning id =>
      obtain ⟨rfl, hm⟩ := hallows
      have hd : d ≠ id := fun hd => hover hm (congrArg some hd.symm)
      exact ⟨congrArg _ (DeploymentStmt.find?_exec_ne hd), fun x hx h => ⟨x, hx, rfl, h⟩,
        fun _ id _ => DeploymentStmt.find?_exec_map (fun _ => rfl) id⟩
    | markStopped id => exact hcolumns (fun _ => rfl) fun hi => absurd hi (hover hallows.2)
    | _ => exact hcolumns (fun _ => rfl) fun _ _ => rfl

theorem LifeOp.leavesAlone {m : PassStage} (h : Informed i m w) {op : LifeOp β}
    (hallows : (lifeStages i).allows m op) (hd : w.world.ended d = true) (as : List Answer) :
    LeavesAlone d i w.world (Effect.exec op as w).state.world := by
  -- A pass that takes its row to be live is not over an ended deployment.
  have hover : m = .live → i.deployment ≠ some d := fun hm hi => by
    obtain ⟨r, hr, hended⟩ := Option.any_eq_true _ _ |>.mp hd
    rw [← Table.find?_key hr] at hi
    rw [h.live hm r (Table.mem_of_find? hr) hi] at hended
    cases hended
  cases op with
  | begins | finishes => exact .of_eq rfl rfl
  | ending e =>
    change LeavesAlone d i w.world (LifeOp.exec _ as w).state.world
    unfold LifeOp.exec
    dsimp only
    split
    · exact .of_eq rfl rfl
    · refine ⟨e.find?_exec_runningAt _ _ d, fun x hx h => ⟨x, hx, rfl, h⟩, fun hi => ?_⟩
      cases i with
      | pass => exact hallows.elim
      | request => exact absurd hi (Option.some_ne_none _).symm
  | action a =>
    cases a with
    | deployments s =>
      change LeavesAlone d i w.world (Effect.exec (Action.deployments s) as w.world).state
      rw [exec_deployments_action]
      split
      · exact .of_eq rfl rfl
      · exact DeploymentStmt.leavesAlone hallows hover _ _
    | domains s =>
      change LeavesAlone d i w.world ((domainStmt s).outcome as w.world).state
      rw [domainStmt_outcome]
      split
      · exact .of_eq rfl rfl
      · cases i with
        | request => exact hallows.elim
        | pass e n =>
          refine ⟨rfl, fun x hx hxd => ?_, fun _ _ _ => rfl⟩
          refine DomainStmt.mem_exec_pointing (fun hs => ?_) hx hxd
          exact hover hallows.1 (congrArg some (hallows.2 d hs).symm)
    | _ =>
      refine .of_eq (Action.exec_deployments ?_ as w.world) (Action.exec_domains ?_ as w.world) <;>
        trivial

/-- **Deployments that have ended.** In every interleaving of passes with cancellations, the cleanup of
previews, deletions and lost passes in which a deployment ends only while no other pass over it is under
way, no later step is in favour of a deployment that has ended. -/
theorem ended_left_alone {w : LifeWorld} {c : LifeTeam}
    (hrun : Team.Run lifeStarts losePass EndsAlone (.idle (.ok ()) w) c) (d : Id)
    (hd : c.state.world.ended d = true) (i : LifeActor) (as : List Answer) :
    LeavesAlone d i c.state.world (c.turn i as).state.world := by
  obtain ⟨hfollow, hI⟩ := endsAlone_keeps.run (endsAlone_keeps.follow_idle _ _)
    (fun _ => Informed.idle) hrun
  unfold Team.turn
  split
  · exact .of_eq rfl rfl
  · next op k hprog =>
    have hi := hfollow i
    rw [hprog] at hi
    exact LifeOp.leavesAlone (hI i) hi.1 hd as

/-- A pass over deployment 10, which has a ready instance, while deployment 11 is running. -/
def promotingPass : LifeTeam :=
  (Team.idle (.ok ()) { world := promotableWorld otherService (by decide) }).begin (.pass 10 0)
    (passOver (.pass 10 0) { serverId := 5 } 10)

/-- Deployment 10 is cancelled after `n` calls of the pass. -/
def cancelledAfter (n : Nat) : LifeTeam :=
  ((promotingPass.turns (List.replicate n (.pass 10 0, []))).begin (.request 0)
    (cancelDeployment 10)).turns [(.request 0, []), (.request 0, [])]

theorem cancelledAfter_run (h : Team.TurnsMeet G promotingPass (.replicate n (.pass 10 0, [])))
    (hrest : (promotingPass.turns (.replicate n (.pass 10 0, []))).resting (.request 0) = true)
    (h' : Team.TurnsMeet G ((promotingPass.turns (.replicate n (.pass 10 0, []))).begin (.request 0)
      (cancelDeployment 10)) [(.request 0, []), (.request 0, [])]) :
    Team.Run lifeStarts losePass G
      (.idle (.ok ()) { world := promotableWorld otherService (by decide) }) (cancelledAfter n) := by
  obtain ⟨r, hr⟩ := Team.atRest_of_resting hrest
  exact (Team.Run.begin (.pass 10 0) _ rfl ⟨_, rfl⟩).trans ((Team.Run.turns h).trans
    ((Team.Run.begin (.request 0) _ hr (.inl ⟨10, rfl⟩)).trans (Team.Run.turns h')))

/-- The pass marks the deployment that was cancelled in the meantime as running, and stops the
other. -/
theorem cancelled_deployment_promoted : ∃ c : LifeTeam,
    Team.Run lifeStarts losePass (fun _ _ => Prog.unguarded)
      (.idle (.ok ()) { world := promotableWorld otherService (by decide) }) c ∧
    c.state.world.ended 10 = true ∧
    ¬LeavesAlone 10 (.pass 10 0) c.state.world (c.turn (.pass 10 0) []).state.world ∧
    (c.turns (List.replicate 8 (.pass 10 0, []))).state.world.stopped 11 = true := by
  refine ⟨cancelledAfter 30, cancelledAfter_run (Team.turnsMeet_unguarded _ _) (by decide +kernel)
    (Team.turnsMeet_unguarded _ _), by decide +kernel, fun h => absurd h.running ?_, ?_⟩ <;>
    decide +kernel

/-- A deployment that is cancelled after its promotion stays as it is. -/
theorem promoted_deployment_cancelled : (cancelledAfter 39).state.world.ended 10 = true ∧
    LeavesAlone 10 (.pass 10 0) (cancelledAfter 39).state.world
      ((cancelledAfter 39).turn (.pass 10 0) []).state.world := by
  have hended : (cancelledAfter 39).state.world.ended 10 = true := by decide +kernel
  refine ⟨hended, ended_left_alone (cancelledAfter_run ?_ ?_ ?_) 10 hended (.pass 10 0) []⟩ <;>
    decide +kernel

end Kindling
