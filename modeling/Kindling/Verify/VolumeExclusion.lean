import Kindling.Verify.VolumeOperations
import Kindling.Volumes.Requests

/-!
# One operation at a time

A request that starts an operation on a volume first looks for an operation that is pending or
running, and later inserts its own.
-/

namespace Kindling

open Fallible

def VolumeWorld.Idle (w : VolumeWorld) (volume : Id) : Prop :=
  ∀ r ∈ w.operations.rows, r.projectVolumeId = volume → r.active = false

instance (w : VolumeWorld) : Decidable (w.Idle volume) := by
  unfold VolumeWorld.Idle
  infer_instance

/-- Of every volume at most one operation is pending or running. -/
def OneAtATime (t : OperationTable) : Prop :=
  ∀ r ∈ t, ∀ r' ∈ t, r.active = true → r'.active = true → r.projectVolumeId = r'.projectVolumeId →
    r = r'

/-! ## What a request has checked -/

def VolumeOp.opens : VolumeOp β → Option Id
  | .operations (.create _ volume ..) => some volume
  | _ => none

/-- Calls that do not write to an operation that exists. -/
def VolumeOp.OpensOnly : VolumeOp β → Prop
  | .operations (.updateRunning _) | .operations (.updateState ..) => False
  | _ => True

/-- A request inserts an operation only on the volume that it has found idle last. -/
@[simps] def requestSight : Typestate VolumeOp (Option Id) where
  start := none
  allows m op := op.OpensOnly ∧ ∀ volume ∈ op.opens, m = some volume
  possible _ _ _ := True
  next
    | m, .read (.operationFindCurrentByVolumeID volume), .error e =>
      if e.isNoRows then some volume else m
    | _, .operations _, _ => none
    | m, _, _ => m

section requests
variable {m : Option Id} {s : VolumeScope} {vol : ProjectVolume}

/-- The request makes only calls that are allowed, from here on. -/
abbrev Checked (p : Go VolumeOp β) (m : Option Id) : Prop := requestSight.Follows p (fun _ _ => True) m

/-- Calls that neither start an operation nor look for one. -/
def VolumeOp.Unopening (β : Type) : VolumeOp β → Prop
  | .operations _ | .read (.operationFindCurrentByVolumeID _) => False
  | _ => True

theorem unopening_follows (h : Uses VolumeOp.Unopening p) :
    requestSight.Follows p (fun _ m' => m' = m) m := by
  refine .of_uses (h.mono fun β op hop => ?_)
  cases op with
  | operations => exact hop.elim
  | read q => cases q <;> first | exact hop.elim | exact ⟨⟨trivial, nofun⟩, fun _ _ => rfl⟩
  | _ => exact ⟨⟨trivial, nofun⟩, fun _ _ => rfl⟩

theorem Checked.bind (h : Uses VolumeOp.Unopening p) (hf : ∀ a, Checked (f a) m) :
    Checked (p >>= f) m :=
  .andThen (unopening_follows h) (fun a _ hm => hm ▸ hf a)

attribute [local simp] VolumeOp.opens.eq_def VolumeOp.OpensOnly.eq_def VolumeOp.Unopening.eq_def Yields
  Except.mapError context query Reads.read volumeRead volumeRowStmt operationStmt backupStmt newVolumeID
  requirePinned ensureVolumeBackupStoreConfigured enqueueProjectVolumeOperation

theorem idleVolume_follows : requestSight.Follows (idleVolume s message)
    (Yields (fun vol m' => m' = some vol.id) fun _ => True) m := by
  simp +contextual [idleVolume]

theorem targetServer_unopening :
    Uses VolumeOp.Unopening (targetServer requested vol preferCurrent) := by
  have hloads (l) : Uses VolumeOp.Unopening (workerLoads l) := by
    induction l with
    | nil => exact .pure
    | cons s l ih => simp [workerLoads, ih]
  simp [targetServer, selectProjectVolumeTargetServer, activeCloudHypervisorWorkers, hloads]

theorem checked_request (hf : ∀ vol, Checked (f vol) (some vol.id)) :
    Checked (idleVolume s message >>= f) none :=
  .yields_andThen idleVolume_follows (fun vol _ hm => hm ▸ hf vol)

theorem postVolumeBackup_checked : Checked (postVolumeBackup s failed) none :=
  checked_request fun vol => by cases h : vol.serverId <;> simp [h]

theorem postVolumeRestore_checked : Checked (postVolumeRestore s req) none := by
  refine checked_request fun vol => .bind (by simp) fun _ => ?_
  split
  · split
    · have hbackup (b) : Uses VolumeOp.Unopening (backupToRestore s vol b) := by
        simp [backupToRestore]
      exact .bind (hbackup _) fun _ => .bind targetServer_unopening fun _ => by simp
    · exact .throw trivial
  · exact .throw trivial

theorem postVolumeMove_checked : Checked (postVolumeMove s req) none := by
  refine checked_request fun vol => .bind requirePinned_uses fun _ => .bind (by simp) fun _ => ?_
  split
  · exact .bind targetServer_unopening fun _ => by simp
  · exact .throw trivial

theorem postVolumeRepair_checked : Checked (postVolumeRepair s) none :=
  checked_request fun vol => by cases h : vol.serverId <;> simp [h]

theorem deleteVolume_checked : Checked (deleteVolume s host) none :=
  checked_request fun vol => by cases h : vol.serverId <;> simp [h]

theorem StartRequest.serve_checked (r : StartRequest) : Checked r.serve none := by
  have hserve : ∀ {β : Type} {p : Go VolumeOp β}, Checked p none →
      Checked (do let _ ← p) none := fun h =>
    .andThen h (fun _ _ _ => .pure trivial)
  cases r with
  | projectBackup | serviceBackup => exact hserve postVolumeBackup_checked
  | projectRestore | serviceRestore => exact hserve postVolumeRestore_checked
  | projectMove | serviceMove => exact hserve postVolumeMove_checked
  | projectRepair | serviceRepair => exact hserve postVolumeRepair_checked
  | deleteProject | deleteService => exact hserve deleteVolume_checked

end requests

/-- What a request has checked holds when it inserts its operation, unless the statement fails. -/
def ChecksHold : Prog.Guard VolumeOp Answer VolumeWorld := fun _ op as w =>
  ∀ volume ∈ op.opens, (as.headD default).fail = true ∨ w.Idle volume

theorem VolumeWorld.idle_of_none
    (h : VolumeQuery.eval (.operationFindCurrentByVolumeID volume) w = .error e) :
    w.Idle volume := by
  intro r hr hvolume
  refine Bool.eq_false_iff.mpr fun hactive => ?_
  have hmem : r ∈ w.operations.selectBy (fun o => o.projectVolumeId == volume && o.active)
      (·.createdAt) :=
    Table.mem_selectBy.mpr ⟨hr, by simp [hvolume, hactive]⟩
  rw [VolumeQuery.eval] at h
  cases hlist : (w.operations.selectBy (fun o => o.projectVolumeId == volume && o.active)
      (·.createdAt)).reverse with
  | nil =>
    rw [List.reverse_eq_nil_iff.mp hlist] at hmem
    cases hmem
  | cons x l =>
    rw [hlist] at h
    cases h

theorem VolumeWorld.Idle.exec {w : VolumeWorld} {op : VolumeOp β} (h : w.Idle volume)
    (hop : op.LeavesOperations) :
    VolumeWorld.Idle (op.exec as w).state volume := by
  unfold VolumeWorld.Idle
  rw [VolumeOp.operations_exec hop]
  exact h

theorem StartRequest.meets_checksHold (r : StartRequest) (as : List Answer) (w : VolumeWorld) :
    Fallible.Meets ChecksHold r.serve as w := by
  refine Typestate.Admits.meets (I := fun m w => ∀ volume ∈ m, w.Idle volume) ?_ r.serve_checked as
    (by simp)
  intro β op as w m hm hop
  refine ⟨fun volume hvolume => .inr (hm volume (hop.2 volume hvolume)), trivial, ?_⟩
  cases op with
  | operations s => exact fun _ h => nomatch h
  | read q =>
    cases q with
    | operationFindCurrentByVolumeID volume =>
      change ∀ v ∈ requestSight.next m (.read (.operationFindCurrentByVolumeID volume))
        (if (as.headD default).fail then _ else VolumeQuery.eval _ w), w.Idle v
      split
      · exact hm
      cases heval : VolumeQuery.eval (.operationFindCurrentByVolumeID volume) w with
      | ok row => exact hm
      | error e =>
        intro v hv
        change v ∈ if e.isNoRows then some volume else m at hv
        split at hv
        · cases hv
          exact VolumeWorld.idle_of_none heval
        · exact hm v hv
    | _ => exact hm
  | _ => exact fun volume hvolume => (hm volume hvolume).exec trivial

/-! ## Runs -/

/-- Requests, passes over operations, of any server, and other programs. -/
inductive ExclusionActor
  | request (n : Nat)
  | pass (o : Id) (n : Nat)
  | other (n : Nat)
  deriving DecidableEq

/-- The other programs do not write operations. -/
def exclusionStarts : ExclusionActor → Prog VolumeOp (Except Err Unit) → Prop
  | .request _, p => ∃ r : StartRequest, p = r.serve
  | .pass o _, p => ∃ h : VolumeHandler, p = reconcileVolumeOperation h o
  | .other _, p => p.Uses fun _ op => op.LeavesOperations

abbrev ExclusionTeam := Team ExclusionActor VolumeOp (Except Err Unit) VolumeWorld

abbrev ExclusionTeam.Run
    (G : ExclusionActor → List (Call VolumeOp) → Prog.Guard VolumeOp Answer VolumeWorld)
    (c c' : ExclusionTeam) : Prop :=
  Team.Run exclusionStarts (fun _ => id) G c c'

/-- What is known of the operation that a pass is about. -/
def exclusionSight : ExclusionActor → Typestate VolumeOp OperationSight
  | .request _ => { operationSight .blank 0 with allows := fun _ op => op.OpensOnly }
  | .pass o _ => operationSight .blank o
  | .other _ => { operationSight .blank 0 with allows := fun _ op => op.LeavesOperations }

def VolumeOp.writesOperations : VolumeOp β → Bool
  | .operations _ => true
  | _ => false

/-- What a request has checked holds when it inserts its operation, and a pass writes an operation
only while it has the status that the pass has seen or written last, unless the statement fails. -/
def ExclusiveWork : ExclusionActor → List (Call VolumeOp) → Prog.Guard VolumeOp Answer VolumeWorld
  | .request _, _, _, op, as, w => ChecksHold _ op as w
  | .pass o _, log, _, op, as, w => op.writesOperations = true → (as.headD default).fail = true ∨
      (w.operations.find? o).map (.seen ·.status) = some ((operationSight .blank o).after log)
  | .other _, _, _, _, _, _ => True

instance : Decidable (ExclusiveWork i log β op as w) :=
  match i with
  | .request _ => inferInstanceAs (Decidable (∀ volume ∈ op.opens, _ ∨ w.Idle volume))
  | .pass _ _ => inferInstanceAs (Decidable (op.writesOperations = true → _ ∨ _))
  | .other _ => .isTrue trivial

theorem exclusion_starts (hp : exclusionStarts i p) :
    (exclusionSight i).Admits p (fun _ _ => True) .unseen := by
  cases i with
  | request n =>
    obtain ⟨r, rfl⟩ := hp
    have huses : Uses (fun _ op => op.OpensOnly) r.serve :=
      Typestate.Admits.uses (P := requestSight) (fun _ _ _ _ => trivial) (fun _ _ _ hop => hop.1)
        r.serve_checked
    exact .of_uses (huses.mono fun _ _ hop _ => hop) _
  | pass o n =>
    obtain ⟨h, rfl⟩ := hp
    exact reconcileVolumeOperation_proper.any
  | other n => exact .of_uses (hp.mono fun _ _ hop _ => hop) _

namespace OneAtATime
variable {t : OperationTable} {s : OperationStmt} {now : Time}

theorem insert (h : OneAtATime t)
    (hidle : ∀ r ∈ t, r.projectVolumeId = x.projectVolumeId → r.active = false) :
    OneAtATime (inserting t x).2 := by
  unfold inserting
  split
  · next t' ht' =>
    intro r hr r' hr' ha ha' hv
    rcases (Table.mem_insert? ht').mp hr with hold | rfl
    · rcases (Table.mem_insert? ht').mp hr' with hold' | rfl
      · exact h r hold r' hold' ha ha' hv
      · exact absurd ha (Bool.eq_false_iff.mp (hidle r hold hv))
    · rcases (Table.mem_insert? ht').mp hr' with hold' | rfl
      · exact absurd ha' (Bool.eq_false_iff.mp (hidle r' hold' hv.symm))
      · rfl
  · exact h

theorem update (h : OneAtATime t) (hf : ∀ r, (f r).id = r.id)
    (hv : ∀ r, (f r).projectVolumeId = r.projectVolumeId)
    (hactive : ∀ r, t.find? o = some r → r.active = true) :
    OneAtATime (t.updateKey o (fun _ => true) f hf).2 := by
  -- each row that is active after the statement comes from one that was active before
  have hfrom : ∀ r ∈ (t.updateKey o (fun _ => true) f hf).2, r.active = true → ∃ r₀ ∈ t,
      r₀.active = true ∧ r₀.projectVolumeId = r.projectVolumeId ∧ r₀.id = r.id := by
    intro r hr ha
    obtain ⟨r₀, hr₀, rfl⟩ := Table.mem_updateKey.mp hr
    split
    · next ho =>
      refine ⟨r₀, hr₀, hactive r₀ ?_, (hv r₀).symm, (hf r₀).symm⟩
      exact Table.find?_eq_some.mpr ⟨hr₀, by simpa using ho⟩
    · next ho => exact ⟨r₀, hr₀, by rwa [if_neg ho] at ha, rfl, rfl⟩
  intro r hr r' hr' ha ha' hvolume
  obtain ⟨r₀, hr₀, ha₀, hv₀, hid⟩ := hfrom r hr ha
  obtain ⟨r₁, hr₁, ha₁, hv₁, hid'⟩ := hfrom r' hr' ha'
  have heq : r₀ = r₁ := h r₀ hr₀ r₁ hr₁ ha₀ ha₁ (hv₀.trans (hvolume.trans hv₁.symm))
  exact Table.eq_of_key_eq hr hr' (hid.symm.trans (heq ▸ hid'))

end OneAtATime

/-- A pass that works in time writes an operation that is pending or running. -/
theorem ExclusiveWork.active (hlive : ((operationSight .blank o).after log).Live)
    (hguard : ExclusiveWork (.pass o n) log _ (.operations s) as w)
    (hfail : (as.headD default).fail = false) :
    ∃ row, w.operations.find? o = some row ∧ row.active = true := by
  rcases hguard rfl with h | h
  · rw [hfail] at h
    cases h
  · obtain ⟨row, hrow, hseen⟩ := Option.map_eq_some_iff.mp h
    obtain ⟨st, hst, hlive⟩ := hlive
    rw [hst] at hseen
    cases hseen
    exact ⟨row, hrow, Bool.not_eq_eq_eq_not.mpr hlive⟩

theorem exclusive_work_kept : Team.Keeps exclusionStarts (fun _ => id) ExclusiveWork exclusionSight
    (fun _ _ => True) fun _ w => OneAtATime w.operations where
  starts := fun i p hp => by cases i <;> exact exclusion_starts hp
  rest _ := trivial
  call M i log w β op as hM hallows hguard hw := by
    rw [hM] at hallows
    refine ⟨by cases i <;> exact OperationSight.possible_blank _ op as w, ?_⟩
    cases op with
    | operations s =>
      refine onVolumeTable_keeps (P := fun w' => OneAtATime w'.operations) hw fun hfail => ?_
      cases i with
      | request n =>
        cases s with
        | create id volume =>
          have hidle := (hguard volume rfl).resolve_left (by rw [hfail]; nofun)
          exact .insert hw hidle
        | updateRunning | updateState => exact hallows.elim
      | pass o n =>
        obtain ⟨rfl, hlive⟩ := hallows
        obtain ⟨row, hrow, hactive⟩ := hguard.active hlive hfail
        have hactive : ∀ r, w.operations.find? s.target = some r → r.active = true := by
          intro r hr
          cases hrow.symm.trans hr
          exact hactive
        cases s with
        | create id volume =>
          change OneAtATime (inserting w.operations _).2
          unfold inserting
          split
          · next ht =>
            have hfresh : w.operations.find? id = none := Table.insert?_fresh ht
            cases hfresh.symm.trans hrow
          · exact hw
        | updateRunning | updateState => exact .update hw (OperationStmt.change_id _ _) (fun _ => rfl) hactive
      | other n => exact hallows.elim
    | _ =>
      change OneAtATime (VolumeOp.exec _ as w).state.operations
      rw [VolumeOp.operations_exec]
      · exact hw
      · trivial
  start _ _ _ _ h := h
  crash _ _ _ h := h

/-- **One operation at a time.** Let any requests that start operations, passes of any number of
servers over any operations, and programs that do not write operations interleave. In every run in
which requests find what they have checked when they insert their operations, and passes write
operations in time, at most one operation of each volume is pending or running. A request that runs
by itself meets its condition. -/
theorem operations_one_at_a_time (w : VolumeWorld) (c : ExclusionTeam)
    (hw : OneAtATime w.operations)
    (hc : ExclusionTeam.Run ExclusiveWork (Team.idle (.ok ()) w) c) :
    OneAtATime c.state.operations ∧
    ∀ (r : StartRequest) (as : List Answer) (w' : VolumeWorld),
      Fallible.Meets ChecksHold r.serve as w' :=
  ⟨(exclusive_work_kept.run (exclusive_work_kept.follow_idle _ w) hw hc).2,
    StartRequest.meets_checksHold⟩

/-- A volume of project 3 on server 5, without operations. -/
def idleVolumeWorld : VolumeWorld where
  toWorld := { volumes := .single { id := 9, projectId := 3, serverId := some 5 } }
  disks := [⟨5, 9⟩]

def repairRequests : ExclusionTeam :=
  ((Team.idle (.ok ()) idleVolumeWorld).begin (.request 0) (StartRequest.projectRepair 3).serve).begin
    (.request 1) (StartRequest.projectRepair 3).serve

/-- Both requests look for an operation before one of them is inserted: the volume has two. -/
theorem two_repairs_pending : ∃ c : ExclusionTeam,
    ExclusionTeam.Run (fun _ _ => Prog.unguarded) (Team.idle (.ok ()) idleVolumeWorld) c ∧
    c.state.operations.rows.map (fun r => (r.id, r.projectVolumeId, r.active)) =
      [(1, 9, true), (2, 9, true)] :=
  ⟨repairRequests.turns [(.request 0, []), (.request 0, []), (.request 1, []), (.request 1, []),
      (.request 0, [{ uuids := fun _ => 1 }]), (.request 0, []),
      (.request 1, [{ uuids := fun _ => 2 }]), (.request 1, [])],
    (Team.Run.begin (.request 0) _ rfl ⟨_, rfl⟩).trans
      ((Team.Run.begin (.request 1) _ rfl ⟨_, rfl⟩).trans
        (Team.Run.turns (Team.turnsMeet_unguarded _ _))),
    by decide +kernel⟩

/-- The second request comes after the first. -/
theorem second_repair_refused : OneAtATime (repairRequests.turns
    (List.replicate 5 (.request 0, []) ++ List.replicate 3 (.request 1, []))).state.operations := by
  have hrun : ExclusionTeam.Run ExclusiveWork (Team.idle (.ok ()) idleVolumeWorld)
      (repairRequests.turns
        (List.replicate 5 (.request 0, []) ++ List.replicate 3 (.request 1, []))) :=
    (Team.Run.begin (.request 0) _ rfl ⟨_, rfl⟩).trans
      ((Team.Run.begin (.request 1) _ rfl ⟨_, rfl⟩).trans (Team.Run.turns (by decide +kernel)))
  exact (operations_one_at_a_time idleVolumeWorld _ (fun _ h => absurd h List.not_mem_nil) hrun).1

end Kindling
