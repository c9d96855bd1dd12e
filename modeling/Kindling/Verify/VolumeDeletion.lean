import Kindling.Volumes.Footprint
import Kindling.Volumes.Operations
import Mathlib.Data.List.Find

/-!
# Volumes that are deleted after a backup

The disk of a volume is removed by the pass that has uploaded its backup and marked the backup as
succeeded. The pass may stop anywhere, and the operation is then taken up again from the start.
-/

namespace Kindling

open Fallible

variable {k p : Id} {l : List VolumeBackup}

structure BackupJob where
  operation : Id
  server : Id
  volume : Id
  backup : Id

namespace BackupJob
variable (J : BackupJob)

def disk : Disk := ⟨J.server, J.volume⟩

structure Row (row : VolumeOperation) : Prop where
  id : row.id = J.operation
  kind : row.kind = .backup
  server : row.serverId = some J.server
  volume : row.projectVolumeId = J.volume
  request : ∃ req, row.request = some req ∧ req.backupId = some J.backup

/-- The tables say what the job is. -/
structure Described (w : VolumeWorld) : Prop where
  operation : ∀ row, w.operations.find? J.operation = some row → J.Row row
  backup : ∀ row, w.backups.find? J.backup = some row → row.projectVolumeId = J.volume

def Saves (row : VolumeBackup) : Prop := row.projectVolumeId = J.volume ∧ row.status = .succeeded

instance : DecidablePred J.Saves := fun _ => inferInstanceAs (Decidable (_ ∧ _))

/-- The data are on the disk of the server, or in a successful backup. -/
def Preserved (w : VolumeWorld) : Prop :=
  w.holds J.disk = true ∨ ∃ row ∈ w.backups.rows, J.Saves row

/-! ## Stages of a pass -/

/-- What a pass on the server has done: nothing; the backup is marked as running; the disk has been
found to be there; the backup is marked as succeeded, and `kept` is a successful backup that is not
trimmed; the disk has been removed. -/
inductive Stage
  | clean
  | marked
  | present
  | saved (kept : Id)
  | removed (kept : Id)
  deriving DecidableEq

def Stage.Holds (w : VolumeWorld) : Stage → Prop
  | clean => J.Preserved w
  | marked => w.holds J.disk = true ∨ ∃ row ∈ w.backups.rows, J.Saves row ∧ row.id ≠ J.backup
  | present => w.holds J.disk = true
  | saved kept => w.holds J.disk = true ∧ ∃ row ∈ w.backups.rows, J.Saves row ∧ row.id = kept
  | removed kept => ∃ row ∈ w.backups.rows, J.Saves row ∧ row.id = kept

theorem Stage.Holds.preserved {J : BackupJob} {m : Stage} (h : m.Holds J w) : J.Preserved w := by
  cases m with
  | clean => exact h
  | marked => exact h.imp_right fun ⟨row, hrow, hsaves, _⟩ => ⟨row, hrow, hsaves⟩
  | present => exact .inl h
  | saved => exact .inl h.1
  | removed =>
    obtain ⟨row, hrow, hsaves, -⟩ := h
    exact .inr ⟨row, hrow, hsaves⟩

def Stage.Writes (m : Stage) : OperationStatus → Prop
  | .running => m = clean
  | .failed => m = marked ∨ m = present ∨ ∃ kept, m = saved kept
  | .succeeded => m = present
  | .pending => False

def Stage.written (m : Stage) : OperationStatus → Stage
  | .running => marked
  | .succeeded => saved J.backup
  | .failed => if m = marked then marked else present
  | .pending => m

/-- The successful backup that trimming a list leaves. -/
def kept (l : List VolumeBackup) (k : Id) : Id :=
  ((l.find? fun r => r.status = .succeeded ∧ r.projectVolumeId = J.volume).map (·.id)).getD k

def KeepsRow : OperationStmt → Prop
  | .create .. => False
  | .updateRunning _ => True
  | .updateState _ server _ request .. =>
    server = some J.server ∧ ∃ req, request = some req ∧ req.backupId = some J.backup

/-- Calls that touch neither the backups nor the disk. -/
def Harmless {β : Type} : VolumeOp β → Prop
  | .operations s => s.target = J.operation → J.KeepsRow s
  | .backups _ => False
  | .downloadFile server volume _ | .removeFile server volume => (⟨server, volume⟩ : Disk) ≠ J.disk
  | .deployer o => o.makesDisk ≠ some J.disk
  | _ => True

def Stage.Allows {β : Type} (m : Stage) : VolumeOp β → Prop
  | .backups (.updateState id status ..) => id = J.backup ∧ m.Writes status
  | .backups (.deleteByID id) => ∃ kept, m = saved kept ∧ id ≠ kept
  | .backups (.create ..) => False
  | .removeFile server volume => (⟨server, volume⟩ : Disk) = J.disk ∧ ∃ kept, m = saved kept
  | op => J.Harmless op

def Stage.next {β : Type} (m : Stage) : VolumeOp β → β → Stage
  | .localVolumeHealth server volume, (_, message) =>
    if m = marked ∧ (⟨server, volume⟩ : Disk) = J.disk ∧ message = "" then present else m
  | .backups (.updateState _ status ..), .ok _ => m.written J status
  | .read (.backupFindByProjectID _), .ok l =>
    match m with
    | saved k => saved (J.kept l k)
    | m => m
  | .removeFile .., .ok _ =>
    match m with
    | saved k => removed k
    | m => m
  | _, _ => m

/-- What a list of backups tells to a pass that has `k` to keep. -/
def Listed (l : List VolumeBackup) (k : Id) : Prop :=
  (l.map (·.id)).Nodup ∧ ((∀ r ∈ l, r.projectVolumeId = J.volume) ∨
    ∀ r ∈ l, r.projectVolumeId ≠ J.volume ∧ r.id ≠ k)

def Stage.Possible {β : Type} (m : Stage) : VolumeOp β → β → Prop
  | .read (.operationFindByID id), .ok row => id = J.operation → J.Row row
  | .operations s, .ok row => s.target = J.operation → J.Row row
  | .read (.volumeFindByID id), .ok row => row.id = id
  | .read (.backupFindByID id), .ok row => row.id = id
  | .read (.backupFindByProjectID _), .ok l => ∀ k, m = saved k → J.Listed l k
  | _, _ => True

/-- Passes on the server, one after the other; passes of other servers; other programs. -/
inductive Actor
  | owner
  | elsewhere (n : Nat)
  | other (n : Nat)
  deriving DecidableEq

def stages : Actor → Typestate VolumeOp Stage
  | .owner =>
    { start := .clean, allows := (·.Allows J), possible := (·.Possible J), next := (·.next J) }
  | .elsewhere _ | .other _ =>
    { start := .clean, allows := fun _ op => J.Harmless op
      possible := fun _ op v => Stage.clean.Possible J op v, next := fun m _ _ => m }

/-! ## Passes -/

section programs
variable {J : BackupJob} {i : Actor} {m : Stage}

@[simp] theorem owner_allows : (J.stages .owner).allows m op ↔ m.Allows J op := .rfl

@[simp] theorem owner_possible {op : VolumeOp β} : (J.stages .owner).possible m op v ↔ m.Possible J op v :=
  .rfl

@[simp] theorem owner_next {op : VolumeOp β} : (J.stages .owner).next m op v = m.next J op v := rfl

@[simp] theorem elsewhere_allows {op : VolumeOp β} :
    (J.stages (.elsewhere n)).allows m op ↔ J.Harmless op := .rfl

@[simp] theorem elsewhere_possible {op : VolumeOp β} :
    (J.stages (.elsewhere n)).possible m op v ↔ Stage.clean.Possible J op v := .rfl

@[simp] theorem elsewhere_next {op : VolumeOp β} : (J.stages (.elsewhere n)).next m op v = m := rfl

attribute [local simp] Stage.Allows.eq_def Stage.Possible.eq_def Stage.next.eq_def Harmless.eq_def KeepsRow
  Stage.Writes Stage.written Op.makesDisk Yields Except.mapError context discard volumeRead backupStmt
  operationStmt volumeRowStmt query Reads.read
  OperationStmt.target

/-- The pass makes only calls that are allowed, from here on. -/
abbrev Safe (J : BackupJob) (i : Actor) (p : Go VolumeOp β) (m : Stage) : Prop :=
  (J.stages i).Follows p (fun _ _ => True) m

/-- Trimming leaves alone what comes first. -/
theorem trimLoop_spares (hl : ∀ r ∈ l, r.status = .succeeded → r.id ≠ k) (n c : Nat) :
    (J.stages .owner).Follows (trimLoop n l c) (fun _ m' => m' = .saved k) (.saved k) := by
  induction l generalizing c with
  | nil => exact .pure rfl
  | cons b l ih =>
    have ih := fun c => ih (fun r hr => hl r (List.mem_cons_of_mem _ hr)) c
    simp +contextual [trimLoop, ih, hl b]

theorem trimLoop_keeps_first (hnodup : (l.map (·.id)).Nodup)
    (hr : l.find? (fun r => r.status = .succeeded) = some r) (hk : r.id = k) (hn : n ≠ 0) :
    (J.stages .owner).Follows (trimLoop n l 0) (fun _ m' => m' = .saved k) (.saved k) := by
  induction l with
  | nil => cases hr
  | cons b l ih =>
    rw [List.map_cons, List.nodup_cons] at hnodup
    unfold trimLoop
    split
    · next hb => exact ih hnodup.2 (by simpa [hb] using hr)
    next hb =>
    rw [if_pos (by omega)]
    refine trimLoop_spares (fun x hx _ hid => hnodup.1 ?_) n 1
    have hrb : b = r := by simpa [not_not.mp hb] using hr
    rw [hrb, hk, ← hid]
    exact List.mem_map_of_mem hx

theorem trimBackups_safe :
    (J.stages .owner).Follows (trimBackups vol) (fun _ m' => ∃ k', m' = .saved k') (.saved k) := by
  unfold trimBackups
  split
  · exact .pure ⟨k, rfl⟩
  next hn =>
  have hread : (J.stages .owner).Follows
      (context "list backups for trim" (volumeRead (.backupFindByProjectID vol.projectId)))
      (Yields (fun l m' => J.Listed l k ∧ m' = .saved (J.kept l k)) (· = .saved k)) (.saved k) :=
    .wrap_yields (.ofCall_yields trivial (fun l hl => ⟨hl k rfl, rfl⟩) fun _ _ => rfl)
  refine .bind_yields hread (fun l m' hl => ?_) fun _ _ h => ⟨k, h⟩
  obtain ⟨⟨hnodup, hl⟩, rfl⟩ := hl
  refine .mono (Q := fun _ m' => m' = .saved (J.kept l k)) ?_ fun _ _ h => ⟨_, h⟩
  rcases hl with hl | hl
  · have hfind : l.find? (fun r => r.status = .succeeded ∧ r.projectVolumeId = J.volume) =
        l.find? (fun r => r.status = .succeeded) :=
      List.find?_congr fun r hr => by simp [hl r hr]
    unfold kept
    rw [hfind]
    cases hr : l.find? (fun r => r.status = .succeeded) with
    | some r => exact trimLoop_keeps_first hnodup hr rfl hn
    | none =>
      refine trimLoop_spares (fun r hr' hst => absurd hst ?_) _ _
      simpa using List.find?_eq_none.mp hr r hr'
  · have hnone : l.find? (fun r => r.status = .succeeded ∧ r.projectVolumeId = J.volume) = none :=
      List.find?_eq_none.mpr fun r hr => by simp [(hl r hr).1]
    unfold kept
    rw [hnone]
    exact trimLoop_spares (fun r hr _ => (hl r hr).2) _ _

theorem trimBackups_follows {Q : Except Err Unit → Stage → Prop} (herr : ∀ e k, Q (.error e) (.saved k))
    (hok : ∀ k, Q (.ok ()) (.saved k)) : (J.stages .owner).Follows (trimBackups vol) Q (.saved k) := by
  refine trimBackups_safe.mono fun r m' hm' => ?_
  obtain ⟨k, rfl⟩ := hm'
  cases r with
  | error e => exact herr e k
  | ok => exact hok k

section work
variable {op : VolumeOperation} (ho : J.Row op) {vol : ProjectVolume}
include ho

theorem failOperation_safe (hi : i = .owner ∨ ∃ n, i = .elsewhere n) (message : String)
    (health : Option VolumeHealth) : Safe J i (failOperation op vol message health) m := by
  rcases hi with rfl | ⟨n, rfl⟩ <;> simp [failOperation, failBackup, ho.server, ho.request]

theorem failOperation_marks (hm : m = .marked ∨ m = .present ∨ ∃ kept, m = .saved kept) (message : String) (health : Option VolumeHealth) :
    Safe J .owner (failOperation op vol message health (some J.backup)) m := by
  simp +contextual [failOperation, failBackup, ho.server, ho.request, hm]

theorem finishBackup_safe (hvol : vol.id = J.volume) (req : OperationRequest) (k : Id)
    (result : OperationResult) :
    Safe J .owner (finishBackup ⟨J.server⟩ op vol req J.backup result) (.saved k) := by
  simp [finishBackup, completeOperation, hvol, disk, ho.server, ho.request, failOperation_marks ho]

theorem uploadBackup_safe (hvol : vol.id = J.volume) (req : OperationRequest) :
    Safe J .owner (uploadBackup ⟨J.server⟩ op vol req J.backup) .marked := by
  simp +contextual [uploadBackup, hvol, disk, failOperation_marks ho, trimBackups_follows, finishBackup_safe ho hvol]

theorem runBackup_safe (hvol : vol.id = J.volume) : Safe J .owner (runBackup ⟨J.server⟩ op vol) .clean := by
  obtain ⟨req, hreq, hbackup⟩ := ho.request
  simp +contextual [runBackup, hreq, hbackup, failOperation_safe ho, uploadBackup_safe ho hvol]

end work

theorem isStaleRunning_follows {Q : Except Err Bool → Stage → Prop} (hi : i = .owner ∨ ∃ n, i = .elsewhere n)
    (hQ : ∀ stale, Q (.ok stale) m) : (J.stages i).Follows (isStaleRunning op) Q m := by
  unfold isStaleRunning
  split <;> rcases hi with rfl | ⟨n, rfl⟩ <;> simp [hQ]

theorem reconcileActive_owner (ho : J.Row op) {vol : ProjectVolume}
    (hvol : vol.id = J.volume) : Safe J .owner (reconcileActive ⟨J.server⟩ op vol) .clean := by
  have hrun (row) (hrow : J.Row row) : Safe J .owner (runOperation ⟨J.server⟩ row vol) .clean := by
    simpa [runOperation, hrow.kind] using runBackup_safe hrow hvol
  simp +contextual [reconcileActive, startOperation, isStaleRunning_follows, failOperation_safe ho, hrun, ho,
    ho.server, ho.id]

/-- A pass on another server fails the operation at most. -/
theorem reconcileActive_elsewhere {op : VolumeOperation} (ho : J.Row op) {h : VolumeHandler}
    (hserver : h.serverId ≠ J.server) :
    Safe J (.elsewhere n) (reconcileActive h op vol) .clean := by
  simp +contextual [reconcileActive, isStaleRunning_follows, operationServerHealthy, failOperation_safe ho,
    ho.server, hserver.symm]

theorem reconcileVolumeOperation_owner :
    Safe J .owner (reconcileVolumeOperation ⟨J.server⟩ J.operation) .clean := by
  have hactive (op) (vol : ProjectVolume) (ho : J.Row op) (hvol : vol.id = op.projectVolumeId) :=
    reconcileActive_owner ho (hvol.trans ho.volume)
  simp +contextual [reconcileVolumeOperation, hactive]

theorem reconcileVolumeOperation_elsewhere (hserver : h.serverId ≠ J.server) :
    Safe J (.elsewhere n) (reconcileVolumeOperation h J.operation) .clean := by
  simp +contextual [reconcileVolumeOperation, reconcileActive_elsewhere, hserver]

end programs

/-! ## Steps -/

section steps
variable {J : BackupJob} {m : Stage} {op : VolumeOp β} {as : List Answer} {w w' : VolumeWorld}

theorem Stage.Holds.mono (h : m.Holds J w) (hdisk : w.holds J.disk = true → w'.holds J.disk = true)
    (hrows : ∀ row ∈ w.backups.rows, row ∈ w'.backups.rows) : m.Holds J w' := by
  cases m with
  | clean => exact h.imp hdisk fun ⟨row, hrow, h⟩ => ⟨row, hrows row hrow, h⟩
  | marked => exact h.imp hdisk fun ⟨row, hrow, h⟩ => ⟨row, hrows row hrow, h⟩
  | present => exact hdisk h
  | saved =>
    obtain ⟨hd, row, hrow, h⟩ := h
    exact ⟨hdisk hd, row, hrows row hrow, h⟩
  | removed =>
    obtain ⟨row, hrow, h⟩ := h
    exact ⟨row, hrows row hrow, h⟩

theorem Harmless.holds (hop : J.Harmless op) (h : m.Holds J w) : m.Holds J (op.exec as w).state := by
  have hbackups : op.LeavesBackups := by cases op <;> trivial
  have hdisk : op.LeavesDisk J.disk := by cases op <;> trivial
  refine h.mono (fun hd => ?_) fun row hrow => ?_
  · rwa [VolumeOp.holds_exec hdisk]
  · rwa [VolumeOp.backups_exec hbackups]

theorem KeepsRow.row (hs : J.KeepsRow s) (now : Time) {row : VolumeOperation} (h : J.Row row) :
    J.Row (s.change now row) := by
  cases s with
  | create => exact hs.elim
  | updateRunning => exact ⟨h.id, h.kind, h.server, h.volume, h.request⟩
  | updateState => exact ⟨h.id, h.kind, hs.1, h.volume, hs.2⟩

/-- The statements on the operation that are allowed. -/
def SparesRow (J : BackupJob) {β : Type} : VolumeOp β → Prop
  | .operations s => s.target = J.operation → J.KeepsRow s
  | .backups (.create ..) => False
  | _ => True

theorem Described.exec (h : J.Described w) (hop : J.SparesRow op) :
    J.Described (op.exec as w).state := by
  constructor
  · intro row hrow
    by_cases hwrites : op.WritesOperation J.operation
    · cases op with
      | operations s =>
        change (onVolumeTable (as.headD default) (s.exec _) _ _ w).2.operations.find? _ = some row at hrow
        unfold onVolumeTable at hrow
        split at hrow
        · exact h.operation row hrow
        rcases OperationStmt.find?_exec_cases hrow with ⟨_, _, _, _, _, rfl⟩ | ⟨old, hold, rfl | rfl⟩
        · exact (hop hwrites).elim
        · exact h.operation _ hold
        · exact (hop hwrites).row _ (h.operation old hold)
      | _ => exact hwrites.elim
    · rw [VolumeOp.find?_operations fun h => absurd h hwrites] at hrow
      exact h.operation row hrow
  · intro row hrow
    by_cases hleaves : op.LeavesBackups
    · rw [VolumeOp.backups_exec hleaves] at hrow
      exact h.backup row hrow
    cases op with
    | backups s =>
      change (onVolumeTable (as.headD default) (s.exec _) _ _ w).2.backups.find? _ = some row at hrow
      unfold onVolumeTable at hrow
      split at hrow
      · exact h.backup row hrow
      cases s with
      | create => exact hop.elim
      | updateState =>
        obtain ⟨old, hold, hvolume⟩ := BackupStmt.find?_updateState hrow
        exact hvolume.trans (h.backup old hold)
      | deleteByID id =>
        have hkeep : (w.backups.keep fun b => b.id != id).find? J.backup = some row := hrow
        rw [Table.find?_keep] at hkeep
        exact h.backup row (Option.filter_eq_some_iff.mp hkeep).1
    | _ => exact absurd trivial hleaves

theorem backupFindByProjectID_ok (h : VolumeQuery.eval (.backupFindByProjectID p) w = .ok l) :
    (l.map (·.id)).Nodup ∧ (∀ r ∈ l, r ∈ w.backups.rows) ∧
      ∃ volume, ∀ r ∈ l, r.projectVolumeId = volume := by
  obtain rfl : newestBackups _ = l := Except.ok.inj h
  have hperm := List.perm_insertionSort (fun a b : VolumeBackup => b.createdAt ≤ a.createdAt)
    (w.backups.rows.filter fun b =>
      (w.volumes.find? p).any fun v => v.undeleted && v.id == b.projectVolumeId)
  have hmem := fun r hr => List.mem_filter.mp ((hperm.mem_iff (a := r)).mp hr)
  refine ⟨?_, fun r hr => (hmem r hr).1, ((w.volumes.find? p).map (·.id)).getD 0, fun r hr => ?_⟩
  · refine ((hperm.map (·.id)).nodup_iff).mpr ?_
    exact w.backups.nodup.sublist (List.filter_sublist.map _)
  · obtain ⟨v, hv, hid⟩ := (Option.any_eq_true _ _).mp (hmem r hr).2
    rw [hv]
    exact (beq_iff_eq.mp (Bool.and_eq_true_iff.mp hid).2).symm

theorem Listed.of_eval (h : VolumeQuery.eval (.backupFindByProjectID p) w = .ok l)
    (hk : ∃ row ∈ w.backups.rows, J.Saves row ∧ row.id = k) : J.Listed l k := by
  obtain ⟨hnodup, hrows, volume, hvolume⟩ := backupFindByProjectID_ok h
  refine ⟨hnodup, ?_⟩
  by_cases hJ : volume = J.volume
  · exact .inl fun r hr => (hvolume r hr).trans hJ
  · refine .inr fun r hr => ⟨fun h => hJ ((hvolume r hr).symm.trans h), fun hid => hJ ?_⟩
    obtain ⟨row, hrow, hsaves, rfl⟩ := hk
    obtain rfl := Table.eq_of_key_eq (hrows r hr) hrow hid
    exact (hvolume r hr).symm.trans hsaves.1

theorem kept_saves (h : VolumeQuery.eval (.backupFindByProjectID p) w = .ok l)
    (hk : ∃ row ∈ w.backups.rows, J.Saves row ∧ row.id = k) :
    ∃ row ∈ w.backups.rows, J.Saves row ∧ row.id = J.kept l k := by
  unfold kept
  cases hr : l.find? (fun r => r.status = .succeeded ∧ r.projectVolumeId = J.volume) with
  | none => exact hk
  | some r =>
    have hsaves : r.status = .succeeded ∧ r.projectVolumeId = J.volume := by
      simpa using List.find?_some hr
    exact ⟨r, (backupFindByProjectID_ok h).2.1 r (List.mem_of_find?_eq_some hr), hsaves.symm, rfl⟩

theorem Stage.possible_exec (hD : J.Described w) (hm : m.Holds J w) (hop : J.SparesRow op) :
    m.Possible J op (op.exec as w).value := by
  cases op with
  | operations s =>
    refine VolumeOp.operations_value (fun _ => trivial) fun now row hrow hs => ?_
    cases s with
    | create => exact (hop hs).elim
    | updateRunning id | updateState id =>
      obtain ⟨old, hold, -, rfl, -⟩ := Table.updateKey_fst_eq_some (returning_ok hrow)
      obtain rfl : id = J.operation := hs
      exact (hop rfl).row _ (hD.operation old hold)
  | read q =>
    cases q with
    | operationFindByID id =>
      refine VolumeOp.read_value (fun _ => trivial) fun row h => ?_
      rintro rfl
      exact hD.operation row (one_ok h)
    | volumeFindByID id =>
      refine VolumeOp.read_value (fun _ => trivial) fun v h => ?_
      have := List.find?_some (Option.filter_eq_some_iff.mp (one_ok h)).1
      exact beq_iff_eq.mp this
    | backupFindByID id =>
      exact VolumeOp.read_value (fun _ => trivial) fun row h => Table.find?_key (one_ok h)
    | backupFindByProjectID p =>
      refine VolumeOp.read_value (fun _ => trivial) fun l h => ?_
      rintro k rfl
      exact .of_eval h hm.2
    | operationFindCurrentByVolumeID | volumeFindAnyByProjectID => trivial
  | _ => trivial

end steps

/-! ## When a backup is taken up again -/

def marksRunning {β : Type} : VolumeOp β → Option Id
  | .backups (.updateState id .running ..) => some id
  | _ => none

/-- A backup is marked as running only while the disk is there or there is another successful backup,
unless the statement fails. -/
def MarksInTime (J : BackupJob) : Actor → List (Call VolumeOp) →
    Prog.Guard VolumeOp Answer VolumeWorld
  | .owner, _, _, op, as, w => ∀ id ∈ marksRunning op, (as.headD default).fail = true ∨
      w.holds J.disk = true ∨ ∃ row ∈ w.backups.rows, J.Saves row ∧ row.id ≠ id
  | .elsewhere _, _, _, _, _, _ | .other _, _, _, _, _, _ => True

instance : Decidable (J.MarksInTime i log β op as w) := by
  unfold BackupJob.MarksInTime
  cases i <;> infer_instance

section marking
variable {J : BackupJob} {m : Stage} {op : VolumeOp β} {as : List Answer} {w : VolumeWorld}

theorem localVolumeHealth_holds {server volume : Id}
    (h : ((VolumeOp.localVolumeHealth server volume).exec as w).value.2 = "") :
    w.holds ⟨server, volume⟩ = true := by
  dsimp only [VolumeOp.exec, answering] at h
  split at h
  · simp at h
  split at h
  · simp at h
  · next hholds => simpa using hholds

theorem Stage.written_holds {size : Nat} {status : OperationStatus}
    {row : VolumeBackup} (hD : J.Described w) (hm : m.Holds J w) (hwrites : m.Writes status)
    (hguard : status = .running → w.holds J.disk = true ∨
      ∃ row ∈ w.backups.rows, J.Saves row ∧ row.id ≠ J.backup)
    (hrow : (BackupStmt.exec now (.updateState J.backup status url key size error) w.backups).1 =
      .ok row) :
    (m.written J status).Holds J (w.withBackups
      (BackupStmt.exec now (.updateState J.backup status url key size error) w.backups).2) := by
  have hothers : (w.holds J.disk = true ∨ ∃ row ∈ w.backups.rows, J.Saves row ∧ row.id ≠ J.backup) →
      marked.Holds J (w.withBackups
        (BackupStmt.exec now (.updateState J.backup status url key size error) w.backups).2) :=
    .imp_right fun ⟨r, hr, hsaves, hne⟩ => ⟨r, BackupStmt.mem_updateState_ne hr hne, hsaves, hne⟩
  cases status with
  | pending => exact hwrites.elim
  | running => exact hothers (hguard rfl)
  | failed =>
    rcases hwrites with rfl | rfl | ⟨k, rfl⟩
    · exact hothers hm
    · exact hm
    · exact hm.1
  | succeeded =>
    obtain rfl : m = .present := hwrites
    obtain ⟨hmem, hid, hstatus, old, hold, hvolume⟩ := BackupStmt.updateState_ok hrow
    exact ⟨hm, row, hmem, ⟨hvolume.trans (hD.backup old hold), hstatus⟩, hid⟩

theorem Stage.Allows.holds (hop : m.Allows J op)
    (hguard : J.MarksInTime .owner log β op as w) (hD : J.Described w) (hm : m.Holds J w) :
    (m.next J op (op.exec as w).value).Holds J (op.exec as w).state := by
  cases op with
  | backups s =>
    cases s with
    | create => exact hop.elim
    | updateState id status url key size error =>
      obtain ⟨rfl, hwrites⟩ := hop
      change (m.next J (.backups (.updateState ..))
        (onVolumeTable (as.headD default) (BackupStmt.exec _ _) _ _ w).1).Holds J
        (onVolumeTable (as.headD default) (BackupStmt.exec _ _) _ _ w).2
      unfold onVolumeTable
      split
      · exact hm
      next hfail =>
      cases hrow : (BackupStmt.exec (as.headD default).now
          (.updateState J.backup status url key size error) w.backups).1 with
      | error e =>
        exact hm.mono id fun r hr => BackupStmt.mem_updateState_ne hr (BackupStmt.updateState_error hrow r hr)
      | ok row =>
        refine Stage.written_holds hD hm hwrites (fun hst => ?_) hrow
        subst hst
        exact (hguard J.backup rfl).resolve_left hfail
    | deleteByID id =>
      obtain ⟨k, rfl, hne⟩ := hop
      refine onVolumeTable_keeps (P := (Stage.saved k).Holds J) hm fun _ => ?_
      obtain ⟨hdisk, row, hrow, hsaves, hid⟩ := hm
      exact ⟨hdisk, row, Table.mem_keep.mpr ⟨hrow, by simpa [hid] using hne.symm⟩, hsaves, hid⟩
  | removeFile server volume =>
    obtain ⟨-, k, rfl⟩ := hop
    dsimp only [VolumeOp.exec, answering]
    split
    · exact hm
    · exact hm.2
  | localVolumeHealth server volume =>
    change (if _ then _ else _ : Stage).Holds J w
    split
    · next h =>
      have hholds : w.holds ⟨server, volume⟩ = true := localVolumeHealth_holds h.2.2
      rwa [h.2.1] at hholds
    · exact hm
  | read q =>
    cases q with
    | backupFindByProjectID p =>
      change (m.next J (.read (.backupFindByProjectID p)) (if _ then _ else _)).Holds J w
      split
      · exact hm
      cases m with
      | saved k => exact ⟨hm.1, kept_saves (p := p) rfl hm.2⟩
      | _ => exact hm
    | _ => exact hm
  | operations => exact Harmless.holds hop hm
  | downloadFile => exact Harmless.holds hop hm
  | deployer => exact Harmless.holds hop hm
  | rows => exact Harmless.holds trivial hm
  | _ => exact hm

/-- A backup that is marked as running out of time was the last one. -/
theorem MarksInTime.of_preserved (h : J.Preserved (op.exec as w).state) :
    J.MarksInTime .owner log β op as w := by
  intro id hid
  cases op with
  | backups s =>
    cases s with
    | updateState b status url key size error =>
      cases status with
      | running =>
        obtain rfl : b = id := Option.some.inj hid
        by_cases hfail : (as.headD default).fail = true
        · exact .inl hfail
        rcases h with hdisk | ⟨row, hrow, hsaves⟩
        · have hleaves : VolumeOp.LeavesDisk J.disk
              (.backups (.updateState b .running url key size error)) := trivial
          rw [VolumeOp.holds_exec hleaves] at hdisk
          exact .inr (.inl hdisk)
        refine .inr (.inr ?_)
        dsimp only [VolumeOp.exec, answering, onVolumeTable] at hrow
        rw [if_neg hfail] at hrow
        rcases BackupStmt.mem_updateState hrow with ⟨hmem, hne⟩ | ⟨-, hst⟩
        · exact ⟨row, hmem, hsaves, hne⟩
        · rw [hsaves.2] at hst
          cases hst
      | _ => cases hid
    | _ => cases hid
  | _ => cases hid

end marking

/-! ## Runs -/

/-- The programs of an actor: passes over the operation, and programs that do not touch the backups,
the disk and the operation. -/
def deletionStarts : Actor → Prog VolumeOp (Except Err Unit) → Prop
  | .owner, p => p = reconcileVolumeOperation ⟨J.server⟩ J.operation
  | .elsewhere _, p => ∃ h : VolumeHandler, h.serverId ≠ J.server ∧
      p = reconcileVolumeOperation h J.operation
  | .other _, p => p.Uses fun _ op => J.Harmless op ∧ ¬op.WritesOperation J.operation

abbrev DeletionTeam := Team Actor VolumeOp (Except Err Unit) VolumeWorld

theorem Harmless.spares {J : BackupJob} {op : VolumeOp β} (h : J.Harmless op) : J.SparesRow op := by
  cases op <;> first | exact h | exact h.elim | trivial

theorem Stage.Allows.spares {J : BackupJob} {m : Stage} {op : VolumeOp β} (h : m.Allows J op) :
    J.SparesRow op := by
  cases op with
  | operations => exact h
  | backups s => cases s <;> trivial
  | _ => trivial

theorem restart_holds {J : BackupJob} (h : (M .owner).Holds J w) :
    (Function.update M i (J.stages i).start .owner).Holds J w := by
  rw [Function.update_apply]
  split
  · next hi =>
    subst hi
    exact h.preserved
  · exact h

theorem stages_kept : Team.Keeps J.deletionStarts (fun _ => id) J.MarksInTime J.stages
    (fun _ _ => True) fun M w => J.Described w ∧ (M .owner).Holds J w where
  starts i p hp := by
    cases i with
    | owner =>
      obtain rfl := hp
      exact reconcileVolumeOperation_owner
    | elsewhere n =>
      obtain ⟨h, hserver, rfl⟩ := hp
      exact reconcileVolumeOperation_elsewhere hserver
    | other n => exact .of_uses (hp.mono fun _ _ hop _ => hop.1) _
  rest _ := trivial
  call M i log w β op as hM hallows hguard hI := by
    obtain ⟨hD, hm⟩ := hI
    cases i with
    | owner =>
      refine ⟨Stage.possible_exec hD hm hallows.spares, hD.exec hallows.spares, ?_⟩
      exact hallows.holds hguard hD hm
    | elsewhere | other =>
      refine ⟨Stage.possible_exec hD hm.preserved (Harmless.spares hallows),
        hD.exec (Harmless.spares hallows), ?_⟩
      rw [Function.update_of_ne]
      · exact Harmless.holds hallows hm
      · nofun
  start _ _ _ _ hI := ⟨hI.1, restart_holds hI.2⟩
  crash _ _ _ hI := ⟨hI.1, restart_holds hI.2⟩

/-- **Volumes that are deleted after a backup.** Let passes over a backup operation on its server, one
after the other, passes of other servers, and other programs interleave, with any failures. As long as
backups are marked in time, the data are on the disk of the server or in a successful backup; and a
call of the pass on the server keeps it so exactly when it is in time. -/
theorem deleted_volume_preserved (w : VolumeWorld) (hw : J.Described w) (hkept : J.Preserved w)
    (c : DeletionTeam)
    (hc : Team.Run J.deletionStarts (fun _ => id) J.MarksInTime (Team.idle (.ok ()) w) c) :
    J.Preserved c.state ∧
    ∀ (β : Type) (op : VolumeOp β) (k : β → Prog VolumeOp (Except Err Unit)) (as : List Answer),
      c.prog .owner = .call op k →
      (J.Preserved (op.exec as c.state).state ↔
        J.MarksInTime .owner (c.log .owner) β op as c.state) := by
  obtain ⟨hfollow, hD, hm⟩ := J.stages_kept.run (J.stages_kept.follow_idle _ w) ⟨hw, hkept⟩ hc
  refine ⟨hm.preserved, fun β op k as hprog => ⟨.of_preserved, fun hguard => ?_⟩⟩
  have hallows := hfollow .owner
  rw [hprog] at hallows
  exact (hallows.1.holds hguard hD hm).preserved

/-- Volume 9 of project 3 on server 5 is to be deleted, after backup 70. -/
def deletionJob : BackupJob := ⟨30, 5, 9, 70⟩

def deletionWorld : VolumeWorld where
  toWorld :=
    { volumes := .single { id := 9, projectId := 3, serverId := some 5, status := .deleting } }
  operations :=
    .single { id := 30, projectVolumeId := 9, serverId := some 5, kind := .backup
              request := some { backupId := some 70, deleteAfter := true } }
  backups := .single { id := 70, projectVolumeId := 9, kind := .preDelete }
  disks := [⟨5, 9⟩]

theorem deletionWorld_described : deletionJob.Described deletionWorld := by
  constructor
  · intro row hrow
    obtain rfl := Option.some.inj hrow
    exact ⟨rfl, rfl, rfl, rfl, _, rfl, rfl⟩
  · intro row hrow
    obtain rfl := Option.some.inj hrow
    rfl

def deletionPass : DeletionTeam :=
  (Team.idle (.ok ()) deletionWorld).begin .owner (reconcileVolumeOperation ⟨5⟩ 30)

/-- The disk is removed, and then the end of the operation is not recorded. -/
def unrecordedDeletion : DeletionTeam :=
  deletionPass.turns (List.replicate 11 (.owner, []) ++ [(.owner, [{ fail := true }])])

/-- The pass that takes up the operation again finds no disk, and marks the backup as failed. -/
theorem data_lost_after_retry : ∃ c : DeletionTeam,
    Team.Run deletionJob.deletionStarts (fun _ => id) (fun _ _ => Prog.unguarded)
      (Team.idle (.ok ()) deletionWorld) c ∧
    deletionWorld.holds deletionJob.disk = true ∧ c.state.holds deletionJob.disk = false ∧
    (c.state.backups.rows.map (·.status)) = [.failed] :=
  ⟨(unrecordedDeletion.begin .owner (reconcileVolumeOperation ⟨5⟩ 30)).turns
      (List.replicate 9 (.owner, [])),
    (Team.Run.begin .owner _ rfl rfl).trans ((Team.Run.turns (Team.turnsMeet_unguarded _ _)).trans
      ((Team.Run.begin .owner _ rfl rfl).trans (Team.Run.turns (Team.turnsMeet_unguarded _ _)))),
    by decide +kernel, by decide +kernel, by decide +kernel⟩

/-- Up to there the data are preserved. -/
theorem unrecordedDeletion_preserved : unrecordedDeletion.state.holds deletionJob.disk = false ∧
    deletionJob.Preserved unrecordedDeletion.state := by
  have hrun : Team.Run deletionJob.deletionStarts (fun _ => id) deletionJob.MarksInTime
      (Team.idle (.ok ()) deletionWorld) unrecordedDeletion :=
    (Team.Run.begin .owner _ rfl rfl).trans (Team.Run.turns (by decide +kernel))
  exact ⟨by decide +kernel, (deletionJob.deleted_volume_preserved deletionWorld
    deletionWorld_described (.inl (by decide +kernel)) unrecordedDeletion hrun).1⟩

end BackupJob
end Kindling
