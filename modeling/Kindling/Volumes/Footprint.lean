import Kindling.Deploy.Executions
import Kindling.Volumes.Store

/-!
# What the calls on volumes leave alone

One lemma for each table: the calls that do not write it, or whose write fails, leave it as it is.
-/

namespace Kindling

variable {s : OperationStmt} {w : VolumeWorld} {row : VolumeOperation} {g : VolumeWorld → γ}
  {C : Except Err β → Prop}

theorem inserting_find?_ne [DecidableEq κ] {key : ρ → κ} {t : Table κ ρ key} (h : key x ≠ k) :
    (inserting t x).2.find? k = t.find? k := by
  unfold inserting
  split
  · next t' ht' => rw [Table.find?_insert? ht', if_neg h]
  · rfl

theorem OperationStmt.find?_exec_ne (h : s.target ≠ o) (now : Time)
    (t : OperationTable) : (s.exec now t).2.find? o = t.find? o := by
  cases s with
  | create => exact inserting_find?_ne h
  | updateRunning | updateState =>
    exact t.find?_updateKey_ne _ _ (OperationStmt.change_id now _) h.symm

theorem OperationStmt.exec_id (h : (s.exec now t).1 = .ok row) : row.id = s.target := by
  cases s with
  | create =>
    obtain ⟨rfl, -⟩ := inserting_ok h
    rfl
  | updateRunning id | updateState id =>
    obtain ⟨_, -, -, -, hid⟩ := Table.updateKey_fst_eq_some (returning_ok h)
    exact hid

theorem OperationStmt.find?_exec_cases {t : OperationTable} (h : (s.exec now t).2.find? o = some row) :
    (∃ id v server kind req, s = .create id v server kind req) ∨
      ∃ old, t.find? o = some old ∧ (row = old ∨ row = s.change now old) := by
  cases s with
  | create => exact .inl ⟨_, _, _, _, _, rfl⟩
  | updateRunning id | updateState id =>
    refine .inr ?_
    simp only [exec, returning, Table.find?_updateKey] at h
    obtain ⟨old, hold, rfl⟩ := Option.map_eq_some_iff.mp h
    refine ⟨old, hold, ?_⟩
    split
    · exact .inr rfl
    · exact .inl rfl

namespace BackupStmt
variable {id : Id} {status : OperationStatus} {url key : String} {size : Nat} {error : String}
  {now : Time} {t : BackupTable}

theorem mem_updateState_ne (hr : r ∈ t.rows) (hid : r.id ≠ id) :
    r ∈ (exec now (.updateState id status url key size error) t).2.rows := by
  refine Table.mem_of_find? (k := r.id) ?_
  have hfind : t.find? r.id = some r := Table.find?_of_mem hr
  simp only [exec, returning, Table.find?_updateKey, hfind]
  simp [hid]

theorem updateState_ok {row : VolumeBackup}
    (h : (exec now (.updateState id status url key size error) t).1 = .ok row) :
    row ∈ (exec now (.updateState id status url key size error) t).2.rows ∧ row.id = id ∧
      row.status = status ∧ ∃ old, t.find? id = some old ∧ row.projectVolumeId = old.projectVolumeId := by
  obtain ⟨old, hold, -, rfl, hid⟩ := Table.updateKey_fst_eq_some (returning_ok h)
  refine ⟨Table.mem_of_find? (k := id) ?_, hid, rfl, old, hold, rfl⟩
  simp only [exec, returning, Table.find?_updateKey_self, hold]
  rfl

theorem updateState_error
    (h : (exec now (.updateState id status url key size error) t).1 = .error e) :
    ∀ r ∈ t.rows, r.id ≠ id := by
  have hnone := returning_error h
  rw [Table.updateKey_fst] at hnone
  refine Table.find?_eq_none.mp ?_
  cases hfind : t.find? id with
  | none => rfl
  | some r =>
    rw [hfind] at hnone
    cases hnone

theorem mem_updateState (h : r ∈ (exec now (.updateState id status url key size error) t).2.rows) :
    (r ∈ t.rows ∧ r.id ≠ id) ∨ (r.id = id ∧ r.status = status) := by
  have hfind := Table.find?_of_mem h
  simp only [exec, returning, Table.find?_updateKey] at hfind
  obtain ⟨old, hold, hr⟩ := Option.map_eq_some_iff.mp hfind
  split at hr
  · next hid => exact .inr ⟨hid.1, hr ▸ rfl⟩
  · next hid =>
    subst hr
    exact .inl ⟨Table.mem_of_find? hold, fun h => hid ⟨h, trivial⟩⟩

theorem find?_updateState {row : VolumeBackup}
    (h : (exec now (.updateState id status url key size error) t).2.find? b = some row) :
    ∃ old, t.find? b = some old ∧ row.projectVolumeId = old.projectVolumeId := by
  simp only [exec, returning, Table.find?_updateKey] at h
  obtain ⟨old, hold, rfl⟩ := Option.map_eq_some_iff.mp h
  refine ⟨old, hold, ?_⟩
  split <;> rfl

end BackupStmt

/-! ## Tables -/

namespace VolumeWorld

theorem addDisk_keeps (hg : ∀ w l, g { w with disks := l } = g w)
    (w : VolumeWorld) (d : Disk) : g (w.addDisk d) = g w := by
  unfold addDisk
  split
  · rfl
  · exact hg ..

theorem holds_addDisk (h : d' ≠ d) : (w.addDisk d').holds d = w.holds d := by
  unfold addDisk
  split
  · rfl
  · simp [holds, h.symm]

theorem holds_removeDisk (h : d' ≠ d) : (w.removeDisk d').holds d = w.holds d := by
  simp [holds, removeDisk, h.symm]

end VolumeWorld

namespace Op
variable (o : Op β) (as : List Answer) (w : VolumeWorld)

theorem execWithDisks_keeps (hg : ∀ w l, g { w with disks := l } = g w) :
    g (o.execWithDisks as w).state = g { w with toWorld := (o.exec as w.toWorld).state } := by
  unfold execWithDisks
  split
  · rfl
  · cases o.makesDisk with
    | none => rfl
    | some d => exact VolumeWorld.addDisk_keeps hg ..

theorem execWithDisks_toWorld :
    (o.execWithDisks as w).state.toWorld = (o.exec as w.toWorld).state :=
  o.execWithDisks_keeps as w fun _ _ => rfl

variable {o} in
theorem execWithDisks_holds (h : o.makesDisk ≠ some d) :
    (o.execWithDisks as w).state.holds d = w.holds d := by
  unfold execWithDisks
  split
  · rfl
  · cases hd : o.makesDisk with
    | none => rfl
    | some d' =>
      refine (VolumeWorld.holds_addDisk fun hne => h ?_).trans rfl
      rw [hd, hne]

end Op

/-- A property of the state that holds before a statement, and after it if it does not fail. -/
theorem onVolumeTable_keeps {P : VolumeWorld → Prop} {a : Answer} {exec : τ → Except Err β × τ}
    {get : VolumeWorld → τ} {set : τ → VolumeWorld → VolumeWorld} (hw : P w)
    (hset : a.fail = false → P (set (exec (get w)).2 w)) : P (onVolumeTable a exec get set w).2 := by
  unfold onVolumeTable
  split
  · exact hw
  · next hfail => exact hset (Bool.eq_false_iff.mpr hfail)

namespace VolumeOp
variable {op : VolumeOp β} {as : List Answer} {w : VolumeWorld}

/-- A read fails, or returns what the query evaluates to. -/
theorem read_value (herr : ∀ e, C (.error e))
    (hok : ∀ v, q.eval w = .ok v → C (.ok v)) : C ((read q).exec as w).value := by
  change C (if _ then _ else _)
  split
  · exact herr _
  · cases h : q.eval w with
    | error e => exact herr e
    | ok v => exact hok v h

theorem query_value (herr : ∀ e, C (.error e))
    (hok : ∀ now v, q.eval now w.toWorld = .ok v → C (.ok v)) :
    C ((deployer (.db (.query q))).exec as w).value := by
  change C (if _ then _ else _)
  split
  · exact herr _
  · cases h : q.eval (as.headD default).now w.toWorld with
    | error e => exact herr e
    | ok v => exact hok _ v h

theorem operations_value {C : Except Err VolumeOperation → Prop}
    (herr : ∀ e, C (.error e)) (hok : ∀ now row, (s.exec now w.operations).1 = .ok row → C (.ok row)) :
    C ((operations s).exec as w).value := by
  change C (onVolumeTable _ _ _ _ w).1
  unfold onVolumeTable
  split
  · exact herr _
  · cases h : (s.exec (as.headD default).now w.operations).1 with
    | error e => exact herr e
    | ok row => exact hok _ row h

def WritesOperation (o : Id) {β : Type} : VolumeOp β → Prop
  | .operations s => s.target = o
  | _ => False

def LeavesOperations {β : Type} : VolumeOp β → Prop
  | .operations _ => False
  | _ => True

theorem operations_exec (h : op.LeavesOperations) : (op.exec as w).state.operations = w.operations := by
  cases op with
  | deployer d => exact d.execWithDisks_keeps as w fun _ _ => rfl
  | operations => exact h.elim
  | backups | rows => exact onVolumeTable_keeps (P := fun w' => w'.operations = _) rfl fun _ => rfl
  | downloadFile =>
    dsimp only [exec, answering]
    split
    · rfl
    · exact w.addDisk_keeps (fun _ _ => rfl) _
  | removeFile =>
    dsimp only [exec, answering]
    split <;> rfl
  | _ => rfl

theorem find?_operations (h : op.WritesOperation o → (as.headD default).fail = true) :
    (op.exec as w).state.operations.find? o = w.operations.find? o := by
  cases op with
  | operations s =>
    refine onVolumeTable_keeps (P := fun w' => w'.operations.find? o = _) rfl fun hfail => ?_
    refine OperationStmt.find?_exec_ne (fun hs => ?_) ..
    rw [h hs] at hfail
    cases hfail
  | _ =>
    rw [operations_exec]
    trivial

def LeavesBackups {β : Type} : VolumeOp β → Prop
  | .backups _ => False
  | _ => True

theorem backups_exec (h : op.LeavesBackups) : (op.exec as w).state.backups = w.backups := by
  cases op with
  | deployer d => exact d.execWithDisks_keeps as w fun _ _ => rfl
  | backups => exact h.elim
  | operations | rows => exact onVolumeTable_keeps (P := fun w' => w'.backups = _) rfl fun _ => rfl
  | downloadFile =>
    dsimp only [exec, answering]
    split
    · rfl
    · exact w.addDisk_keeps (fun _ _ => rfl) _
  | removeFile =>
    dsimp only [exec, answering]
    split <;> rfl
  | _ => rfl

def LeavesDisk (d : Disk) {β : Type} : VolumeOp β → Prop
  | .downloadFile server volume _ | .removeFile server volume => (⟨server, volume⟩ : Disk) ≠ d
  | .deployer o => o.makesDisk ≠ some d
  | _ => True

theorem holds_exec (h : op.LeavesDisk d) : (op.exec as w).state.holds d = w.holds d := by
  cases op with
  | deployer o => exact Op.execWithDisks_holds as w h
  | operations | backups | rows =>
    exact onVolumeTable_keeps (P := fun w' => w'.holds d = _) rfl fun _ => rfl
  | downloadFile =>
    dsimp only [exec, answering]
    split
    · rfl
    · exact VolumeWorld.holds_addDisk h
  | removeFile =>
    dsimp only [exec, answering]
    split
    · rfl
    · exact VolumeWorld.holds_removeDisk h
  | _ => rfl

def LeavesWorld {β : Type} : VolumeOp β → Prop
  | .deployer (.db (.query _)) | .deployer .now => True
  | .deployer _ | .rows _ => False
  | _ => True

theorem toWorld_exec (h : op.LeavesWorld) : (op.exec as w).state.toWorld = w.toWorld := by
  cases op with
  | deployer d =>
    refine (d.execWithDisks_toWorld as w).trans ?_
    cases d with
    | db s => cases s <;> first | rfl | exact h.elim
    | now => rfl
    | _ => exact h.elim
  | rows => exact h.elim
  | operations | backups => exact onVolumeTable_keeps (P := fun w' => w'.toWorld = _) rfl fun _ => rfl
  | downloadFile =>
    dsimp only [exec, answering]
    split
    · rfl
    · exact w.addDisk_keeps (fun _ _ => rfl) _
  | removeFile =>
    dsimp only [exec, answering]
    split <;> rfl
  | _ => rfl

end VolumeOp
end Kindling
