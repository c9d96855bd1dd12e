import Kindling.Verify.VolumeOperations

/-!
# Volumes after an operation

While an operation is active its volume is in a transitional status, in which it can be used for
nothing else. The pass that ends the operation writes the operation first and the volume in a second
statement.
-/

namespace Kindling

open Fallible

variable {m : OperationSight} {D : OperationView}

/-- If the operation has succeeded or failed, its volume is not in a transitional status. -/
def VolumeWorld.Released (o volume : Id) (w : VolumeWorld) : Prop :=
  (w.operations.find? o).any (·.status.terminal) = true →
    (w.volumeByID volume).all (!·.status.transitional) = true

instance (w : VolumeWorld) : Decidable (w.Released o volume) := inferInstanceAs (Decidable (_ → _))

def VolumeOp.isRows : VolumeOp β → Bool
  | .rows _ => true
  | _ => false

/-- The statements that write the status of the volume do not fail. -/
def RowWritesSucceed : Prog.Guard VolumeOp Answer VolumeWorld := fun _ op as _ =>
  op.isRows = true → (as.headD default).fail = false

instance : Decidable (RowWritesSucceed β op as w) := inferInstanceAs (Decidable (_ → _))

theorem OperationStmt.exec_of_find {s : OperationStmt} {t : OperationTable} {row : VolumeOperation}
    (hrow : t.find? s.target = some row) (now : Time) :
    ((s.exec now t).1 = .ok (s.change now row) ∧
      (s.exec now t).2.find? s.target = some (s.change now row) ∧
      (s.change now row).status = s.writes) ∨
    ∃ e, (s.exec now t).1 = .error e ∧ (s.exec now t).2 = t := by
  cases s with
  | create id =>
    refine .inr ⟨.of .uniqueViolation, ?_⟩
    simp only [exec, inserting]
    cases h : t.insert? _ with
    | none => exact ⟨rfl, rfl⟩
    | some t' => cases hrow.symm.trans (Table.insert?_fresh h)
  | updateRunning | updateState =>
    simp only [target] at hrow
    refine .inl ⟨?_, ?_, rfl⟩
    · simp only [exec, returning, Table.updateKey_fst, hrow]
      rfl
    · simp only [exec, returning, target, Table.find?_updateKey_self, hrow]
      rfl

theorem OperationStmt.change_volume (s : OperationStmt) (now : Time) (row : VolumeOperation) :
    (s.change now row).projectVolumeId = row.projectVolumeId := by
  cases s <;> rfl

theorem volumeByID_updateKey {w w' : VolumeWorld} (hf : ∀ v, (f v).projectId = v.projectId)
    (hid : ∀ v, (f v).id = v.id) (h : w'.volumes = (w.volumes.updateKey p a f hf).2) (volume : Id) :
    w'.volumeByID volume =
      (w.volumeByID volume).map fun v => if v.projectId = p && a v then f v else v := by
  unfold VolumeWorld.volumeByID
  rw [h]
  change (w.volumes.rows.map fun v => if v.projectId = p && a v then f v else v).find? _ = _
  rw [List.find?_map]
  congr 2
  funext v
  simp only [Function.comp]
  split
  · rw [hid]
  · rfl

/-! ## Passes -/

def viewOf (volume project : Id) : OperationView :=
  ⟨fun row => row.projectVolumeId = volume, fun vol => vol.projectId = project⟩

structure VolumeWorld.Busy (o volume project : Id) (ended : Bool) (w : VolumeWorld) : Prop where
  operation : ∃ row, w.operations.find? o = some row ∧ row.projectVolumeId = volume ∧
    row.status.terminal = ended
  volume : ∃ v, w.volumeByID volume = some v ∧ v.projectId = project ∧ v.undeleted = true ∧
    v.status.transitional = true

/-- The pass has ended the operation, and not yet written the volume, or it has not ended it. -/
def OperationSight.At : Bool → OperationSight → Prop
  | true, m => m = .ended
  | false, m => m.Open

section
variable {o volume project : Id} {b : Bool} {w : VolumeWorld} {as : List Answer}

theorem VolumeWorld.Busy.not_released (h : w.Busy o volume project true) :
    ¬w.Released o volume := by
  obtain ⟨⟨row, hrow, -, hend⟩, v, hv, -, -, htransitional⟩ := h
  unfold VolumeWorld.Released
  simp [hrow, hend, hv, htransitional]

theorem VolumeWorld.Busy.released (h : w.Busy o volume project false) : w.Released o volume := by
  obtain ⟨⟨row, hrow, -, hlive⟩, -⟩ := h
  unfold VolumeWorld.Released
  simp [hrow, hlive]

theorem VolumeWorld.Busy.possible (h : w.Busy o volume project b) (op : VolumeOp β) :
    OperationSight.Possible (viewOf volume project) o op (op.exec as w).value := by
  obtain ⟨⟨row, hrow, hvolume, -⟩, v, hv, hproject, -, -⟩ := h
  refine OperationSight.possible_exec (fun row' hrow' => ?_) (fun row' v' hD hv' => ?_) op as
  · cases hrow.symm.trans hrow'
    exact hvolume
  · rw [show row'.projectVolumeId = volume from hD] at hv'
    cases hv.symm.trans hv'
    exact hproject

theorem VolumeWorld.Busy.operations (h : w.Busy o volume project false) {s : OperationStmt}
    (hs : s.target = o) (hm : m.Open) :
    ∃ b, ((VolumeOp.operations s).exec as w).state.Busy o volume project b ∧
      (m.next o (.operations s) ((VolumeOp.operations s).exec as w).value).At b := by
  obtain ⟨⟨row, hrow, hvolume, hlive⟩, hv⟩ := h
  subst hs
  change ∃ b, (onVolumeTable (as.headD default) (s.exec _) _ _ w).2.Busy _ volume project b ∧
    (m.next _ (.operations s) (onVolumeTable (as.headD default) (s.exec _) _ _ w).1).At b
  unfold onVolumeTable
  split
  · exact ⟨false, ⟨⟨row, hrow, hvolume, hlive⟩, hv⟩, hm⟩
  rcases OperationStmt.exec_of_find hrow (as.headD default).now with ⟨hok, hfind, hst⟩ | ⟨e, herr, hsame⟩
  · refine ⟨s.writes.terminal, ⟨⟨_, hfind, ?_, by rw [hst]⟩, hv⟩, ?_⟩
    · exact (OperationStmt.change_volume ..).trans hvolume
    · rw [hok]
      change (OperationSight.written s.writes).At s.writes.terminal
      unfold OperationSight.written
      cases s.writes.terminal with
      | true => rfl
      | false => exact ⟨nofun, nofun⟩
  · refine ⟨false, ⟨⟨row, ?_, hvolume, hlive⟩, hv⟩, ?_⟩
    · rw [hsame]
      exact hrow
    · rw [herr]
      exact hm

/-- The other calls of a pass that has not ended the operation leave the volume in its status. -/
theorem VolumeWorld.Busy.open (h : w.Busy o volume project b)
    (hop : m.Allows D o op) (hm : m.Open) (hspares : ¬op.WritesOperation o) :
    (op.exec as w).state.Busy o volume project b := by
  obtain ⟨hrow, hv⟩ := h
  refine ⟨by rwa [VolumeOp.find?_operations fun h => absurd h hspares], ?_⟩
  by_cases hleaves : op.LeavesWorld
  · unfold VolumeWorld.volumeByID at hv ⊢
    rwa [VolumeOp.toWorld_exec hleaves]
  cases op with
  | rows s => exact absurd hop.1 hm.1
  | deployer d =>
    cases d with
    | db t =>
      cases t with
      | volumes t =>
        cases t with
        | assignServer p server =>
          obtain ⟨v, hv, hproject, hundeleted, htransitional⟩ := hv
          have hstate := Op.execWithDisks_toWorld (.db (.volumes (.assignServer p server))) as w
          have hexec : (Op.exec (.db (.volumes (.assignServer p server))) as w.toWorld).state.volumes =
              (onTable (as.headD default) (VolumeStmt.exec (.assignServer p server)) World.volumes
                .withVolumes w.toWorld).2.volumes := rfl
          unfold onTable at hexec
          split at hexec
          · refine ⟨v, ?_, hproject, hundeleted, htransitional⟩
            rw [← hv]
            exact congrArg (fun t : VolumeTable => t.rows.find? _)
              ((congrArg World.volumes hstate).trans hexec)
          · have hfind := volumeByID_updateKey (f := ({ · with serverId := some server }))
              (fun _ => rfl) (fun _ => rfl) ((congrArg World.volumes hstate).trans hexec) volume
            refine ⟨_, hfind.trans (by rw [hv, Option.map_some]), ?_⟩
            split <;> exact ⟨hproject, hundeleted, htransitional⟩
        | _ => exact hop.elim
      | query => exact absurd trivial hleaves
      | _ => exact hop.elim
    | now => exact absurd trivial hleaves
    | _ => exact hop.elim
  | _ => exact absurd trivial hleaves

theorem VolumeWorld.Busy.closing (h : w.Busy o volume project true)
    (hs : (viewOf volume project).Closing s) :
    ((VolumeOp.rows s).exec as w).state.Released o volume ↔ (as.headD default).fail = false := by
  change (onVolumeTable (as.headD default) (s.exec (as.headD default).now) _ _ w).2.Released o volume ↔ _
  unfold onVolumeTable
  split
  · next hfail => exact iff_of_false h.not_released (by rw [hfail]; nofun)
  next hfail =>
  refine iff_of_true (fun _ => ?_) (Bool.eq_false_iff.mpr hfail)
  obtain ⟨-, v, hv, hproject, hundeleted, -⟩ := h
  cases s with
  | updateStatusAndHealth p status health e =>
    obtain ⟨⟨vol, hvol, rfl⟩, hstatus⟩ := hs
    rw [volumeByID_updateKey
      (f := ({ · with status := status, health := health, lastError := e })) (fun _ => rfl)
      (fun _ => rfl) rfl volume, hv]
    have hproject : v.projectId = vol.projectId := hproject.trans hvol.symm
    simp [hproject, hundeleted, hstatus]
  | softDelete p =>
    obtain ⟨vol, hvol, rfl⟩ := hs
    rw [volumeByID_updateKey (f := ({ · with
      serverId := none, attachedVmId := none, status := .detached, health := .unknown
      lastError := "", deletedAt := some (as.headD default).now })) (fun _ => rfl)
      (fun _ => rfl) rfl volume, hv]
    have hproject : v.projectId = vol.projectId := hproject.trans hvol.symm
    simp [hproject, hundeleted, VolumeStatus.transitional]
  | create | updateSpec | revive => exact hs.elim

/-- A pass that has ended the operation only writes the volume. -/
theorem OperationSight.Allows.isRows (hop : m.Allows D o op) (hm : ¬m.Open) :
    op.isRows = true ∧ m = .ended := by
  have hlive : ¬m.Live := fun h => hm h.isOpen
  cases op with
  | operations => exact absurd hop.2 hlive
  | rows => exact ⟨rfl, hop.1⟩
  | deployer d =>
    cases d with
    | db s =>
      cases s with
      | query => exact absurd hop hm
      | volumes s => cases s <;> first | exact absurd hop hlive | exact hop.elim
      | _ => exact hop.elim
    | now => exact absurd hop hm
    | _ => exact hop.elim
  | _ => exact absurd hop hm

theorem OperationSight.Allows.next_open {op : VolumeOp β} (hop : m.Allows D o op) (hm : m.Open)
    (hspares : ¬op.WritesOperation o) (v : β) :
    (m.next o op v).Open := by
  cases op with
  | operations => exact absurd hop.1 hspares
  | rows => exact absurd hop.1 hm.1
  | read q =>
    cases q with
    | operationFindByID id =>
      cases v with
      | error => exact hm
      | ok row =>
        change (if id = o then .seen row.status else m).Open
        split
        · exact ⟨nofun, nofun⟩
        · exact hm
    | _ => exact hm
  | _ => exact hm

theorem closed_ret (h : (operationSight D o).Admits p Q .closed) : ∃ a, p = .ret a := by
  cases p with
  | ret a => exact ⟨a, rfl⟩
  | call op k => exact absurd (h.1.isRows fun hm => hm.2 rfl).2 nofun

theorem released_iff_of_admits
    (hp : (operationSight (viewOf volume project) o).Admits p (fun _ m' => m' ≠ .ended) m)
    (hm : m.At b) (h : w.Busy o volume project b) (as : List Answer) :
    (p.run as w).state.Released o volume ↔ p.Meets RowWritesSucceed as w := by
  induction p generalizing m b w as with
  | ret a =>
    cases b with
    | true => exact absurd hm hp
    | false => exact iff_of_true h.released trivial
  | call op k ih =>
    obtain ⟨hallows, hk⟩ := hp
    have hk := hk (op.exec as w).value (h.possible op)
    change ((k _).run _ _).state.Released o volume ↔ _ ∧ (k _).Meets _ _ _
    cases b with
    | true =>
      obtain rfl : m = .ended := hm
      obtain ⟨hrows, -⟩ := hallows.isRows fun hm => hm.1 rfl
      cases op with
      | rows s =>
        -- The volume is written in the last call.
        obtain ⟨a, ha⟩ := closed_ret hk
        change k (Effect.exec (VolumeOp.rows s) as w).value = _ at ha
        rw [ha]
        refine (h.closing hallows.2).trans ?_
        exact ⟨fun hok => ⟨fun _ => hok, trivial⟩, fun hmeets => hmeets.1 rfl⟩
      | _ => cases hrows
    | false =>
      have hrows : op.isRows = false := by
        cases op with
        | rows => exact absurd hallows.1 (And.left hm)
        | _ => rfl
      have hguard : RowWritesSucceed _ op as w := fun h => absurd (hrows.symm.trans h) nofun
      rw [and_iff_right hguard]
      by_cases hwrites : op.WritesOperation o
      · cases op with
        | operations s =>
          obtain ⟨b, hbusy, hnext⟩ := h.operations hwrites hm
          exact ih _ hk hnext hbusy _
        | _ => exact hwrites.elim
      · exact ih _ hk (b := false) (hallows.next_open hm hwrites _) (h.open hallows hm hwrites) _

end

/-- **Volumes after an operation.** Let a pass work on an active operation whose volume is in a
transitional status, with any failures. If it leaves the operation at its end, the volume is in a
transitional status no longer, exactly when its write of the volume does not fail. -/
theorem volume_released_iff (h : VolumeHandler) (o : Id) (w : VolumeWorld) (as : List Answer)
    (row : VolumeOperation) (vol : ProjectVolume) (hrow : w.operations.find? o = some row)
    (hactive : row.status.terminal = false) (hvol : w.volumeByID row.projectVolumeId = some vol)
    (hundeleted : vol.undeleted = true) (htransitional : vol.status.transitional = true) :
    ((reconcileVolumeOperation h o).outcome as w).state.Released o row.projectVolumeId ↔
      Fallible.Meets RowWritesSucceed (reconcileVolumeOperation h o) as w := by
  have hbusy : w.Busy o row.projectVolumeId vol.projectId false :=
    ⟨⟨row, hrow, rfl, hactive⟩, vol, hvol, rfl, hundeleted, htransitional⟩
  have hunseen : OperationSight.unseen.At false := ⟨nofun, nofun⟩
  exact released_iff_of_admits reconcileVolumeOperation_proper hunseen hbusy as

/-- The disk of the volume is repaired, and the write of the volume fails. -/
theorem repaired_volume_stuck :
    ¬((reconcileVolumeOperation ⟨5⟩ 30).outcome (List.replicate 6 default ++ [{ fail := true }])
      repairWorld).state.Released 30 9 := by
  decide +kernel

/-- All writes of the repair succeed. -/
theorem repaired_volume_released :
    ((reconcileVolumeOperation ⟨5⟩ 30).outcome [] repairWorld).state.Released 30 9 :=
  (volume_released_iff ⟨5⟩ 30 repairWorld [] _ _ rfl rfl rfl rfl rfl).mpr (by decide +kernel)

end Kindling
