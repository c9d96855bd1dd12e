import Kindling.Verify.VmLinks
import Kindling.Volumes.Footprint

/-!
# Volumes and the VMs they are attached to

The status of a volume and the VM it is attached to are written by deployers, by the passes over
volume operations, and by requests, and the rows of VMs are deleted by deployers and by the sweep over
dead servers.
-/

namespace Kindling

open Fallible

/-- A volume is attached exactly when it has a VM, and then the row of the VM is not deleted. -/
def ProjectVolume.Linked (w : World) (v : ProjectVolume) : Prop :=
  (v.status = .attached ↔ v.attachedVmId.isSome = true) ∧ ∀ vm ∈ v.attachedVmId, w.liveVM vm = true

def World.Linked (w : World) : Prop := ∀ v ∈ w.volumes, v.Linked w

/-! ## Statements -/

/-- What is asked of the volume that a statement changes. -/
def World.volumeMeets (w : World) (projectId : Id) (check : ProjectVolume → Bool) : Bool :=
  (w.volumes.find? projectId).all fun v => !v.undeleted || check v

theorem World.volumeMeets_iff {w : World} {check : ProjectVolume → Bool} :
    w.volumeMeets p check = true ↔
      ∀ v, w.volumes.find? p = some v → v.undeleted = true → check v = true := by
  unfold World.volumeMeets
  cases w.volumes.find? p with
  | none => simp
  | some v => cases hv : v.undeleted <;> simp [hv]

/-- A status may be written that goes with the VM of the volume. -/
def VolumeStatus.suits (status : VolumeStatus) (v : ProjectVolume) : Bool :=
  (status == .attached) == v.attachedVmId.isSome

def VolumeStmt.linksKept (w : World) : VolumeStmt β → Bool
  | .updateStatus p status _ => w.volumeMeets p status.suits
  | .detachVM p status _ => w.volumeMeets p fun _ => status != .attached
  | .assignServer .. => true
  | .attachVM p _ vm => w.volumeMeets p fun _ => w.liveVM vm

def VmStmt.linksKept (w : World) : VmStmt β → Bool
  | .softDelete id => w.volumes.rows.all fun v => v.attachedVmId != some id
  | _ => true

def Stmt.linksKept (w : World) : Stmt β → Bool
  | .volumes s => s.linksKept w
  | .vms s => s.linksKept w
  | _ => true

def VolumeRowStmt.linksKept (w : World) : VolumeRowStmt β → Bool
  | .updateStatusAndHealth p status _ _ => w.volumeMeets p status.suits
  | _ => true

section statements
variable {w : World} (hw : w.Linked)
include hw

theorem World.linked_update (hf : ∀ v, (f v).projectId = v.projectId) :
    (w.withVolumes (w.volumes.updateKey p (·.undeleted) f hf).2).Linked ↔
      ∀ v, w.volumes.find? p = some v → v.undeleted = true → (f v).Linked w :=
  Table.forall_mem_updateKey hf hw

theorem linked_iff_suits {v v' : ProjectVolume} {status : VolumeStatus} (hv : v ∈ w.volumes)
    (hstatus : v'.status = status) (hvm : v'.attachedVmId = v.attachedVmId) :
    v'.Linked w ↔ status.suits v = true := by
  have hlive := (hw v hv).2
  unfold ProjectVolume.Linked VolumeStatus.suits
  rw [hstatus, hvm, and_iff_left hlive]
  cases v.attachedVmId.isSome <;> simp

theorem VolumeStmt.linked_exec (s : VolumeStmt β) :
    (w.withVolumes (s.exec w.volumes).2).Linked ↔ s.linksKept w = true := by
  cases s with
  | updateStatus p status e =>
    refine (World.linked_update hw (f := ({ · with status := status, lastError := e }))
      fun _ => rfl).trans (.trans ?_ World.volumeMeets_iff.symm)
    exact forall₃_congr fun v hv _ => linked_iff_suits hw (Table.mem_of_find? hv) rfl rfl
  | detachVM p status e =>
    refine (World.linked_update hw
      (f := ({ · with attachedVmId := none, status := status, lastError := e })) fun _ => rfl).trans
      (.trans ?_ World.volumeMeets_iff.symm)
    exact forall₃_congr fun v hv _ => by simp [ProjectVolume.Linked]
  | assignServer p s =>
    refine (World.linked_update hw (f := ({ · with serverId := some s })) fun _ => rfl).trans ?_
    exact iff_of_true (fun v hv _ => hw v (Table.mem_of_find? hv)) rfl
  | attachVM p s vm =>
    refine (World.linked_update hw
      (f := ({ · with serverId := s, attachedVmId := some vm, status := .attached
                      health := .healthy, lastError := "" })) fun _ => rfl).trans
      (.trans ?_ World.volumeMeets_iff.symm)
    exact forall₃_congr fun v hv _ => by simp [ProjectVolume.Linked]

theorem VolumeRowStmt.linked_exec (s : VolumeRowStmt β) (now : Time) :
    (w.withVolumes (s.exec now w.volumes).2).Linked ↔ s.linksKept w = true := by
  cases s with
  | updateStatusAndHealth p status health e =>
    refine (World.linked_update hw
      (f := ({ · with status := status, health := health, lastError := e })) fun _ => rfl).trans
      (.trans ?_ World.volumeMeets_iff.symm)
    exact forall₃_congr fun v hv _ => linked_iff_suits hw (Table.mem_of_find? hv) rfl rfl
  | softDelete p =>
    refine (World.linked_update hw (f := ({ · with
      serverId := none, attachedVmId := none, status := .detached, health := .unknown
      lastError := "", deletedAt := some now })) fun _ => rfl).trans ?_
    exact iff_of_true (fun v hv _ => by simp [ProjectVolume.Linked]) rfl
  | create id p s path spec =>
    refine iff_of_true (fun v hv => ?_) rfl
    simp only [exec] at hv
    unfold inserting at hv
    split at hv
    · next t' ht' =>
      rcases (Table.mem_insert? ht').mp hv with hv | rfl
      · exact hw v hv
      · simp [ProjectVolume.Linked, ProjectVolume.respecified]
    · exact hw v hv
  | updateSpec p spec =>
    refine (World.linked_update hw (f := (·.respecified spec)) fun _ => rfl).trans ?_
    exact iff_of_true (fun v hv _ => hw v (Table.mem_of_find? hv)) rfl
  | revive p spec =>
    refine (Table.forall_mem_updateKey (f := fun v => { v.respecified spec with
        serverId := none, attachedVmId := none, status := .detached, health := .unknown
        lastError := "", deletedAt := none }) (fun _ => rfl) hw).trans ?_
    exact iff_of_true (fun v hv _ => by simp [ProjectVolume.Linked]) rfl

theorem linked_of_live {w' : World} (hvolumes : w'.volumes = w.volumes)
    (hlive : ∀ vm, w.liveVM vm = true → w'.liveVM vm = true) : w'.Linked := by
  intro v hv
  rw [hvolumes] at hv
  exact ⟨(hw v hv).1, fun vm hvm => hlive vm ((hw v hv).2 vm hvm)⟩

theorem VmStmt.linked_exec (s : VmStmt β) (now : Time) :
    (w.withVms (s.exec now w.vms).2).Linked ↔ s.linksKept w = true := by
  have hupdate : ∀ id f hf, (∀ v, (f v).undeleted = v.undeleted) →
      (w.withVms (w.vms.updateKey id (fun _ => true) f hf).2).Linked := by
    intro id f hf hdeleted
    refine linked_of_live hw rfl fun vm hvm => ?_
    change ((w.vms.updateKey id (fun _ => true) f hf).2.find? vm).any _ = true
    rw [Table.find?_updateKey]
    unfold World.liveVM at hvm
    cases hfind : w.vms.find? vm with
    | none =>
      rw [hfind] at hvm
      cases hvm
    | some row =>
      rw [hfind] at hvm
      rw [Option.map_some, Option.any_some]
      split
      · rw [hdeleted]
        exact hvm
      · exact hvm
  cases s with
  | create vm =>
    refine iff_of_true (linked_of_live hw rfl fun id hid => ?_) rfl
    unfold World.liveVM at hid
    cases hfind : w.vms.find? id with
    | none =>
      rw [hfind] at hid
      cases hid
    | some row =>
      rw [hfind] at hid
      change ((inserting w.vms _).2.find? id).any _ = true
      rw [find?_inserting hfind]
      exact hid
  | updateStatus | updateLifecycleMetadata | updateRuntimeAddress =>
    refine iff_of_true (hupdate _ _ (fun _ => ?_) fun _ => ?_) rfl
    · rfl
    · rfl
  | softDelete id =>
    simp only [linksKept, List.all_eq_true, bne_iff_ne]
    constructor
    · intro h v hv hvm
      exact softDelete_not_live ((h v hv).2 id hvm)
    · intro h v hv
      refine ⟨(hw v hv).1, fun vm hvm => ?_⟩
      have hne : vm ≠ id := fun heq => h v hv (heq ▸ hvm)
      refine .trans ?_ ((hw v hv).2 vm hvm)
      change ((w.vms.updateKey id (fun _ => true) ({ · with deletedAt := some now })
        fun _ => rfl).2.find? vm).any _ = (w.vms.find? vm).any _
      rw [w.vms.find?_updateKey_ne _ _ _ hne]

end statements

theorem linked_onTable (hw : w.Linked) {get : World → τ} {set : τ → World → World} {check : Bool}
    (h : (set (f (get w)).2 w).Linked ↔ check = true) :
    (onTable a f get set w).2.Linked ↔ (a.fail || check) = true := by
  unfold onTable
  split
  · next hfail => exact iff_of_true hw (by rw [hfail, Bool.true_or])
  · next hfail => rwa [Bool.eq_false_iff.mpr hfail]

theorem Stmt.linked_step (hw : w.Linked) (s : Stmt β) (a : Answer) :
    (s.step a w).2.Linked ↔ (a.fail || s.linksKept w) = true := by
  cases s with
  | query | newUUID => exact iff_of_true hw (Bool.or_true _)
  | volumes s => exact linked_onTable hw (s.linked_exec hw)
  | vms s => exact linked_onTable hw (s.linked_exec hw a.now)
  | _ => exact linked_onTable hw (iff_of_true hw rfl)

/-- Each statement of a transaction is in order when its turn comes. -/
def Stmt.InOrder : Prog.Guard Stmt Answer World :=
  fun _ s as w => ((as.headD default).fail || s.linksKept w) = true

instance : Decidable (Stmt.InOrder β s as w) := inferInstanceAs (Decidable (_ = true))

def Op.inOrder (as : List Answer) (w : World) : Op β → Bool
  | .db s => (as.headD default).fail || s.linksKept w
  | .tx p => decide (p.Meets Stmt.InOrder as w)
  | _ => true

def VolumeOp.inOrder (as : List Answer) (w : VolumeWorld) : VolumeOp β → Bool
  | .deployer o => o.inOrder as w.toWorld
  | .rows s => (as.headD default).fail || s.linksKept w.toWorld
  | _ => true

/-- A volume gets a status other than `attached` only while it has no VM; the row of a VM is deleted
only after its volume has been detached; a volume is attached only to a VM that is not deleted. -/
def AttachmentsInOrder (_ : ℕ) (_ : List (Call VolumeOp)) : Prog.Guard VolumeOp Answer VolumeWorld :=
  fun _ op as w => op.inOrder as w = true

instance : Decidable (AttachmentsInOrder i log β op as w) := inferInstanceAs (Decidable (_ = true))

def VolumeOp.isTx : VolumeOp β → Bool
  | .deployer (.tx _) => true
  | _ => false

theorem Op.linked_exec (hw : w.Linked) (o : Op β) (as : List Answer) :
    (o.inOrder as w = true → (o.exec as w).state.Linked) ∧
      (VolumeOp.isTx (.deployer o) = false → (o.exec as w).state.Linked → o.inOrder as w = true) := by
  cases o with
  | db s =>
    have h := s.linked_step hw (as.headD default)
    exact ⟨h.mpr, fun _ => h.mp⟩
  | tx p =>
    refine ⟨fun h => ?_, nofun⟩
    exact Op.tx_elim hw ((Prog.holds_of_call_invariant
      (fun _ s as w hG hI => (s.linked_step hI _).mpr hG) p hw).run (of_decide_eq_true h)).1
  | runtime server c => exact ⟨fun _ => Op.runtime_elim fun _ _ => hw, fun _ _ => rfl⟩
  | _ => exact ⟨fun _ => hw, fun _ _ => rfl⟩

theorem VolumeOp.linked_exec (hw : w.toWorld.Linked) (op : VolumeOp β) (as : List Answer) :
    (op.inOrder as w = true → (op.exec as w).state.toWorld.Linked) ∧
      (op.isTx = false → (op.exec as w).state.toWorld.Linked → op.inOrder as w = true) := by
  by_cases hleaves : op.LeavesWorld
  · rw [VolumeOp.toWorld_exec hleaves]
    refine ⟨fun _ => hw, fun htx _ => ?_⟩
    cases op with
    | deployer o =>
      cases o with
      | db s => cases s <;> first | exact Bool.or_true _ | exact hleaves.elim
      | _ => first | rfl | exact hleaves.elim
    | rows => exact hleaves.elim
    | _ => rfl
  cases op with
  | deployer o =>
    change (_ → (o.execWithDisks as w).state.toWorld.Linked) ∧
      (_ → (o.execWithDisks as w).state.toWorld.Linked → _)
    rw [o.execWithDisks_toWorld]
    exact o.linked_exec hw as
  | rows s =>
    have hstep : (onVolumeTable (as.headD default) (s.exec (as.headD default).now) (·.volumes)
        .withRows w).2.toWorld.Linked ↔
        ((as.headD default).fail || s.linksKept w.toWorld) = true := by
      unfold onVolumeTable
      split
      · next hfail => exact iff_of_true hw (by rw [hfail, Bool.true_or])
      · next hfail =>
        rw [Bool.eq_false_iff.mpr hfail]
        exact s.linked_exec hw _
    exact ⟨hstep.mpr, fun _ => hstep.mp⟩
  | _ => exact absurd trivial hleaves

/-- Any programs over the statements and calls of deployers, volume operations and requests. -/
abbrev VolumeTeam := Team ℕ VolumeOp (Except Err Unit) VolumeWorld

/-- **Attached volumes.** Let any programs interleave, from a state in which the volumes and VMs are
linked. If every call is in order, they are linked in every state that is reached; and there a call
other than a transaction keeps them linked exactly when it is in order. -/
theorem attached_volumes_linked (w : VolumeWorld) (hw : w.toWorld.Linked) (c : VolumeTeam)
    (hc : Team.Run (fun _ _ => True) (fun _ => id) AttachmentsInOrder (Team.idle (.ok ()) w) c) :
    c.state.toWorld.Linked ∧
    ∀ (β : Type) (op : VolumeOp β) (as : List Answer), op.isTx = false →
      ((op.exec as c.state).state.toWorld.Linked ↔ op.inOrder as c.state = true) := by
  have hlinked : c.state.toWorld.Linked := Team.Run.invariant (I := fun w => w.toWorld.Linked)
      (fun _ _ _ op as _ hguard hw => (op.linked_exec hw as).1 hguard) (fun _ _ h => h) hc hw
  refine ⟨hlinked, fun β op as htx => ?_⟩
  obtain ⟨hin, hout⟩ := op.linked_exec hlinked as
  exact ⟨hout htx, hin⟩

/-- Volume 9 of project 3 is attached to VM 40 of an instance on server 5. -/
def attachedWorld : VolumeWorld where
  toWorld :=
    { servers := .single { id := 5 }
      instances := .single { id := 20, deploymentId := 7, serverId := some 5, vmId := some 40 }
      vms := .single { id := 40, serverId := 5, imageId := 1 }
      volumes := .single { id := 9, projectId := 3, serverId := some 5, attachedVmId := some 40
                           status := .attached, health := .healthy } }

instance (w : World) : Decidable w.Linked :=
  inferInstanceAs (Decidable (∀ v ∈ w.volumes.rows, (_ ↔ _) ∧ ∀ vm ∈ v.attachedVmId, _))

/-- The sweep over dead servers deletes the row of the VM and leaves the volume attached. -/
theorem dead_server_leaves_attached : ∃ c : VolumeTeam,
    Team.Run (fun _ _ => True) (fun _ => id) (fun _ _ => Prog.unguarded)
      (Team.idle (.ok ()) attachedWorld) c ∧
    attachedWorld.toWorld.Linked ∧ c.state.liveVM 40 = false ∧
    (c.state.volumes.find? 3).map (fun v => (v.status, v.attachedVmId)) = some (.attached, some 40) :=
  ⟨((Team.idle (.ok ()) attachedWorld).begin 0 (hoist (fun _ => .deployer) (recoverDeadServer 5))).turns
      (List.replicate 6 (0, [{ now := 31 * second }])),
    (Team.Run.begin 0 _ rfl trivial).trans (Team.Run.turns (Team.turnsMeet_unguarded _ _)),
    by decide +kernel, by decide +kernel, by decide +kernel⟩

/-- The volume is detached before the row of its VM is deleted. -/
theorem detached_first_linked :
    (((Team.idle (.ok ()) attachedWorld : VolumeTeam).begin 0 (hoist (fun _ => .deployer) (do
      detachProjectVolumeIfAttached 3 40 .detached ""
      vmStmt (.softDelete 40)))).turns (List.replicate 3 (0, []))).state.toWorld.Linked :=
  (attached_volumes_linked attachedWorld (by decide +kernel) _
    ((Team.Run.begin 0 _ rfl trivial).trans (Team.Run.turns (by decide +kernel)))).1

end Kindling
