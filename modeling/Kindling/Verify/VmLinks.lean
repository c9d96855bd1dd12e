import Kindling.Deploy.Footprint
import Kindling.Lib.Ownership

/-!
# Instances and their VM rows

Every live row of `vms` should be the VM of one instance: a live row that no instance refers to is
counted as load of its server and never stopped. The instances own the VM rows, in the sense of
`Ownership`.
-/

namespace Kindling

open Fallible Ownership

/-- The VM an instance refers to, unless it is deleted. -/
def DeploymentInstance.link (r : DeploymentInstance) : Option Id :=
  if r.undeleted then r.vmId else none

def linkOf (t : InstanceTable) (i : Id) : Option Id := ((t.find? i).map (·.link)).getD none

def World.liveVM (w : World) (v : Id) : Bool := (w.vms.find? v).any (·.undeleted)

def World.ownership (w : World) : Ownership Id Id where
  held := linkOf w.instances
  live v := w.liveVM v = true
  known v := (w.vms.find? v).isSome = true

theorem linkOf_eq (h : t.find? i = some r) : linkOf t i = r.link := by
  rw [linkOf, h]
  rfl

/-- Statements that at most take the VM from an instance in `S`. -/
def InstanceStmt.Releases (S : Id → Prop) : InstanceStmt β → Prop
  | .create .. | .updateServer .. | .updateStatus .. | .updateRole .. => True
  | .softDelete i | .prepareRetry i | .resetForRetry i => S i
  | .attachVM .. | .resetForDeadServer _ => False

def Stmt.Releases (S : Id → Prop) (β : Type) : Stmt β → Prop
  | .instances s => s.Releases S
  | .vms s => s.Quiet
  | _ => True

def Op.Releases (S : Id → Prop) (β : Type) : Op β → Prop
  | .db s => s.Releases S
  | .tx p => p.Uses (Stmt.Releases S)
  | _ => True

/-- Operations that take the VM from no instance. -/
abbrev Op.KeepsLinks (β : Type) (op : Op β) : Prop := op.Releases fun _ => False

/-- What takes the VM from instances in `S` alone. -/
def linkReach (S : Id → Prop) : Reach := { deletes := S, releases := S, starts := fun _ => True }

theorem Within.releases (h : Within (linkReach S) p) : Uses (Op.Releases S) p := by
  have hreleases : ∀ {β : Type} {s : Stmt β}, s.Within (linkReach S) → s.Releases S := by
    intro β s hs
    cases s with
    | instances s | vms s => cases s <;> exact hs
    | _ => trivial
  refine h.mono fun β op hop => ?_
  cases op with
  | db s => exact hreleases hop
  | tx p => exact .mono hop fun _ _ hs => hreleases hs.within
  | _ => trivial

theorem Quiet.releases (h : Quiet p) (S : Id → Prop) : Uses (Op.Releases S) p := h.within.releases

theorem InstanceStmt.Releases.linkOf {s : InstanceStmt β} (h : s.Releases S) (now : Time)
    (t : InstanceTable) (i : Id) :
    linkOf (s.exec now t).2 i = linkOf t i ∨ S i ∧ linkOf (s.exec now t).2 i = none := by
  cases hr : t.find? i with
  | none =>
    left
    rw [Kindling.linkOf, Kindling.linkOf, hr]
    rcases s.find?_exec_new now hr with hnew | ⟨dep, hnew⟩
    · rw [hnew]
    · rw [hnew]
      rfl
  | some r =>
    have hid : r.id = i := Table.find?_key hr
    rw [linkOf_eq (s.find?_exec now hr), linkOf_eq hr]
    split
    · next htarget =>
      cases s with
      | softDelete j =>
        rw [targets, hid, beq_iff_eq] at htarget
        exact .inr ⟨htarget ▸ h, rfl⟩
      | prepareRetry j =>
        simp only [targets, hid, Bool.and_eq_true, beq_iff_eq] at htarget
        exact .inr ⟨htarget.1.1 ▸ h, ite_self none⟩
      | resetForRetry j =>
        simp only [targets, hid, Bool.and_eq_true, beq_iff_eq] at htarget
        exact .inr ⟨htarget.1 ▸ h, ite_self none⟩
      | attachVM | resetForDeadServer => exact h.elim
      | _ => exact .inl rfl
    · exact .inl rfl

theorem VmStmt.Quiet.find? {s : VmStmt β} (h : s.Quiet) (now : Time) (t : VmTable) (v : Id) :
    (((s.exec now t).2.find? v).any (·.undeleted) = true → (t.find? v).any (·.undeleted) = true) ∧
      ((t.find? v).isSome = true → ((s.exec now t).2.find? v).isSome = true) := by
  have hkey : ∀ k f hf, (∀ r, (f r).undeleted = true → r.undeleted = true) →
      (((t.updateKey k (fun _ => true) f hf).2.find? v).any (·.undeleted) = true →
        (t.find? v).any (·.undeleted) = true) ∧
      ((t.find? v).isSome = true →
        ((t.updateKey k (fun _ => true) f hf).2.find? v).isSome = true) := by
    intro k f hf hdel
    by_cases hvk : v = k
    · subst hvk
      rw [t.find?_updateKey_self]
      cases t.find? v with
      | none => exact ⟨id, id⟩
      | some r => exact ⟨hdel r, fun _ => rfl⟩
    · rw [t.find?_updateKey_ne _ _ _ hvk]
      exact ⟨id, id⟩
  cases s with
  | create => exact h.elim
  | updateStatus | updateLifecycleMetadata | updateRuntimeAddress =>
    refine hkey _ _ (fun _ => ?_) fun _ hr => ?_
    · rfl
    · exact hr
  | softDelete =>
    refine hkey _ _ (fun _ => ?_) fun _ hr => ?_
    · rfl
    · cases hr

theorem softDelete_not_live {w : World} :
    ¬(w.withVms ((VmStmt.softDelete v).exec now w.vms).2).ownership.live v := by
  refine Bool.eq_false_iff.mp ?_
  have h := w.vms.find?_updateKey_self v (fun _ => true) ({ · with deletedAt := some now }) fun _ => rfl
  change (((w.vms.updateKey v (fun _ => true) ({ · with deletedAt := some now })
    fun _ => rfl).2.find? v).any (·.undeleted)) = false
  rw [h]
  cases w.vms.find? v <;> rfl

theorem ownership_congr {w w' : World} (hi : w'.instances = w.instances) (hv : w'.vms = w.vms) :
    w'.ownership = w.ownership := by
  rw [World.ownership, World.ownership, hi]
  simp [World.liveVM, hv]

theorem Stmt.Releases.step {s : Stmt β} (h : s.Releases S) (a : Answer) (w : World) :
    Ownership.Releases S w.ownership (s.step a w).2.ownership := by
  have hsame : ∀ {w' : World}, w'.instances = w.instances → w'.vms = w.vms →
      Ownership.Releases S w.ownership w'.ownership := by
    intro w' hi hv
    rw [ownership_congr hi hv]
    exact .refl
  cases s with
  | query q => exact .refl
  | newUUID => exact .refl
  | instances s =>
    exact onTable_elim (P := fun w' => Ownership.Releases S w.ownership w'.ownership) .refl fun _ =>
      ⟨h.linkOf a.now w.instances, fun _ => id, fun _ => id⟩
  | vms s =>
    refine onTable_elim (P := fun w' => Ownership.Releases S w.ownership w'.ownership) .refl fun _ =>
      ⟨fun _ => .inl rfl, fun v => ?_, fun v => ?_⟩
    · exact (VmStmt.Quiet.find? h a.now w.vms v).1
    · exact (VmStmt.Quiet.find? h a.now w.vms v).2
  | _ =>
    refine onTable_elim (P := fun w' => Ownership.Releases S w.ownership w'.ownership) .refl fun _ => ?_
    exact hsame rfl rfl

theorem Op.Releases.exec {op : Op β} (h : op.Releases S) (as : List Answer) (w : World) :
    Ownership.Releases S w.ownership (op.exec as w).state.ownership := by
  cases op with
  | db s => exact Stmt.Releases.step h _ w
  | tx p =>
    refine Op.tx_elim (P := fun w' => Ownership.Releases S w.ownership w'.ownership) .refl ?_
    exact Prog.Uses.run (I := fun w' => Ownership.Releases S w.ownership w'.ownership) h
      (fun _ s hs as w' hw => hw.trans (Stmt.Releases.step hs _ w')) .refl
  | runtime server c =>
    exact Op.runtime_elim (P := fun w' => Ownership.Releases S w.ownership w'.ownership) fun _ _ => .refl
  | _ => exact .refl

theorem uses_releases (h : Uses (Op.Releases S) p) :
    Ensures G p (fun _ w' => Ownership.Releases S w.ownership w'.ownership) w :=
  h.ensures (fun _ _ hop as w' hw => hw.trans (hop.exec as w')) .refl

/-! ## Rules for the steps -/

/-- The failures that the code ignores and goes on: those of `VMSoftDelete`, and of the read that
looks for a suspended VM. -/
def Op.heeded : Op β → List Answer → Bool
  | .db (.vms (.softDelete _)), as => !(as.headD default).fail
  | .db (.query (.vmFirstByID _)), as => !(as.headD default).fail
  | _, _ => true

/-- Every failure that matters is noticed. -/
def heedingGuard : Prog.Guard Op Answer World := fun _ op as _ => op.heeded as = true

section steps
variable {legacy : Id → Prop} {i : Id} {vmId : Option Id} {w : World}

/-- The program leaves the ownership of VMs sound. -/
def LeavesSound (legacy : Id → Prop) (p : Go Op β) (w : World) : Prop :=
  Ensures heedingGuard p (fun _ w' => w'.ownership.Sound legacy) w

structure Ready (legacy : Id → Prop) (i : Id) (vmId : Option Id) (w : World) : Prop where
  sound : w.ownership.Sound legacy
  covers : ∀ v, w.ownership.held i = some v → w.ownership.live v → vmId = some v

theorem Ready.keepsLinks (h : Ready legacy i vmId w)
    (hrel : Ownership.Releases (fun _ => False) w.ownership w'.ownership) :
    Ready legacy i vmId w' where
  sound := h.sound.releases_free hrel fun _ hs => hs.elim
  covers v hv hlive := h.covers v (hrel.held_some hv) (hrel.live v hlive)

theorem Ready.free_of_none (h : Ready legacy i vmId w) (hnone : vmId = none) :
    w.ownership.Free i := by
  intro v hv hlive
  cases hnone.symm.trans (h.covers v hv hlive)

/-- Once the VM of an instance is not live, the instance may be released and deleted. -/
theorem LeavesSound.of_free (h : Uses (Op.Releases (· = i)) p) (hw : w.ownership.Sound legacy)
    (hfree : w.ownership.Free i) : LeavesSound legacy p w :=
  (uses_releases h).mono fun _ _ hrel =>
    hw.releases_free hrel fun _ hs => hs ▸ hfree

theorem LeavesSound.keepsLinks (h : Uses Op.KeepsLinks p) (hw : w.ownership.Sound legacy) :
    LeavesSound legacy p w :=
  (uses_releases h).mono fun _ _ hrel => hw.releases_free hrel fun _ hs => hs.elim

theorem LeavesSound.bind (h : LeavesSound legacy p w)
    (hf : ∀ a w', w'.ownership.Sound legacy → LeavesSound legacy (f a) w') :
    LeavesSound legacy (p >>= f) w :=
  Ensures.bind h hf fun _ _ => id

theorem LeavesSound.attempt (h : LeavesSound legacy p w) : LeavesSound legacy p.attempt w :=
  Prog.Holds.bind h fun _ _ hr => hr

theorem Ready.bind (hw : Ready legacy i vmId w) (hp : Uses Op.KeepsLinks p)
    (hf : ∀ a w', Ready legacy i vmId w' → LeavesSound legacy (f a) w') :
    LeavesSound legacy (p >>= f) w :=
  Ensures.bind ((uses_releases hp).mono fun _ _ hrel => hw.keepsLinks hrel) hf fun _ _ h => h.sound

theorem LeavesSound.read_bind {q : Query α}
    (hf : ∀ r, (∀ a, r = .ok a → ∃ now, q.eval now w = .ok a) → LeavesSound legacy (f r) w) :
    LeavesSound legacy (.attempt (query q) >>= f) w := by
  refine .attempt_bind read_ensures fun r w' hr => ?_
  cases r with
  | ok a =>
    obtain ⟨rfl, hnow⟩ := hr
    exact hf _ fun b hb => by cases hb; exact hnow
  | error e =>
    obtain rfl : w' = w := hr
    exact hf _ fun b hb => by cases hb

theorem softDelete_ensures {w : World} :
    Ensures heedingGuard (discard (vmStmt (.softDelete v))) (fun r w' => r = .ok () ∧
      Ownership.Releases (fun _ => False) w.ownership w'.ownership ∧
      w'.instances = w.instances ∧ ¬w'.ownership.live v) w := by
  refine .attempt_bind (vmStmt_ensures fun as hg => ?_) fun _ _ h => .pure ⟨rfl, h⟩
  have hok : (as.headD default).fail = false := (Bool.not_eq_true' _).mp hg
  rw [if_neg (Bool.eq_false_iff.mp hok)]
  have hrel := Stmt.Releases.step (S := fun _ => False) (s := .vms (.softDelete v)) trivial
    (as.headD default) w
  simp only [Stmt.step, onTable, hok] at hrel
  exact ⟨hrel, rfl, softDelete_not_live⟩

theorem softDelete_bind (hw : w.ownership.Sound legacy)
    (hv : ∀ x, w.ownership.held i = some x → w.ownership.live x → x = v)
    (hf : Uses (Op.Releases (· = i)) (f ())) :
    LeavesSound legacy (discard (vmStmt (.softDelete v)) >>= f) w := by
  have hdelete := softDelete_ensures.mono (R := fun _ w' => w'.ownership.Sound legacy ∧
      w'.ownership.Free i) fun _ w' h => by
    obtain ⟨-, hrel, -, hdead⟩ := h
    refine ⟨hw.releases_free hrel fun _ hs => hs.elim, fun x hx hlive => hdead ?_⟩
    exact hv x (hrel.held_some hx) (hrel.live x hlive) ▸ hlive
  exact Ensures.bind hdelete (fun _ w' h => LeavesSound.of_free hf h.1 h.2) fun _ _ h => h.1

theorem Ready.softDelete_bind (hw : Ready legacy i vmId w) (hv : vmId = some v)
    (hf : Uses (Op.Releases (· = i)) (f ())) :
    LeavesSound legacy (discard (vmStmt (.softDelete v)) >>= f) w :=
  Kindling.softDelete_bind hw.sound
    (fun x hx hlive => Option.some.inj ((hw.covers x hx hlive).symm.trans hv)) hf

end steps

end Kindling
