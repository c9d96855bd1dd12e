import Kindling.Deploy.Footprint
import Kindling.Verify.VolumeOperations
import Kindling.Volumes.Requests

/-!
# Volumes that are created again

The deletion of a volume removes its file on the host of the API, or, after a backup, on the server of
the operation; the row is kept, and a volume that is created again for the project has the same
identifier.
-/

namespace Kindling

open Fallible

variable {owner : Id → Id}

/-- The rows keep what identifies them, and none of them becomes deleted. -/
structure RowsKept (t t' : VolumeTable) : Prop where
  old : ∀ r' ∈ t', ∃ r ∈ t, r'.id = r.id ∧ r'.projectId = r.projectId ∧ r'.serviceId = r.serviceId ∧
    (r'.undeleted = false → r.undeleted = false)
  new : ∀ p r, t.find? p = some r → ∃ r', t'.find? p = some r' ∧ r'.id = r.id

namespace RowsKept

theorem refl (t : VolumeTable) : RowsKept t t :=
  ⟨fun r hr => ⟨r, hr, rfl, rfl, rfl, id⟩, fun _ r hr => ⟨r, hr, rfl⟩⟩

theorem trans (h : RowsKept t₁ t₂) (h' : RowsKept t₂ t₃) :
    RowsKept t₁ t₃ where
  old r₃ hr₃ := by
    obtain ⟨r₂, hr₂, hid, hp, hs, hdel⟩ := h'.old r₃ hr₃
    obtain ⟨r₁, hr₁, hid', hp', hs', hdel'⟩ := h.old r₂ hr₂
    exact ⟨r₁, hr₁, hid.trans hid', hp.trans hp', hs.trans hs', hdel' ∘ hdel⟩
  new p r hr := by
    obtain ⟨r₂, hr₂, hid⟩ := h.new p r hr
    obtain ⟨r₃, hr₃, hid'⟩ := h'.new p r₂ hr₂
    exact ⟨r₃, hr₃, hid'.trans hid⟩

theorem updateKey {cond : ProjectVolume → Bool} (hf : ∀ r, (f r).projectId = r.projectId)
    (hid : ∀ r, (f r).id = r.id) (hservice : ∀ r, (f r).serviceId = r.serviceId)
    (hdel : ∀ r, (f r).undeleted = false → r.undeleted = false) :
    RowsKept t (t.updateKey p cond f hf).2 where
  old r' hr' := by
    obtain ⟨r, hr, rfl⟩ := Table.mem_updateKey.mp hr'
    refine ⟨r, hr, ?_⟩
    split
    · exact ⟨hid r, hf r, hservice r, hdel r⟩
    · exact ⟨rfl, rfl, rfl, id⟩
  new p' r hr := by
    rw [Table.find?_updateKey, hr]
    refine ⟨_, rfl, ?_⟩
    dsimp only
    split
    · exact hid r
    · rfl

end RowsKept

theorem VolumeStmt.rowsKept (s : VolumeStmt β) (t : VolumeTable) : RowsKept t (s.exec t).2 := by
  cases s <;> exact .updateKey (fun _ => by rfl) (fun _ => rfl) (fun _ => rfl) fun _ h => h

theorem Stmt.rowsKept (s : Stmt β) (a : Answer) (w : World) : RowsKept w.volumes (s.step a w).2.volumes := by
  cases s with
  | query | newUUID => exact .refl _
  | volumes s =>
    exact onTable_elim (P := fun w' => RowsKept w.volumes w'.volumes) (.refl _) fun _ => s.rowsKept _
  | _ => exact onTable_elim (P := fun w' => RowsKept w.volumes w'.volumes) (.refl _) fun _ => .refl _

theorem Op.rowsKept (o : Op β) (as : List Answer) (w : World) :
    RowsKept w.volumes (o.exec as w).state.volumes := by
  cases o with
  | db s => exact s.rowsKept _ w
  | tx p =>
    refine Op.tx_elim (P := fun w' => RowsKept w.volumes w'.volumes) (.refl _) ?_
    exact ((Prog.holds_of_call_invariant (I := fun w' : World => RowsKept w.volumes w'.volumes)
      (fun _ s as w' _ hI => hI.trans (s.rowsKept _ w')) p (.refl _)).run (p.meets_unguarded as w)).1
  | runtime server c =>
    exact Op.runtime_elim (P := fun w' => RowsKept w.volumes w'.volumes) fun _ _ => .refl _
  | _ => exact .refl _

/-- Every statement but a deletion and an insertion. -/
def VolumeRowStmt.Changes : VolumeRowStmt β → Prop
  | .softDelete _ | .create .. => False
  | _ => True

theorem VolumeRowStmt.rowsKept {s : VolumeRowStmt β} (h : s.Changes) (now : Time) (t : VolumeTable) :
    RowsKept t (s.exec now t).2 := by
  cases s with
  | softDelete | create => exact h.elim
  | updateStatusAndHealth | updateSpec => exact .updateKey (fun _ => by rfl) (fun _ => rfl) (fun _ => rfl) fun _ h => h
  | revive => exact .updateKey (fun _ => by rfl) (fun _ => rfl) (fun _ => rfl) fun _ h => by cases h

/-- No server holds a disk of the volume. -/
def VolumeWorld.Empty (w : VolumeWorld) (volume : Id) : Prop := ∀ s, w.holds ⟨s, volume⟩ = false

/-- No server holds the disk of a volume that is deleted; the volume of a service belongs to the
project of the service, which is `owner`. -/
structure VolumeWorld.Tidy (owner : Id → Id) (w : VolumeWorld) : Prop where
  empty : ∀ r ∈ w.volumes, r.undeleted = false → w.Empty r.id
  owned : ∀ r ∈ w.volumes, ∀ s ∈ r.serviceId, r.projectId = owner s

/-- The disk that exists once a call has succeeded. -/
def VolumeOp.makesDisk : VolumeOp β → Option Disk
  | .deployer o => o.makesDisk
  | .downloadFile server volume _ => some ⟨server, volume⟩
  | _ => none

def VolumeOp.handlesDisks (as : List Answer) (w : VolumeWorld) : VolumeOp β → Bool
  | .removeFile server volume => (as.headD default).fail ||
      w.disks.all fun d => d.volume != volume || d.server == server
  | op => (as.headD default).fail || op.makesDisk.all fun d =>
      w.volumes.rows.all fun r => r.id != d.volume || r.undeleted

/-- The file of a volume is removed on a server only if no other server holds the disk, and a disk is
made only for a volume that is not deleted, unless the call fails. -/
def DisksInOrder : Prog.Guard VolumeOp Answer VolumeWorld :=
  fun _ op as w => op.handlesDisks as w = true

instance : Decidable (DisksInOrder β op as w) := inferInstanceAs (Decidable (_ = true))

inductive DiskFact
  | row (projectId volume : Id)
  | gone (volume : Id)

def DiskFact.isRow : DiskFact → Bool
  | row .. => true
  | gone _ => false

def DiskFact.Holds (w : VolumeWorld) : DiskFact → Prop
  | row p v => ∃ r, w.volumes.find? p = some r ∧ r.id = v
  | gone v => w.Empty v

/-- A volume is deleted after its disk is gone, and created for a service of the project. -/
@[simps] def diskSight (owner : Id → Id) : Typestate VolumeOp (List DiskFact) where
  start := []
  allows
    | m, .rows (.softDelete p) => ∃ v, .row p v ∈ m ∧ .gone v ∈ m
    | _, .rows (.create _ p s ..) => ∀ service ∈ s, p = owner service
    | _, _ => True
  possible
    | _, .deployer (.db (.query (.projectVolumeFindByProjectID p))), .ok vol => vol.projectId = p
    | _, .deployer (.db (.query (.projectVolumeFindByServiceID s))), .ok vol =>
      vol.projectId = owner s
    | _, _, _ => True
  next
    | m, .deployer (.db (.query (.projectVolumeFindByProjectID _))), .ok vol
    | m, .deployer (.db (.query (.projectVolumeFindByServiceID _))), .ok vol
    | m, .read (.volumeFindByID _), .ok vol => .row vol.projectId vol.id :: m
    | m, .removeFile _ v, .ok _ => .gone v :: m
    | m, .deployer (.runtime ..), _ | m, .downloadFile .., _ => m.filter (·.isRow)
    | m, _, _ => m

/-! ## Calls -/

namespace VolumeOp
variable {op : VolumeOp β} {as : List Answer} {w : VolumeWorld}

theorem holds_of_exec (h : (op.exec as w).state.holds d = true) :
    w.holds d = true ∨ (op.makesDisk = some d ∧ (as.headD default).fail = false) := by
  by_cases hleaves : op.LeavesDisk d
  · exact .inl (op.holds_exec hleaves ▸ h)
  cases op with
  | deployer o =>
    cases hfail : (as.headD default).fail with
    | false => exact .inr ⟨not_not.mp hleaves, rfl⟩
    | true =>
      change (if (as.headD default).fail then _ else _ : VolumeWorld).holds d = true at h
      rw [if_pos hfail] at h
      exact .inl h
  | downloadFile server volume =>
    dsimp only [exec, answering] at h
    split at h
    · exact .inl h
    · next hfail =>
      exact .inr ⟨congrArg some (not_not.mp hleaves), Bool.eq_false_iff.mpr hfail⟩
  | removeFile server volume =>
    dsimp only [exec, answering] at h
    split at h
    · exact .inl h
    · refine .inl ?_
      rw [VolumeWorld.holds, List.contains_eq_mem, decide_eq_true_eq] at h
      exact List.contains_iff_mem.mpr (List.mem_filter.mp h).1
  | _ => exact absurd trivial hleaves

def KeepsRows {β : Type} : VolumeOp β → Prop
  | .rows s => s.Changes
  | _ => True

theorem rowsKept (h : op.KeepsRows) : RowsKept w.volumes (op.exec as w).state.volumes := by
  by_cases hleaves : op.LeavesWorld
  · rw [op.toWorld_exec hleaves]
    exact .refl _
  cases op with
  | deployer o =>
    change RowsKept _ (o.execWithDisks as w).state.volumes
    rw [o.execWithDisks_toWorld]
    exact o.rowsKept as _
  | rows s =>
    exact onVolumeTable_keeps (P := fun w' => RowsKept w.volumes w'.volumes) (.refl _) fun _ =>
      s.rowsKept h _ _
  | _ => exact absurd trivial hleaves

/-- No call takes the row of a project away. -/
theorem row_exec (h : w.volumes.find? p = some r) :
    ∃ r', (op.exec as w).state.volumes.find? p = some r' ∧ r'.id = r.id := by
  by_cases hkeeps : op.KeepsRows
  · exact (op.rowsKept hkeeps).new p r h
  cases op with
  | rows s =>
    refine onVolumeTable_keeps (P := fun w' => ∃ r', w'.volumes.find? p = some r' ∧ r'.id = r.id)
      ⟨r, h, rfl⟩ fun _ => ?_
    cases s with
    | softDelete p' =>
      simp only [VolumeWorld.withRows, VolumeRowStmt.exec, Table.find?_updateKey, h]
      refine ⟨_, rfl, ?_⟩
      dsimp only
      split <;> rfl
    | create id p' service path spec => exact ⟨r, find?_inserting h, rfl⟩
    | _ => exact absurd trivial hkeeps
  | _ => exact absurd trivial hkeeps

end VolumeOp

section step
variable {owner : Id → Id} {w : VolumeWorld} {m : List DiskFact} {op : VolumeOp β}
  {as : List Answer}

theorem DiskFact.Holds.exec {f : DiskFact} (h : f.Holds w)
    (hop : f.isRow = true ∨ op.makesDisk = none) : f.Holds (op.exec as w).state := by
  cases f with
  | row p v =>
    obtain ⟨r, hr, hid⟩ := h
    obtain ⟨r', hr', hid'⟩ := op.row_exec hr
    exact ⟨r', hr', hid'.trans hid⟩
  | gone v =>
    refine fun s => Bool.eq_false_iff.mpr fun hd => ?_
    rcases op.holds_of_exec hd with hd | ⟨hmakes, -⟩
    · exact Bool.eq_false_iff.mp (h s) hd
    · cases (hop.resolve_left nofun).symm.trans hmakes

theorem DisksInOrder.new_disk (hguard : DisksInOrder β op as w)
    (h : (op.exec as w).state.holds d = true) :
    w.holds d = true ∨ ∀ r ∈ w.volumes, r.id = d.volume → r.undeleted = true := by
  refine (op.holds_of_exec h).imp_right fun ⟨hmakes, hfail⟩ r hr hid => ?_
  have hall : (w.volumes.rows.all fun r => r.id != d.volume || r.undeleted) = true := by
    cases op with
    | removeFile => cases hmakes
    | _ => simpa only [DisksInOrder, VolumeOp.handlesDisks, hmakes, hfail, Bool.false_or,
        Option.all_some] using hguard
  have := List.all_eq_true.mp hall r hr
  simpa [hid] using this

theorem VolumeWorld.Tidy.exec_keeping (h : w.Tidy owner) (hguard : DisksInOrder β op as w)
    (hop : op.KeepsRows) : VolumeWorld.Tidy owner (op.exec as w).state where
  empty r' hr' hdel := by
    obtain ⟨r, hr, hid, -, -, hdel'⟩ := (op.rowsKept hop).old r' hr'
    refine fun s => Bool.eq_false_iff.mpr fun hd => ?_
    rcases hguard.new_disk hd with hd | hnew
    · exact Bool.eq_false_iff.mp (h.empty r hr (hdel' hdel) s) (hid ▸ hd)
    · exact Bool.eq_false_iff.mp (hdel' hdel) (hnew r hr hid.symm)
  owned r' hr' s hs := by
    obtain ⟨r, hr, -, hp, hservice, -⟩ := (op.rowsKept hop).old r' hr'
    exact hp.trans (h.owned r hr s (hservice ▸ hs))

theorem VolumeRowStmt.mem_softDelete (h : r' ∈ ((VolumeRowStmt.softDelete p).exec now t).2) :
    ∃ r ∈ t, r'.id = r.id ∧ r'.projectId = r.projectId ∧ r'.serviceId = r.serviceId ∧
      (r' = r ∨ r.projectId = p) := by
  rw [VolumeRowStmt.exec, Table.mem_updateKey] at h
  obtain ⟨r, hr, rfl⟩ := h
  refine ⟨r, hr, ?_⟩
  split
  · next hp =>
    rw [Bool.and_eq_true, decide_eq_true_eq] at hp
    exact ⟨rfl, rfl, rfl, .inr hp.1⟩
  · exact ⟨rfl, rfl, rfl, .inl rfl⟩

theorem VolumeWorld.Tidy.softDelete (h : w.Tidy owner) (hrow : (DiskFact.row p v).Holds w)
    (hgone : (DiskFact.gone v).Holds w) (now : Time) :
    (w.withRows ((VolumeRowStmt.softDelete p).exec now w.volumes).2).Tidy owner where
  empty r' hr' hdel := by
    obtain ⟨r, hr, hid, -, -, rfl | hp⟩ := VolumeRowStmt.mem_softDelete hr'
    · exact h.empty r' hr hdel
    · obtain ⟨r₀, hr₀, rfl⟩ := hrow
      obtain rfl : r = r₀ := Option.some.inj ((Table.find?_of_mem hr).symm.trans (hp ▸ hr₀))
      rw [hid]
      exact hgone
  owned r' hr' s hs := by
    obtain ⟨r, hr, -, hp, hservice, -⟩ := VolumeRowStmt.mem_softDelete hr'
    exact hp.trans (h.owned r hr s (hservice ▸ hs))

theorem VolumeWorld.Tidy.create (h : w.Tidy owner) {id p : Id} {path : String}
    (howner : ∀ s ∈ service, p = owner s) (now : Time) :
    (w.withRows ((VolumeRowStmt.create id p service path spec).exec now w.volumes).2).Tidy owner := by
  change VolumeWorld.Tidy owner (w.withRows (inserting w.volumes _).2)
  unfold inserting
  split
  · next t ht =>
    refine ⟨fun r hr hdel => ?_, fun r hr s hs => ?_⟩
    · rcases (Table.mem_insert? ht).mp hr with hr | rfl
      · exact h.empty r hr hdel
      · cases hdel
    · rcases (Table.mem_insert? ht).mp hr with hr | rfl
      · exact h.owned r hr s hs
      · exact howner s hs
  · exact h

theorem VolumeWorld.Tidy.exec (h : w.Tidy owner) (hm : ∀ f ∈ m, f.Holds w)
    (hallows : (diskSight owner).allows m op) (hguard : DisksInOrder β op as w) :
    VolumeWorld.Tidy owner (op.exec as w).state := by
  by_cases hkeeps : op.KeepsRows
  · exact h.exec_keeping hguard hkeeps
  cases op with
  | rows s =>
    refine onVolumeTable_keeps h fun _ => ?_
    cases s with
    | softDelete p =>
      obtain ⟨v, hrow, hgone⟩ := hallows
      exact h.softDelete (hm _ hrow) (hm _ hgone) _
    | create => exact h.create hallows _
    | _ => exact absurd trivial hkeeps
  | _ => exact absurd trivial hkeeps

theorem DiskFact.holds_of_mem (h : r ∈ w.volumes) :
    (DiskFact.row r.projectId r.id).Holds w := ⟨r, Table.find?_of_mem h, rfl⟩

/-- A file that is removed where it alone is leaves none. -/
theorem DisksInOrder.removed (hguard : DisksInOrder _ (.removeFile server volume) as w)
    (hfail : (as.headD default).fail = false) :
    ((VolumeOp.removeFile server volume).exec as w).state.Empty volume := by
  intro s
  simp only [VolumeOp.exec, answering, hfail, Bool.false_eq_true, if_false]
  refine Bool.eq_false_iff.mpr fun hd => ?_
  rw [VolumeWorld.holds, VolumeWorld.removeDisk, List.contains_iff_mem, List.mem_filter] at hd
  rw [DisksInOrder, VolumeOp.handlesDisks, hfail] at hguard
  have := List.all_eq_true.mp hguard _ hd.1
  simp_all

theorem diskSight_exec (h : w.Tidy owner) (hm : ∀ f ∈ m, f.Holds w)
    (hguard : DisksInOrder β op as w) :
    (diskSight owner).possible m op (op.exec as w).value ∧
      ∀ f ∈ (diskSight owner).next m op (op.exec as w).value, f.Holds (op.exec as w).state := by
  have hkept (hop : op.makesDisk = none) : ∀ f ∈ m, f.Holds (op.exec as w).state :=
    fun f hf => (hm f hf).exec (.inr hop)
  have hrows : ∀ f ∈ m.filter (·.isRow), f.Holds (op.exec as w).state := fun f hf =>
    (hm f (List.mem_filter.mp hf).1).exec (.inl (List.mem_filter.mp hf).2)
  have hread (hop : op.makesDisk = none) {r : ProjectVolume} (hr : r ∈ w.volumes) :
      ∀ f ∈ .row r.projectId r.id :: m, f.Holds (op.exec as w).state := by
    intro f hf
    rcases List.mem_cons.mp hf with rfl | hf
    · exact (DiskFact.holds_of_mem hr).exec (.inr hop)
    · exact hkept hop f hf
  cases op with
  | deployer o =>
    cases o with
    | db s =>
      cases s with
      | query q =>
        cases q with
        | projectVolumeFindByProjectID p =>
          refine VolumeOp.query_value (C := fun v => (diskSight owner).possible m _ v ∧
            ∀ f ∈ (diskSight owner).next m _ v, f.Holds _) (fun _ => ⟨trivial, hkept rfl⟩)
            fun _ r hfind => ?_
          obtain ⟨hr, -⟩ := Option.filter_eq_some_iff.mp (one_ok hfind)
          exact ⟨Table.find?_key hr, hread rfl (Table.mem_of_find? hr)⟩
        | projectVolumeFindByServiceID service =>
          refine VolumeOp.query_value (C := fun v => (diskSight owner).possible m _ v ∧
            ∀ f ∈ (diskSight owner).next m _ v, f.Holds _) (fun _ => ⟨trivial, hkept rfl⟩)
            fun _ r hfind => ?_
          have hr : r ∈ w.volumes := List.mem_of_find?_eq_some (one_ok hfind)
          have hservice := List.find?_some (one_ok hfind)
          rw [Bool.and_eq_true, beq_iff_eq] at hservice
          exact ⟨h.owned r hr service hservice.1, hread rfl hr⟩
        | _ => exact ⟨trivial, hkept rfl⟩
      | _ => exact ⟨trivial, hkept rfl⟩
    | runtime => exact ⟨trivial, hrows⟩
    | _ => exact ⟨trivial, hkept rfl⟩
  | read q =>
    cases q with
    | volumeFindByID id =>
      refine VolumeOp.read_value (C := fun v => (diskSight owner).possible m _ v ∧
        ∀ f ∈ (diskSight owner).next m _ v, f.Holds _) (fun _ => ⟨trivial, hkept rfl⟩)
        fun r hfind => ?_
      obtain ⟨hr, -⟩ := Option.filter_eq_some_iff.mp (one_ok hfind)
      exact ⟨trivial, hread rfl (List.mem_of_find?_eq_some hr)⟩
    | _ => exact ⟨trivial, hkept rfl⟩
  | removeFile server volume =>
    refine ⟨trivial, ?_⟩
    cases hfail : (as.headD default).fail with
    | true =>
      have hvalue : ((VolumeOp.removeFile server volume).exec as w).value =
          .error (.of (.message (as.headD default).text)) := by
        simp only [VolumeOp.exec, answering, hfail, if_true]
      rw [hvalue]
      exact hkept rfl
    | false =>
      have hvalue : ((VolumeOp.removeFile server volume).exec as w).value = .ok () := by
        simp only [VolumeOp.exec, answering, hfail, Bool.false_eq_true, if_false]
      rw [hvalue]
      intro f hf
      rcases List.mem_cons.mp hf with rfl | hf
      · exact hguard.removed hfail
      · exact hkept rfl f hf
  | downloadFile => exact ⟨trivial, hrows⟩
  | _ => exact ⟨trivial, hkept rfl⟩

end step

/-! ## Programs -/

section programs
variable {owner : Id → Id} {vol : ProjectVolume}

def DiskFact.ofVolume (vol : ProjectVolume) : DiskFact := .row vol.projectId vol.id

/-- Nothing makes a program forget a row. -/
theorem row_next (hf : f.isRow = true) (h : f ∈ m) (op : VolumeOp β) (v : β) :
    f ∈ (diskSight owner).next m op v := by
  have hcons (g : DiskFact) : f ∈ g :: m := List.mem_cons_of_mem _ h
  have hfilter : f ∈ m.filter (·.isRow) := List.mem_filter.mpr ⟨h, hf⟩
  cases op with
  | deployer o =>
    cases o with
    | db s =>
      cases s with
      | query q =>
        cases q with
        | projectVolumeFindByProjectID => cases v <;> first | exact h | exact hcons _
        | projectVolumeFindByServiceID => cases v <;> first | exact h | exact hcons _
        | _ => exact h
      | _ => exact h
    | runtime => exact hfilter
    | _ => exact h
  | read q =>
    cases q with
    | volumeFindByID => cases v <;> first | exact h | exact hcons _
    | _ => exact h
  | removeFile => cases v <;> first | exact h | exact hcons _
  | downloadFile => exact hfilter
  | _ => exact h

theorem VolumeOp.KeepsRows.allowed (h : op.KeepsRows) (m : List DiskFact) :
    (diskSight owner).allows m op := by
  cases op with
  | rows s => cases s <;> first | exact h.elim | trivial
  | _ => trivial

/-- A program that deletes the volume only if it has removed the disk, once it has read the row. -/
def Knowing (owner : Id → Id) (vol : ProjectVolume) (p : Go VolumeOp β) : Prop :=
  ∀ m, .ofVolume vol ∈ m → (diskSight owner).Follows p (fun _ _ => True) m

abbrev Undeleting (p : Go VolumeOp β) : Prop := Uses (fun _ op => op.KeepsRows) p

theorem Undeleting.follows (h : Undeleting p) (hm : .ofVolume vol ∈ m) :
    (diskSight owner).Follows p (fun _ m' => .ofVolume vol ∈ m') m :=
  .keeping (.mono h fun _ op hop m hm =>
    ⟨hop.allowed m, fun v _ => row_next rfl hm op v⟩) hm

theorem Undeleting.knowing (h : Undeleting p) : Knowing owner vol p :=
  fun _ hm => (h.follows hm).any

theorem Knowing.bind (h : Undeleting p) (hf : ∀ a, Knowing owner vol (f a)) :
    Knowing owner vol (p >>= f) :=
  fun _ hm => (h.follows hm).andThen (fun a m' hm' => hf a m' hm')

theorem Knowing.attempt_bind (h : Undeleting p) (hf : ∀ r, Knowing owner vol (f r)) :
    Knowing owner vol (p.attempt >>= f) :=
  fun _ hm => (h.follows hm).attempt_bind fun r m' hm' => hf r m' hm'

attribute [local simp] DiskFact.ofVolume Yields Except.mapError context volumeRead volumeRowStmt operationStmt
  query Reads.read newVolumeID

theorem VolumeOp.Unseeing.keepsRows {op : VolumeOp β} (h : op.Unseeing) : op.KeepsRows := by
  cases op with
  | rows => exact h.elim
  | _ => trivial

/-! ### Passes -/

theorem Undeleting.of_unseeing (h : Uses VolumeOp.Unseeing p) : Undeleting p :=
  h.mono fun _ _ hop => hop.keepsRows

theorem operationWrite_undeleting : Undeleting (context c (operationStmt s)) :=
  context_uses (.ofCall trivial)

theorem statusWrite_undeleting : Undeleting (context c
    (volumeRowStmt (.updateStatusAndHealth p status health message))) :=
  context_uses (.ofCall trivial)

theorem failOperation_knowing : Knowing owner vol (failOperation op vol message health backupId) :=
  Undeleting.knowing (.bind (Undeleting.of_unseeing failBackup_unseeing) fun _ =>
    .bind operationWrite_undeleting fun _ => .bind statusWrite_undeleting fun _ => .pure)

theorem completeOperation_knowing :
    Knowing owner vol (completeOperation op vol result status health message) :=
  Undeleting.knowing (.bind operationWrite_undeleting fun _ =>
    .bind statusWrite_undeleting fun _ => .pure)

theorem knowing_rules : PassRules vol fun _ p => Knowing owner vol p := by
  refine {
    pure := fun _ _ => .pure trivial
    bind := fun hp hf => .bind (.of_unseeing hp) hf
    attempt := fun hp herr hok => .attempt_bind (.of_unseeing hp) (Except.rec herr hok)
    assign := fun herr hok => .attempt_bind (.ofCall trivial) (Except.rec herr hok)
    start := fun hf => .bind operationWrite_undeleting hf
    postpone := Undeleting.knowing (.bind operationWrite_undeleting fun _ => .pure)
    fail := failOperation_knowing
    complete := completeOperation_knowing
    finish := ?_ }
  intro op h req backupId result
  unfold finishBackup
  split
  · intro m hm
    simp
    exact ⟨fun _ => failOperation_knowing m hm, fun _ => ⟨vol.id, hm, .inl rfl⟩⟩
  · exact completeOperation_knowing

theorem reconcileVolumeOperation_deletes (h : VolumeHandler) (o : Id) (m : List DiskFact) :
    (diskSight owner).Follows (reconcileVolumeOperation h o) (fun _ _ => True) m := by
  have hactive {m op} (vol : ProjectVolume) : (diskSight owner).Follows (reconcileActive h op vol)
      (fun _ _ => True) (.ofVolume vol :: m) := knowing_rules.reconcileActive _ List.mem_cons_self
  simp_all [reconcileVolumeOperation]

/-! ### Requests -/

/-- The volume that a request looks up is that of its project. -/
def VolumeScope.Sound (owner : Id → Id) (s : VolumeScope) : Prop :=
  ∀ m, (diskSight owner).Follows (query s.find : Go VolumeOp ProjectVolume)
    (Yields (fun vol m' => .ofVolume vol ∈ m' ∧ vol.projectId = s.projectId) fun _ => True) m

theorem projectVolumeScope_sound : (projectVolumeScope p action).Sound owner := fun _ =>
  .ofCall_yields trivial (fun _ hp => ⟨List.mem_cons_self .., hp⟩) fun _ _ => trivial

theorem serviceVolumeScope_sound (h : owner service.id = service.projectId) :
    (serviceVolumeScope service action).Sound owner := fun _ =>
  .ofCall_yields trivial (fun _ hp => ⟨List.mem_cons_self .., hp.trans h⟩) fun _ _ => trivial

theorem idleVolume_knows (hs : s.Sound owner) :
    (diskSight owner).Follows (idleVolume s message)
      (Yields (fun vol m' => .ofVolume vol ∈ m' ∧ vol.projectId = s.projectId) fun _ => True) m := by
  refine (hs m).attempt_bind fun r m' hr => ?_
  cases r with
  | error e => simp
  | ok vol =>
    obtain ⟨hrow, hproject⟩ := hr
    simp_all

theorem deleteVolume_deletes (hs : s.Sound owner) (host : Id) (m : List DiskFact) :
    (diskSight owner).Follows (deleteVolume s host) (fun _ _ => True) m := by
  refine .yields_andThen (idleVolume_knows hs) (fun vol m' hvol => ?_)
  split
  · cases h : vol.serverId <;>
      simp [requirePinned, h, ensureVolumeBackupStoreConfigured, backupStmt, enqueueProjectVolumeOperation]
  · simp
    exact ⟨vol.id, hvol.2 ▸ hvol.1, .inl rfl⟩

def VolumeOp.Creates (owner : Id → Id) (β : Type) (op : VolumeOp β) : Prop :=
  (∀ m, (diskSight owner).allows m op) ∧ op.makesDisk = none

attribute [local simp] VolumeOp.Creates VolumeOp.makesDisk Op.makesDisk requireCloudHypervisorWorker
  respecifyVolume recreateVolume

theorem putProjectVolume_creates (h : owner service = project.id) :
    Uses (VolumeOp.Creates owner) (putProjectVolume project service req) := by
  simp [putProjectVolume, h]

theorem putServiceVolume_creates (h : owner service = project.id) :
    Uses (VolumeOp.Creates owner) (putServiceVolume project service req) := by
  simp [putServiceVolume, h]

end programs

/-- What is done with volumes: requests to create, change and delete them, passes over operations, and
other programs, such as deployments and requests that start operations. -/
inductive DiskTask
  | putProject (project : Project) (primaryService : Id) (req : VolumeRequest)
  | putService (project : Project) (service : Id) (req : VolumeRequest)
  | deleteProject (projectId host : Id)
  | deleteService (service : Service) (host : Id)
  | pass (h : VolumeHandler) (operation : Id)
  | other (p : Go VolumeOp Unit)

namespace DiskTask

def prog : DiskTask → Go VolumeOp Unit
  | putProject project service req => do let _ ← putProjectVolume project service req
  | putService project service req => do let _ ← putServiceVolume project service req
  | deleteProject p host => do let _ ← deleteProjectVolume p host
  | deleteService service host => do let _ ← deleteServiceVolume service host
  | pass h o => reconcileVolumeOperation h o
  | other p => p

/-- The services are those of the project, and other programs neither delete volumes nor insert
them. -/
def Proper (owner : Id → Id) : DiskTask → Prop
  | putProject project service _ | putService project service _ => owner service = project.id
  | deleteService service _ => owner service.id = service.projectId
  | other p => Undeleting p
  | deleteProject .. | pass .. => True

theorem Proper.follows {t : DiskTask} (h : t.Proper owner) :
    (diskSight owner).Follows t.prog (fun _ _ => True) [] := by
  have hbind {β : Type} {p : Go VolumeOp β} (hp : (diskSight owner).Follows p (fun _ _ => True) []) :
      (diskSight owner).Follows (do let _ ← p) (fun _ _ => True) [] :=
    hp.andThen (fun _ _ _ => .pure trivial)
  cases t with
  | putProject => exact hbind (Typestate.Admits.of_uses ((putProjectVolume_creates h).mono fun _ _ hop => hop.1) _)
  | putService => exact hbind (Typestate.Admits.of_uses ((putServiceVolume_creates h).mono fun _ _ hop => hop.1) _)
  | deleteProject p host => exact hbind (deleteVolume_deletes projectVolumeScope_sound host [])
  | deleteService service host =>
    exact hbind (deleteVolume_deletes (serviceVolumeScope_sound h) host [])
  | pass handler o => exact reconcileVolumeOperation_deletes handler o []
  | other p => exact Typestate.Admits.of_uses (.mono h fun _ _ hop => hop.allowed) _

end DiskTask

def runTasks : List (DiskTask × List Answer) → VolumeWorld → VolumeWorld
  | [], w => w
  | (t, as) :: rest, w => runTasks rest (t.prog.outcome as w).state

def TasksInOrder (owner : Id → Id) : List (DiskTask × List Answer) → VolumeWorld → Prop
  | [], _ => True
  | (t, as) :: rest, w => t.Proper owner ∧ Fallible.Meets DisksInOrder t.prog as w ∧
      TasksInOrder owner rest (t.prog.outcome as w).state

theorem DiskTask.tidy {t : DiskTask} {w : VolumeWorld} (hw : w.Tidy owner)
    (ht : t.Proper owner) (hmeets : Fallible.Meets DisksInOrder t.prog as w) :
    (t.prog.outcome as w).state.Tidy owner := by
  obtain ⟨m, ⟨htidy, -⟩, -⟩ := Typestate.Admits.run
    (I := fun m w => w.Tidy owner ∧ ∀ f ∈ m, f.Holds w)
    (fun β op as w m hI hallows hguard => by
      obtain ⟨hpossible, hfacts⟩ := diskSight_exec hI.1 hI.2 hguard
      exact ⟨hpossible, hI.1.exec hI.2 hallows hguard, hfacts⟩)
    ht.follows ⟨hw, nofun⟩ hmeets
  exact htidy

theorem runTasks_tidy (hw : w.Tidy owner)
    (h : TasksInOrder owner tasks w) : (runTasks tasks w).Tidy owner := by
  induction tasks generalizing w with
  | nil => exact hw
  | cons t rest ih =>
    obtain ⟨ht, hmeets, hrest⟩ := h
    exact ih (DiskTask.tidy hw ht hmeets) hrest

/-! ## One deletion -/

/-- A volume that is found idle was found in the state before, and no disk has changed. -/
theorem idleVolume_ensures :
    Ensures Prog.unguarded (idleVolume s message) (Yields (fun vol w' =>
      (∃ now, s.find.eval now w.toWorld = .ok vol) ∧ ∀ d, w'.holds d = w.holds d) fun _ => True) w := by
  have hfind : Ensures Prog.unguarded (query s.find : Go VolumeOp ProjectVolume)
      (fun r w' => (∀ vol, r = .ok vol → ∃ now, s.find.eval now w.toWorld = .ok vol) ∧
        ∀ d, w'.holds d = w.holds d) w := by
    refine .ofCall fun as _ => ⟨fun vol hvol => ?_, fun d => VolumeOp.holds_exec nofun⟩
    change (if (as.headD default).fail then _ else _) = _ at hvol
    split at hvol
    · cases hvol
    · exact ⟨_, hvol⟩
  refine hfind.attempt_bind fun r w' ⟨hvol, hdisks⟩ => ?_
  cases r with
  | error e =>
    dsimp only
    split <;> exact .throw trivial
  | ok vol =>
  dsimp only
  split
  · exact .throw trivial
  split
  · exact .throw trivial
  have hcheck : Ensures Prog.unguarded (volumeRead (.operationFindCurrentByVolumeID vol.id))
      (fun _ w'' => ∀ d, w''.holds d = w.holds d) w' := .ofCall fun _ _ => hdisks
  refine hcheck.attempt_bind fun r w'' hdisks => ?_
  split
  · exact .throw trivial
  · split
    · exact .pure ⟨hvol _ rfl, hdisks⟩
    · exact .throw trivial

theorem deleteVolume_ensures {host : Id} :
    Ensures Prog.unguarded (deleteVolume s host) (fun r w' => r = .ok none →
      ∃ vol, (∃ now, s.find.eval now w.toWorld = .ok vol) ∧
        ∀ d, w'.holds d = (w.holds d && d != ⟨host, vol.id⟩)) w := by
  refine .bind_yields idleVolume_ensures (fun vol w' ⟨hvol, hdisks⟩ => ?_) fun _ _ _ => nofun
  split
  · refine .bind (.true ..) (fun _ _ _ => ?_) fun _ _ _ => nofun
    refine .bind (.true ..) (fun _ _ _ => ?_) fun _ _ _ => nofun
    refine .bind (.true ..) (fun _ _ _ => ?_) fun _ _ _ => nofun
    refine .bind (.true ..) (fun _ _ _ => ?_) fun _ _ _ => nofun
    exact .bind (.true ..) (fun _ _ _ => .pure nofun) fun _ _ _ => nofun
  · have hremove : Ensures Prog.unguarded (context s.failed (ofCall (.removeFile host vol.id)) : Go VolumeOp Unit)
        (Yields (fun _ w'' => ∀ d, w''.holds d = (w.holds d && d != ⟨host, vol.id⟩)) fun _ => True)
        w' := by
      refine .wrap_yields (.ofCall fun as _ => ?_)
      change Yields _ _ (if (as.headD default).fail then _ else _ : _ × VolumeWorld).1
        (if (as.headD default).fail then _ else _ : _ × VolumeWorld).2
      split
      · trivial
      · intro d
        rw [← hdisks d]
        simp [VolumeWorld.holds, VolumeWorld.removeDisk, bne, Bool.beq_eq_decide_eq]
    refine .bind_yields hremove (fun _ w'' hw'' => ?_) fun _ _ _ => nofun
    have hdelete : Ensures Prog.unguarded (context s.failed
        (volumeRowStmt (.softDelete s.projectId)))
        (fun _ w₃ => ∀ d, w₃.holds d = (w.holds d && d != ⟨host, vol.id⟩)) w'' :=
      .wrap (.ofCall fun _ _ d => (VolumeOp.holds_exec (by trivial)).trans (hw'' d))
    exact .bind hdelete (fun _ _ hw₃ => .pure fun _ => ⟨vol, hvol, hw₃⟩) fun _ _ _ => nofun

/-- After a deletion that returns without an operation no server holds the disk exactly when its host
was the only server that held it. -/
theorem deleteVolume_empty_iff {host : Id} (hvol : ∀ now, s.find.eval now w.toWorld = .ok vol)
    (h : ((deleteVolume s host).outcome as w).value = .ok none) :
    ((deleteVolume s host).outcome as w).state.Empty vol.id ↔
      ∀ server, w.holds ⟨server, vol.id⟩ = true → server = host := by
  obtain ⟨vol', ⟨now, hvol'⟩, hdisks⟩ :=
    deleteVolume_ensures.outcome (Fallible.meets_unguarded _ as w) h
  obtain rfl : vol' = vol := Except.ok.inj (hvol'.symm.trans (hvol now))
  refine forall_congr' fun server => ?_
  rw [hdisks]
  cases w.holds ⟨server, vol'.id⟩ <;> simp

theorem VolumeWorld.Tidy.find_service {w : VolumeWorld} (h : w.Tidy owner)
    {vol : ProjectVolume} (hvol : vol ∈ w.volumes) (hlive : vol.undeleted = true)
    (hservice : vol.serviceId = some service) :
    one (w.volumes.rows.find? fun v => v.serviceId == some service && v.undeleted) = .ok vol := by
  have hsome : (w.volumes.rows.find? fun v => v.serviceId == some service && v.undeleted).isSome :=
    List.find?_isSome.mpr ⟨vol, hvol, by simp [hservice, hlive]⟩
  obtain ⟨r, hr⟩ := Option.isSome_iff_exists.mp hsome
  have hmem : r ∈ w.volumes := List.mem_of_find?_eq_some hr
  have hr' := List.find?_some hr
  rw [Bool.and_eq_true, beq_iff_eq] at hr'
  have hproject : r.projectId = vol.projectId :=
    (h.owned r hmem service hr'.1).trans (h.owned vol hvol service hservice).symm
  rw [hr, Table.eq_of_key_eq hmem hvol hproject]
  rfl

/-- **Volumes that are created again.** Let requests that create, change and delete volumes, passes over
volume operations, and programs that do not delete volumes follow one another in any order. If the file
of a volume is removed only where it alone is, and a disk is made only for a volume that is not deleted,
no server holds the disk of a volume that is deleted, and a volume that is created again starts
empty. A deletion that returns without an operation leaves no disk exactly when the host that handled
it was the only one that held the disk. -/
theorem deleted_volumes_empty (owner : Id → Id) (w : VolumeWorld) (hw : w.Tidy owner)
    (tasks : List (DiskTask × List Answer)) (htasks : TasksInOrder owner tasks w) :
    (∀ vol ∈ (runTasks tasks w).volumes, vol.undeleted = false → (runTasks tasks w).Empty vol.id) ∧
    (∀ (project : Project) (service : Id) (req : VolumeRequest) (as : List Answer)
      (vol : ProjectVolume), owner service = project.id → vol ∈ (runTasks tasks w).volumes →
      vol.undeleted = false →
      ((putProjectVolume project service req).outcome as (runTasks tasks w)).state.Empty vol.id ∧
      ((putServiceVolume project service req).outcome as (runTasks tasks w)).state.Empty vol.id) ∧
    ∀ (w' : VolumeWorld) (host : Id) (as : List Answer) (vol : ProjectVolume),
      vol ∈ w'.volumes → vol.undeleted = true →
      (((deleteProjectVolume vol.projectId host).outcome as w').value = .ok none →
        (((deleteProjectVolume vol.projectId host).outcome as w').state.Empty vol.id ↔
          ∀ server, w'.holds ⟨server, vol.id⟩ = true → server = host)) ∧
      ∀ service : Service, w'.Tidy owner → owner service.id = service.projectId →
        vol.serviceId = some service.id →
        ((deleteServiceVolume service host).outcome as w').value = .ok none →
        (((deleteServiceVolume service host).outcome as w').state.Empty vol.id ↔
          ∀ server, w'.holds ⟨server, vol.id⟩ = true → server = host) := by
  have htidy := runTasks_tidy hw htasks
  refine ⟨htidy.empty, fun project service req as vol howner hvol hdel => ?_,
    fun w' host as vol hvol hlive => ⟨fun hdone => ?_, fun service htidy howner hservice hdone => ?_⟩⟩
  · have hempty {p : Go VolumeOp ProjectVolume} (hp : Uses (VolumeOp.Creates owner) p) :
        (p.outcome as (runTasks tasks w)).state.Empty vol.id :=
      (hp.ensures (I := fun w' => w'.Empty vol.id) (G := Prog.unguarded) (fun _ op hop as w' hw' =>
        DiskFact.Holds.exec (f := .gone vol.id) hw' (.inr hop.2)) (htidy.empty vol hvol hdel)).outcome
        (Fallible.meets_unguarded _ as _)
    exact ⟨hempty (putProjectVolume_creates howner), hempty (putServiceVolume_creates howner)⟩
  · refine deleteVolume_empty_iff (fun now => ?_) hdone
    change one ((w'.volumes.find? vol.projectId).filter _) = _
    rw [Table.find?_of_mem hvol, Option.filter_some, if_pos hlive]
    rfl
  · refine deleteVolume_empty_iff (fun now => ?_) hdone
    exact htidy.find_service hvol hlive hservice

/-- Volume 9 of project 3 is on server 5. -/
def pinnedWorld : VolumeWorld where
  toWorld :=
    { servers := .single { id := 5 }
      componentStatuses :=
        [{ serverId := 5, worker := true, healthy := true, runtime := some .cloudHypervisor }]
      volumes := .single { id := 9, projectId := 3, serverId := some 5, mountPath := "/data", sizeGb := 5 } }
  disks := [⟨5, 9⟩]

theorem pinnedWorld_tidy : pinnedWorld.Tidy fun _ => 3 where
  empty r hr hdel := by
    cases List.mem_singleton.mp hr
    cases hdel
  owned r hr s hs := by
    cases List.mem_singleton.mp hr
    cases hs

/-- The volume is deleted on the host of the API, which is server `host`, and created again. -/
def recreation (host : Id) : List (DiskTask × List Answer) :=
  [(.deleteProject 3 host, []), (.putProject { id := 3, maxInstanceCount := 1 } 4 {}, [])]

/-- Server 1 deletes the volume, and server 5 still holds the disk of the volume that is created
again. -/
theorem deleted_disk_survives :
    ((deleteProjectVolume 3 1).outcome [] pinnedWorld).value = .ok none ∧
    (((deleteProjectVolume 3 1).outcome [] pinnedWorld).state.volumes.find? 3).map (·.undeleted) =
      some false ∧
    ((deleteProjectVolume 3 1).outcome [] pinnedWorld).state.holds ⟨5, 9⟩ = true ∧
    ((runTasks (recreation 1) pinnedWorld).volumes.find? 3).map (fun v => (v.id, v.undeleted)) =
      some (9, true) ∧
    (runTasks (recreation 1) pinnedWorld).holds ⟨5, 9⟩ = true := by
  decide +kernel

/-- Server 5 deletes the volume itself. -/
theorem deleted_volume_empty : ((runTasks [(.deleteProject 3 5, [])] pinnedWorld).volumes.find? 3).map
      (fun v => (v.id, v.undeleted)) = some (9, false) ∧
    (runTasks [(.deleteProject 3 5, [])] pinnedWorld).Empty 9 := by
  have h := (deleted_volumes_empty (fun _ => 3) pinnedWorld pinnedWorld_tidy [(.deleteProject 3 5, [])]
    ⟨trivial, by decide +kernel, trivial⟩).1
  refine ⟨by decide +kernel, ?_⟩
  exact h { id := 9, projectId := 3, mountPath := "/data", sizeGb := 5, deletedAt := some 0 }
    (Table.mem_of_find? (k := 3) (by decide +kernel)) rfl

end Kindling
