import Kindling.Verify.VmLinks
import Kindling.Verify.Draining
import Kindling.Lib.Interleave

/-!
# Live VMs without an instance

Which steps keep every live VM row attached to exactly one instance. The release of an instance from
its server clears `vm_id` and leaves the VM row as it is.
-/

namespace Kindling

open Fallible Ownership

variable {i v s : Id} {vm : Vm} {w' : World} {now : Time} {st : InstanceStatus}
  {as as' : List Answer}

/-! ## Removing and resetting -/

section removal
variable {legacy : Id → Prop} {inst : DeploymentInstance} {w : World}

theorem release_uses {s : InstanceStmt β} (h : s.Releases (· = i)) :
    Uses (Op.Releases (· = i)) (instanceStmt s) := .ofCall h

theorem deleteInstancePermanently_sound (hw : Ready legacy inst.id inst.vmId w) :
    LeavesSound legacy (deleteInstancePermanently d inst) w := by
  refine hw.bind ((stopQuietly_quiet ..).releases _) fun _ w₁ hw₁ => ?_
  split
  · next v hv =>
    refine hw₁.bind (discard_uses ((detachProjectVolumeForInstance_quiet ..).releases _))
      fun _ w₂ hw₂ => hw₂.softDelete_bind hv ?_
    exact discard_uses (release_uses rfl)
  · next hv => exact .of_free (discard_uses (release_uses rfl)) hw₁.sound (hw₁.free_of_none hv)

theorem suspendToWarmPool_sound (hw : Ready legacy inst.id inst.vmId w) :
    Ensures heedingGuard (suspendToWarmPool d inst vm)
      (fun r w' => w'.ownership.Sound legacy ∧ (r = .ok false → Ready legacy inst.id inst.vmId w')) w := by
  have hkeep : ∀ {α : Type} {p : Go Op α} {w}, Uses Op.KeepsLinks p → Ready legacy inst.id inst.vmId w →
      Ensures heedingGuard p (fun _ w' => Ready legacy inst.id inst.vmId w') w := fun hp hw =>
    (uses_releases hp).mono fun _ _ hrel => hw.keepsLinks hrel
  have hdelete : ∀ w, Ready legacy inst.id inst.vmId w →
      Ensures heedingGuard (do deleteInstancePermanently d inst; return true)
        (fun r w' => w'.ownership.Sound legacy ∧ (r = .ok false → Ready legacy inst.id inst.vmId w')) w := by
    intro w hw
    refine .bind (deleteInstancePermanently_sound hw) (fun _ w' h => .pure ⟨h, ?_⟩)
      fun _ _ h => ⟨h, ?_⟩ <;> exact nofun
  refine .attempt_bind (hkeep (.ofCall trivial) hw) fun r w₁ hw₁ => ?_
  split
  · exact hdelete w₁ hw₁
  refine .attempt_bind (hkeep (.ofCall trivial) hw₁) fun r w₂ hw₂ => ?_
  split
  · exact hdelete w₂ hw₂
  refine .attempt_bind (hkeep (.ofCall trivial) hw₂) fun r w₃ hw₃ => ?_
  split
  · exact hdelete w₃ hw₃
  refine .attempt_bind (hkeep (.ofCall trivial) hw₃) fun r w₄ hw₄ => ?_
  split
  · exact .pure ⟨hw₄.sound, fun _ => hw₄⟩
  refine .bind (hkeep (suspendedSnapshotRef_quiet.releases _) hw₄) (fun ref w₅ hw₅ => ?_)
    fun _ _ h => ⟨h.sound, nofun⟩
  refine .attempt_bind (hkeep (.ofCall trivial) hw₅) fun r w₆ hw₆ => ?_
  split
  · exact .pure ⟨hw₆.sound, nofun⟩
  · exact .pure ⟨hw₆.sound, fun _ => hw₆⟩

theorem cleanupInstance_sound (hw : Ready legacy inst.id inst.vmId w) :
    LeavesSound legacy (cleanupInstance d inst) w := by
  refine hw.bind (suspendableVM_quiet.releases _) fun vm w₁ hw₁ => ?_
  split
  · refine Ensures.bind (suspendToWarmPool_sound hw₁) (fun done w₂ h => ?_) fun _ _ h => h.1
    split
    · exact .pure h.1
    · next hdone =>
      rw [Bool.not_eq_true] at hdone
      exact deleteInstancePermanently_sound (h.2 (by rw [hdone]))
  · exact deleteInstancePermanently_sound hw₁

theorem repairInstance_sound (hw : Ready legacy inst.id inst.vmId w) :
    LeavesSound legacy (repairInstance d inst) w := by
  have hretry : Uses (Op.Releases (· = inst.id)) (discard (instanceStmt (.prepareRetry inst.id))) :=
    discard_uses (release_uses rfl)
  unfold repairInstance
  split
  · refine hw.bind (.attempt (.ofCall trivial)) fun r w₁ hw₁ => ?_
    split
    · exact .pure hw₁.sound
    split
    · exact .pure hw₁.sound
    refine hw₁.bind ((stopQuietly_quiet ..).releases _) fun _ w₂ hw₂ => ?_
    split
    · next v hv =>
      refine hw₂.bind (.attempt ((markProjectVolumeUnavailableForInstance_quiet ..).releases _))
        fun r w₃ hw₃ => ?_
      split
      · exact hw₃.bind (discard_uses ((detachProjectVolumeForInstance_quiet ..).releases _))
          fun _ w₄ hw₄ => hw₄.softDelete_bind hv hretry
      · exact hw₃.softDelete_bind hv hretry
    · next hv =>
      exact .of_free hretry hw₂.sound (hw₂.free_of_none (Option.eq_none_iff_forall_ne_some.mpr hv))
  · exact .pure hw.sound

theorem resetStaleInstance_sound (hw : Ready legacy inst.id inst.vmId w) :
    LeavesSound legacy (resetStaleInstance d dep inst vol) w := by
  have hretry : Uses (Op.Releases (· = inst.id)) (do
      let _ ← context "prepare retry" (instanceStmt (.prepareRetry inst.id))
      context "re-fetch instance after prepare retry"
        (query (.deploymentInstanceFirstByID inst.id))) :=
    .bind (context_uses (release_uses rfl)) fun _ => context_uses (.ofCall trivial)
  unfold resetStaleInstance
  split
  · exact .pure hw.sound
  refine hw.bind ((stopQuietly_quiet ..).releases _) fun _ w₁ hw₁ => ?_
  split
  · next v hv =>
    exact hw₁.bind ((detachFromVM_quiet ..).releases _) fun _ w₂ hw₂ => hw₂.softDelete_bind hv hretry
  · next hv => exact .of_free hretry hw₁.sound (hw₁.free_of_none hv)

theorem resetLostSuspended_sound (hv : inst.vmId = some v) (hw : Ready legacy inst.id inst.vmId w) :
    LeavesSound legacy (resetLostSuspended dep inst v vol) w := by
  refine hw.bind ((detachFromVM_quiet ..).releases _) fun _ w₁ hw₁ => hw₁.softDelete_bind hv ?_
  exact .bind (context_uses (release_uses rfl)) fun _ => .pure

theorem resumeOnRuntime_sound (hv : inst.vmId = some vm.id)
    (hw : Ready legacy inst.id inst.vmId w) :
    LeavesSound legacy (resumeOnRuntime d dep inst vm vol) w := by
  refine hw.bind (context_uses (.ofCall trivial)) fun _ w₁ hw₁ =>
    hw₁.bind (.attempt (.ofCall trivial)) fun r w₂ hw₂ => ?_
  split
  · split
    · exact resetLostSuspended_sound hv hw₂
    · exact .throw hw₂.sound
  · exact .keepsLinks (recordResumed_quiet.releases _) hw₂.sound

theorem tryResumeFromSuspended_sound (hw : Ready legacy inst.id inst.vmId w) :
    LeavesSound legacy (tryResumeFromSuspended d dep inst vol) w := by
  unfold tryResumeFromSuspended
  split
  · exact .pure hw.sound
  · next v hv =>
    refine .read_bind fun r hr => ?_
    split
    · exact .pure hw.sound
    · next vm =>
      obtain ⟨now, hvm⟩ := hr vm rfl
      have hid : vm.id = v := Table.find?_key (one_ok hvm)
      split
      · exact .pure hw.sound
      split
      · exact .pure hw.sound
      split
      · next heligible _ hwarm =>
        -- an eligible instance is active, so it is not in the warm pool
        refine absurd (.inr ?_) heligible
        have hrole : inst.role = .warmPool := by simpa [isWarmPoolInstance] using hwarm
        simp [suspendedResumeEligible, isActiveInstance, hrole]
      · exact resumeOnRuntime_sound (hid ▸ hv) hw

end removal

section assignment
variable {legacy : Id → Prop} {inst : DeploymentInstance} {w : World}

theorem hasSuspendedVM_heeded :
    Ensures heedingGuard (hasSuspendedVM inst)
      (Yields (fun b w' => w' = w ∧ w.vmSuspended inst = b) fun w' => w' = w) w := by
  unfold hasSuspendedVM
  split
  · next hv => exact .pure ⟨rfl, by simp [World.vmSuspended, hv]⟩
  · next v hv =>
    refine .attempt_bind (Q := fun r w' => w' = w ∧ r = one (w.vms.find? v))
      (.ofCall fun as hg => ?_) fun r w' hr => ?_
    · have hok : (as.headD default).fail = false := (Bool.not_eq_true' _).mp hg
      exact ⟨rfl, if_neg (Bool.eq_false_iff.mp hok)⟩
    · obtain ⟨rfl, rfl⟩ := hr
      have hsusp : w'.vmSuspended inst = (w'.vms.find? v).any (·.status == .suspended) := by
        simp [World.vmSuspended, hv]
      cases hfind : w'.vms.find? v with
      | none => exact .pure ⟨rfl, by rw [hsusp, hfind]; rfl⟩
      | some vm => exact .pure ⟨rfl, by rw [hsusp, hfind]; rfl⟩

theorem leaveDrainingServer_sound (hs : inst.serverId = some s)
    (hw : Ready legacy inst.id inst.vmId w) (hstays : w.onDrainingServer inst = false ∨
      isWarmPoolInstance inst = true ∨ w.vmSuspended inst = true ∨ inst.status = .running) :
    LeavesSound legacy (leaveDrainingServer d inst s) w := by
  have hdelete : ∀ w, Ready legacy inst.id inst.vmId w →
      LeavesSound legacy (do deleteInstancePermanently d inst; return inst) w := fun _ hw =>
    .bind (deleteInstancePermanently_sound hw) fun _ _ h => .pure h
  refine .read_bind fun r hr => ?_
  split
  · exact .pure hw.sound
  · next srv =>
    obtain ⟨now, hsrv⟩ := hr srv rfl
    split
    · exact .pure hw.sound
    · next hdraining =>
      have hdrain : w.onDrainingServer inst = true := by
        have hfind : w.servers.find? s = some srv := one_ok hsrv
        simpa [World.onDrainingServer, hs, hfind] using hdraining
      split
      · exact hdelete w hw
      · next hwarm =>
        refine .bind_yields hasSuspendedVM_heeded (fun suspended w' hw' => ?_)
          fun _ w' hw' => hw' ▸ hw.sound
        obtain ⟨rfl, hb⟩ := hw'
        split
        · exact hdelete _ hw
        · next hsusp =>
          split
          · next hnot =>
            refine LeavesSound.of_free (releaseInstance_within rfl).releases hw.sound (hw.free_of_none ?_)
            -- neither in the warm pool nor suspended, so the instance is running and has no VM
            rcases hstays with h | h | h | h
            · rw [hdrain] at h
              cases h
            · exact absurd h hwarm
            · exact absurd (hb.symm.trans h) hsusp
            · exact hnot.resolve_left fun hne => hne h
          · exact .pure hw.sound

theorem reconcileInstanceServerAssignment_sound (hw : Ready legacy inst.id inst.vmId w)
    (hstays : w.ownership.Free inst.id ∨ (vol.isSome && w.pinnedElsewhere dep inst) = false ∧
      (w.onDrainingServer inst = false ∨ isWarmPoolInstance inst = true ∨
        w.vmSuspended inst = true ∨ inst.status = .running)) :
    LeavesSound legacy (reconcileInstanceServerAssignment d dep inst vol) w := by
  rcases hstays with hfree | ⟨hpinned, hstays⟩
  · exact .of_free (reconcileInstanceServerAssignment_within rfl rfl).releases hw.sound hfree
  unfold reconcileInstanceServerAssignment
  split
  · next s hs =>
    split
    · next hvol =>
      rw [hvol] at hpinned
      refine .bind_yields (.wrap_yields projectVolumeForDeployment_ensures)
        (fun o w' hw' => ?_) fun _ w' hw' => hw' ▸ hw.sound
      obtain ⟨rfl, ho⟩ := hw'
      split
      · next vol =>
        split
        · next helse =>
          rw [World.pinnedElsewhere, ho vol rfl] at hpinned
          simp [helse] at hpinned
        · exact leaveDrainingServer_sound hs hw hstays
      · exact leaveDrainingServer_sound hs hw hstays
    · exact leaveDrainingServer_sound hs hw hstays
  · exact .pure hw.sound

end assignment

/-! ## Starting -/

section starting
variable {legacy : Id → Prop} {w : World}

/-- A VM row that has been created and is not yet attached to an instance. -/
structure Unattached (legacy : Id → Prop) (v : Id) (w : World) : Prop where
  sound : w.ownership.Sound fun x => x = v ∨ legacy x
  known : w.ownership.known v
  nobody : ∀ i, w.ownership.held i ≠ some v

theorem Unattached.keepsLinks (h : Unattached legacy v w)
    (hrel : Ownership.Releases (fun _ => False) w.ownership w'.ownership) :
    Unattached legacy v w' where
  sound := h.sound.releases_free hrel fun _ hs => hs.elim
  known := hrel.known v h.known
  nobody i hi := h.nobody i (hrel.held_some hi)

theorem Unattached.mono (h : Unattached legacy v w) (hle : ∀ x, legacy x → legacy' x) :
    Unattached legacy' v w :=
  ⟨h.sound.mono fun x _ hx => hx.imp_right (hle x), h.known, h.nobody⟩

theorem createVM_live (hok : ((VmStmt.create vm).exec now w.vms).1 = .ok x)
    (hv : (w.withVms ((VmStmt.create vm).exec now w.vms).2).ownership.live v) :
    w.ownership.live v ∨ v = vm.id := by
  obtain ⟨rfl, hins⟩ := inserting_ok hok
  simp only [World.ownership, World.liveVM, World.withVms_vms] at hv ⊢
  rw [VmStmt.exec, Table.find?_insert? hins] at hv
  split at hv
  · next h => exact .inr h.symm
  · exact .inl hv

theorem createVM_unattached (hw : w.ownership.Sound legacy)
    (hok : ((VmStmt.create vm).exec now w.vms).1 = .ok x) :
    Unattached legacy vm.id (w.withVms ((VmStmt.create vm).exec now w.vms).2) := by
  obtain ⟨rfl, hins⟩ := inserting_ok hok
  have hfresh := Table.insert?_fresh hins
  have hfind := Table.find?_insert? hins
  refine ⟨hw.create rfl (fun v => createVM_live hok) fun v hv => ?_, ?_, fun i hi => ?_⟩
  · simp only [World.ownership, World.withVms_vms] at hv ⊢
    rw [VmStmt.exec, hfind]
    split
    · rfl
    · exact hv
  · simp only [World.ownership, World.withVms_vms]
    rw [VmStmt.exec, hfind, if_pos rfl]
    rfl
  · -- only known rows are referred to, and this one was not known
    have hknown : (w.vms.find? vm.id).isSome = true := hw.known i vm.id hi
    exact Option.isSome_iff_ne_none.mp hknown hfresh

theorem attachVM_linkOf (hok : ((InstanceStmt.attachVM i v st).exec now t).1 = .ok r) :
    linkOf ((InstanceStmt.attachVM i v st).exec now t).2 = Function.update (linkOf t) i (some v) := by
  obtain ⟨r₀, hr₀, hundeleted, -, -⟩ := Table.updateKey_fst_eq_some (returning_ok hok)
  funext j
  rw [Function.update_apply]
  split
  · next hj =>
    subst hj
    have h := t.find?_updateKey_self j (·.undeleted) ({ · with vmId := some v, status := st })
      fun _ => rfl
    rw [hr₀, Option.map_some, if_pos hundeleted] at h
    refine (congrArg (fun o => (Option.map DeploymentInstance.link o).getD none) h).trans ?_
    exact if_pos hundeleted
  · next hj =>
    have h := t.find?_updateKey_ne (·.undeleted) ({ · with vmId := some v, status := st })
      (fun _ => rfl) hj
    exact congrArg (fun o => (Option.map DeploymentInstance.link o).getD none) h

theorem Unattached.attach (hw : Unattached legacy v w)
    (hok : ((InstanceStmt.attachVM i v st).exec now w.instances).1 = .ok r)
    (hfree : ∀ x, w.ownership.held i = some x → w.ownership.live x → legacy x) :
    (w.withInstances ((InstanceStmt.attachVM i v st).exec now w.instances).2).ownership.Sound
      legacy :=
  hw.sound.acquire (attachVM_linkOf hok) rfl rfl hw.known hw.nobody hfree

theorem attachVM_error (herr : ((InstanceStmt.attachVM i v st).exec now w.instances).1 = .error e) :
    (w.withInstances ((InstanceStmt.attachVM i v st).exec now w.instances).2).ownership =
      w.ownership := by
  have hsame : linkOf ((InstanceStmt.attachVM i v st).exec now w.instances).2 =
      linkOf w.instances := by
    funext j
    exact congrArg (fun o => (Option.map DeploymentInstance.link o).getD none)
      (Table.find?_updateKey_none (returning_error herr) j)
  rw [World.ownership, World.withInstances_instances, hsame]
  rfl

theorem createVM_error (herr : ((VmStmt.create vm).exec now w.vms).1 = .error e) :
    (w.withVms ((VmStmt.create vm).exec now w.vms).2).ownership = w.ownership := by
  have hsame : ((VmStmt.create vm).exec now w.vms).2 = w.vms := inserting_error herr
  rw [hsame]
  rfl

theorem createVM_ensures (hw : w.ownership.Sound legacy) (hi : w.ownership.held i = none) :
    Ensures G (vmStmt (.create vm))
      (Yields (fun _ w' => Unattached legacy vm.id w' ∧ w'.ownership.held i = none)
        fun w' => w'.ownership.Sound legacy) w := by
  refine vmStmt_ensures fun as _ => ?_
  split
  · exact hw
  · cases hres : ((VmStmt.create vm).exec (as.headD default).now w.vms).1 with
    | ok x => exact ⟨createVM_unattached hw hres, hi⟩
    | error e =>
      change Sound legacy (World.ownership _)
      rwa [createVM_error hres]

theorem attachNewVM_sound (hw : Unattached legacy v w) (hi : w.ownership.held i = none) :
    LeavesSound legacy (do
      match ← attempt (instanceStmt (.attachVM i v st)) with
      | .ok _ => return v
      | .error e =>
        discard (vmStmt (.softDelete v))
        throw (e.wrap "attach vm to deployment instance")) w := by
  have hattach : Ensures heedingGuard (instanceStmt (.attachVM i v st))
      (Yields (fun _ w' => w'.ownership.Sound legacy) (Unattached legacy v)) w := by
    refine instanceStmt_ensures hw fun now => ?_
    cases hres : ((InstanceStmt.attachVM i v st).exec now w.instances).1 with
    | ok x => exact hw.attach hres fun y hy => by cases hi.symm.trans hy
    | error e => exact hw.keepsLinks (attachVM_error hres ▸ .refl)
  refine .attempt_bind hattach fun r w' h => ?_
  cases r with
  | ok _ => exact .pure h
  | error e =>
    have hw' : Unattached legacy v w' := h
    refine .bind softDelete_ensures (fun _ w'' hdel => .throw ?_) fun _ _ h => by cases h.1
    exact (hw'.keepsLinks hdel.2.1).sound.retired hdel.2.2.2

theorem persistInstanceVMMetadata_sound (hw : w.ownership.Sound legacy) :
    LeavesSound legacy (persistInstanceVMMetadata i img srv vs st addr env md) w := by
  refine .bind_yields (.wrap_yields read_ensures) (fun r w' hr => ?_) fun _ w' hw' => hw' ▸ hw
  obtain ⟨rfl, now, hr⟩ := hr
  have hfind : w'.instances.find? i = some r := one_ok hr
  split
  · exact .pure hw
  · next hnone =>
    have hi : w'.ownership.held i = none := by
      have hlink : r.link = none := by
        rw [DeploymentInstance.link, Option.eq_none_iff_forall_ne_some.mpr hnone, ite_self]
      exact (linkOf_eq hfind).trans hlink
    split
    · split
      · next ip port =>
        refine .bind_yields (Q := fun _ w₁ => w₁ = w') (R := fun w₁ => w₁ = w')
          (.ofTotal fun as _ => rfl) (fun v w₁ hw₁ => ?_) fun _ w₁ hw₁ => hw₁ ▸ hw
        obtain rfl := hw₁.symm
        refine .bind_yields (.wrap_yields (createVM_ensures hw hi)) (fun _ w₂ h => ?_)
          fun _ _ h => h
        exact attachNewVM_sound h.1 h.2
      · exact .throw hw
    · exact .throw hw

theorem startNewInstance_sound {ref : String} (hw : w.ownership.Sound legacy) :
    LeavesSound legacy (startNewInstance d dep inst imageRef env ref src vol) w := by
  unfold startNewInstance
  split
  · refine .keepsLinks ?_ hw
    split
    · exact .bind (context_uses (.ofCall trivial)) fun _ => .pure
    · exact .pure
  refine .bind (.keepsLinks (context_uses (.ofCall trivial)) hw) fun _ w₁ hw₁ =>
    .bind (.keepsLinks (launchInstance_within trivial).releases hw₁) fun started w₂ hw₂ =>
    .bind (.attempt (persistInstanceVMMetadata_sound hw₂)) fun r w₃ hw₃ => ?_
  split
  · exact .keepsLinks (.bind (discard_uses (.ofCall trivial)) fun _ =>
      .bind ((markFailed_quiet _).releases _) fun _ => .throw) hw₃
  · exact .keepsLinks ((finishStart_quiet ..).releases _) hw₃

end starting

section recovery
variable {legacy : Id → Prop} {w : World}

theorem softDeleteVMs_ensures (vs : List Id) (w : World) :
    Ensures heedingGuard (softDeleteVMs vs) (fun _ w' =>
      Ownership.Releases (fun _ => False) w.ownership w'.ownership ∧
      w'.instances = w.instances ∧ ∀ v ∈ vs, ¬w'.ownership.live v) w := by
  induction vs generalizing w with
  | nil => exact .pure ⟨.refl, rfl, nofun⟩
  | cons v vs ih =>
    refine .bind softDelete_ensures (fun _ w₁ h₁ => ?_) fun _ _ h => by cases h.1
    refine (ih w₁).mono fun _ w₂ h₂ => ⟨h₁.2.1.trans h₂.1, h₂.2.1.trans h₁.2.2.1, fun x hx => ?_⟩
    rcases List.mem_cons.mp hx with rfl | hx
    · exact fun hlive => h₁.2.2.2 (h₂.1.live x hlive)
    · exact h₂.2.2 x hx

/-- The VMs of the instances on the server are not live. -/
def ServerCleared (s : Id) (w : World) : Prop :=
  ∀ i r, w.instances.find? i = some r → r.serverId = some s → w.ownership.Free i

theorem resetForDeadServer_sound (hw : w.ownership.Sound legacy) (hs : ServerCleared s w) :
    LeavesSound legacy (instanceStmt (.resetForDeadServer s)) w := by
  refine instanceStmt_ensures hw fun now => ?_
  have hlink : ∀ i, linkOf ((InstanceStmt.resetForDeadServer s).exec now w.instances).2 i =
        linkOf w.instances i ∨
      (∃ r, w.instances.find? i = some r ∧ r.serverId = some s) ∧
        linkOf ((InstanceStmt.resetForDeadServer s).exec now w.instances).2 i = none := by
    intro i
    have h : ((InstanceStmt.resetForDeadServer s).exec now w.instances).2.find? i = _ :=
      w.instances.find?_updateWhere (fun i => i.serverId == some s && i.undeleted)
        (fun i => { i.released with restartCount := 0, lastRestartAt := none }) (fun _ => rfl) i
    rw [linkOf, h, linkOf]
    cases hr : w.instances.find? i with
    | none => exact .inl rfl
    | some r =>
      simp only [Option.map_some]
      split
      · next hcond =>
        simp only [Bool.and_eq_true, beq_iff_eq] at hcond
        exact .inr ⟨⟨r, rfl, hcond.1⟩, ite_self none⟩
      · exact .inl rfl
  exact hw.releases_free
    ⟨hlink, fun _ => id, fun _ => id⟩ fun i h => h.elim fun r hr => hs i r hr.1 hr.2

theorem softDeleteVMs_cleared (hw : w.ownership.Sound legacy)
    (hvms : (Query.deploymentInstanceVMIDsByServerID s).eval now w = .ok vmIds) :
    Ensures heedingGuard (softDeleteVMs vmIds)
      (fun _ w' => w'.ownership.Sound legacy ∧ ServerCleared s w') w := by
  cases hvms
  refine (softDeleteVMs_ensures _ w).mono fun _ w' ⟨hrel, hinst, hdead⟩ => ?_
  refine ⟨hw.releases_free hrel fun _ hs => hs.elim, fun i r hr hserver v hv => hdead v ?_⟩
  have hlink : r.link = some v := (linkOf_eq hr).symm.trans hv
  have hundeleted : r.undeleted = true := by
    by_contra hne
    rw [DeploymentInstance.link, if_neg hne] at hlink
    cases hlink
  rw [DeploymentInstance.link, if_pos hundeleted] at hlink
  refine List.mem_filterMap.mpr ⟨r, Table.mem_of_find? (hinst ▸ hr), ?_⟩
  rw [if_pos (by simp [hserver, hundeleted]), hlink]

theorem recoverDeadServer_sound (hw : w.ownership.Sound legacy) :
    LeavesSound legacy (recoverDeadServer s) w := by
  refine .bind (.keepsLinks (.attempt (.ofCall trivial)) hw) fun r w₁ hw₁ => ?_
  split
  · refine .bind (.keepsLinks (.ofTotal trivial) hw₁) fun now w₂ hw₂ => ?_
    split
    · exact .pure hw₂
    refine .read_bind fun r hr => ?_
    split
    · next vmIds =>
      obtain ⟨now, hvms⟩ := hr vmIds rfl
      refine Ensures.bind (softDeleteVMs_cleared hw₂ hvms) (fun _ w₃ h₃ => ?_) fun _ _ h => h.1
      refine LeavesSound.bind (.attempt (resetForDeadServer_sound h₃.1 h₃.2)) fun r w₄ hw₄ => ?_
      split
      · exact .keepsLinks (discard_uses (.ofCall trivial)) hw₄
      · exact .pure hw₄
    · exact .pure hw₂
  · exact .pure hw₁

theorem detectDeadServer_sound (hw : w.ownership.Sound legacy) :
    LeavesSound legacy (detectDeadServer s) w := by
  refine .bind (.keepsLinks (.attempt (.ofCall trivial)) hw) fun r w₁ hw₁ => ?_
  split
  · refine .read_bind fun r hr => ?_
    split
    · next vmIds =>
      obtain ⟨now, hvms⟩ := hr vmIds rfl
      refine Ensures.bind (softDeleteVMs_cleared hw₁ hvms) (fun _ w₂ h₂ => ?_) fun _ _ h => h.1
      exact LeavesSound.bind (.attempt (resetForDeadServer_sound h₂.1 h₂.2)) fun _ _ h => .pure h
    · exact .pure hw₁
  · exact .pure hw₁

end recovery

section migration
variable {legacy : Id → Prop} {w : World}

theorem stmt_outcome {s : Stmt (Except Err β)}
    (h : (ofCall s : Go Stmt β).outcome as w = ⟨r, w', as'⟩) :
    ∃ a, s.step a w = (r, w') := by
  simp only [outcome_ofCall, Effect.exec, Outcome.mk.injEq] at h
  exact ⟨as.headD default, Prod.ext h.1 h.2.1⟩

theorem vms_outcome_ok {s : VmStmt β} {w : World}
    (h : (ofCall (.vms s) : Go Stmt β).outcome as w = ⟨.ok b, w', as'⟩) :
    ∃ now, (s.exec now w.vms).1 = .ok b ∧ w' = w.withVms (s.exec now w.vms).2 := by
  obtain ⟨a, hstep⟩ := stmt_outcome h
  exact ⟨a.now, onTable_ok hstep⟩

theorem stmt_releases {s : Stmt (Except Err β)} {w : World}
    (h : (ofCall s : Go Stmt β).outcome as w = ⟨r, w', as'⟩) (hs : s.Releases S) :
    Ownership.Releases S w.ownership w'.ownership := by
  obtain ⟨a, hstep⟩ := stmt_outcome h
  have hrel := Stmt.Releases.step hs a w
  rwa [hstep] at hrel

theorem commitMigrationTx_sound {mig : InstanceMigration} {ref : String}
    (hok : (commitMigrationTx mig inst vm ref ip port).outcome as w = ⟨.ok (), w', as'⟩)
    (hw : w.ownership.Sound legacy)
    (hsource : ∀ v, w.ownership.held mig.deploymentInstanceId = some v → w.ownership.live v →
      v = mig.sourceVmId) : w'.ownership.Sound legacy := by
  obtain ⟨v, w₀, as₀, hv, hok⟩ := outcome_bind_ok hok
  cases hv
  obtain ⟨newVM, w₁, as₁, hcreate, hok⟩ := outcome_bind_ok hok
  obtain ⟨_, w₂, as₂, hserver, hok⟩ := outcome_bind_ok hok
  obtain ⟨_, w₃, as₃, hattach, hok⟩ := outcome_bind_ok hok
  obtain ⟨_, w₄, as₄, hdelete, hok⟩ := outcome_bind_ok hok
  obtain ⟨_, w₅, as₅, hcompleted, hok⟩ := outcome_bind_ok hok
  cases hok
  obtain ⟨now₁, hres₁, rfl⟩ := vms_outcome_ok (context_ok.mp hcreate)
  obtain ⟨rfl, -⟩ := inserting_ok hres₁
  have hrel₂ := stmt_releases (S := fun _ => False) (context_ok.mp hserver) trivial
  obtain ⟨a₃, hstep₃⟩ := stmt_outcome (context_ok.mp hattach)
  obtain ⟨hres₃, rfl⟩ := instances_step_ok hstep₃
  have hrel₄ := stmt_releases (S := fun _ => False) (context_ok.mp hdelete) trivial
  have hrel₅ := stmt_releases (S := fun _ => False) (context_ok.mp hcompleted) trivial
  obtain ⟨now₄, -, rfl⟩ := vms_outcome_ok (context_ok.mp hdelete)
  -- the new row is not attached yet, and the source row may lose its instance
  have hnew : Unattached (fun x => x = mig.sourceVmId ∨ legacy x) _ w₂ :=
    ((createVM_unattached hw hres₁).keepsLinks hrel₂).mono fun _ => .inr
  have hattached := hnew.attach hres₃ fun x hx hlive => by
    have hold := (createVM_live hres₁ (hrel₂.live x hlive)).resolve_right fun heq =>
      hnew.nobody _ (hx.trans (congrArg some heq))
    exact .inl (hsource x (hrel₂.held_some hx) hold)
  have hdeleted := hattached.releases_free hrel₄ fun _ hs => hs.elim
  exact (hdeleted.retired softDelete_not_live).releases_free hrel₅ fun _ hs => hs.elim

theorem commitOnDestination_sound
    (hw : Ready legacy mig.deploymentInstanceId (some mig.sourceVmId) w) :
    LeavesSound legacy (commitOnDestination d mig) w := by
  refine hw.bind (.attempt (.ofCall trivial)) fun r w₁ hw₁ => ?_
  split
  · exact .keepsLinks (discard_uses (.ofCall trivial)) hw₁.sound
  · exact .keepsLinks (discard_uses (.ofCall trivial)) hw₁.sound
  next ip port sharedRootfsRef =>
    refine hw₁.bind (context_uses (.ofCall trivial)) fun inst w₂ hw₂ =>
      hw₂.bind (context_uses (.ofCall trivial)) fun vm w₃ hw₃ => ?_
    refine .bind (.ofTotal fun as _ => ?_) fun o w₄ hw₄ => ?_
    · rcases tx_state with
        hsame | ⟨v, hv, hstate⟩
      · rw [hsame]
        exact hw₃.sound
      · rw [hstate]
        rcases htx : (commitMigrationTx mig inst vm sharedRootfsRef ip port).outcome as w₃ with
          ⟨r, w', rest⟩
        obtain rfl : r = .ok v := by rw [← hv, htx]
        exact commitMigrationTx_sound htx hw₃.sound fun x hx hlive =>
          (Option.some.inj (hw₃.covers x hx hlive)).symm
    · split
      · exact .pure hw₄
      · exact .throw hw₄
      · exact .keepsLinks (.bind (discard_uses (.ofCall trivial)) fun _ => .throw) hw₄

end migration

/-! ## Any interleaving -/

/-- If the row of the instance refers to a live VM, it is `vmId`. -/
def World.covers (w : World) (i : Id) (vmId : Option Id) : Bool :=
  (linkOf w.instances i).all fun v => !w.liveVM v || vmId == some v

/-- The condition under which a step keeps every live VM row attached: the caller's row of the
instance is not outdated with regard to its VM, and an instance is released from its server only if
its VM is not live. -/
def Task.linkSafe (w : World) : Task β → Bool
  | .deleteInstancePermanently _ inst | .cleanupInstance _ inst | .repairInstance _ inst
  | .tryResumeFromSuspended _ _ inst _ | .resetStaleInstance _ _ inst _ =>
    w.covers inst.id inst.vmId
  | .reconcileInstanceServerAssignment _ dep inst vol =>
    w.covers inst.id inst.vmId && (w.covers inst.id none ||
      !(vol.isSome && w.pinnedElsewhere dep inst) &&
        (!w.onDrainingServer inst || isWarmPoolInstance inst || w.vmSuspended inst ||
          inst.status == .running))
  | .commitOnDestination _ mig => w.covers mig.deploymentInstanceId (some mig.sourceVmId)
  | _ => true

/-- Steps meet their condition, and the failures that they would ignore do not happen. -/
def linkGuard : Prog.Guard Action Answer World
  | _, .task t, as, w => t.linkSafe w = true ∧ Meets heedingGuard t.prog as w
  | _, _, _, _ => True

theorem ready_of_covers (hw : w.ownership.Sound legacy) (h : w.covers i vmId = true) :
    Ready legacy i vmId w := by
  refine ⟨hw, fun v hv hlive => ?_⟩
  have hheld : linkOf w.instances i = some v := hv
  have hlive' : w.liveVM v = true := hlive
  simpa [World.covers, hheld, hlive'] using h

theorem Task.sound (t : Task β) (hw : w.ownership.Sound legacy) (h : t.linkSafe w = true) :
    LeavesSound legacy t.prog w := by
  cases t with
  | deleteInstancePermanently d inst =>
    exact deleteInstancePermanently_sound (ready_of_covers hw h)
  | cleanupInstance d inst => exact cleanupInstance_sound (ready_of_covers hw h)
  | repairInstance d inst => exact repairInstance_sound (ready_of_covers hw h)
  | tryResumeFromSuspended d dep inst vol =>
    exact tryResumeFromSuspended_sound (ready_of_covers hw h)
  | resetStaleInstance d dep inst vol =>
    exact resetStaleInstance_sound (ready_of_covers hw h)
  | reconcileInstanceServerAssignment d dep inst vol =>
    rw [Task.linkSafe, Bool.and_eq_true, Bool.or_eq_true, Bool.and_eq_true] at h
    refine reconcileInstanceServerAssignment_sound (ready_of_covers hw h.1)
      (h.2.imp (fun hfree => (ready_of_covers hw hfree).free_of_none rfl) fun hstays => ?_)
    refine ⟨(Bool.not_eq_true' _).mp hstays.1, ?_⟩
    simpa [or_assoc] using hstays.2
  | assignServerIfNeeded dep inst vol =>
    exact .keepsLinks (assignServerIfNeeded_quiet.releases _) hw
  | startNewInstance d dep inst imageRef env ref src vol =>
    exact startNewInstance_sound hw
  | ensureInstanceCountUp d dep desired =>
    exact .keepsLinks (ensureInstanceCountUp_quiet.releases _) hw
  | ensureProjectVolumeServer vol =>
    exact .keepsLinks (ensureProjectVolumeServer_quiet.releases _) hw
  | recoverDeadServer s => exact recoverDeadServer_sound hw
  | detectDeadServer s => exact detectDeadServer_sound hw
  | commitOnDestination d mig => exact commitOnDestination_sound (ready_of_covers hw h)

theorem Action.exec_sound (a : Action β) (as : List Answer) (hw : w.ownership.Sound legacy)
    (h : linkGuard β a as w) :
    (Effect.exec a as w).state.ownership.Sound legacy := by
  have hkeep : ∀ op : Op β, op.KeepsLinks →
      (Prog.run (.lift op) as w).state.ownership.Sound legacy := fun op hop =>
    hw.releases_free (hop.exec as w) fun _ hs => hs.elim
  cases a with
  | task t => exact Ensures.outcome (t.sound hw h.1) h.2
  | _ => exact hkeep _ trivial

/-- Every live VM row that was created for an instance is the VM of exactly one undeleted
instance. -/
def LinkedOnce (legacy : Id → Prop) (w : World) : Prop :=
  ∀ v ∈ w.vms, v.undeleted = true → ¬legacy v.id →
    ∃! i, i ∈ w.instances ∧ i.undeleted = true ∧ i.vmId = some v.id

theorem held_iff {w : World} :
    w.ownership.held i = some v ↔
      ∃ r, w.instances.find? i = some r ∧ r.undeleted = true ∧ r.vmId = some v := by
  change linkOf w.instances i = some v ↔ _
  rw [linkOf]
  cases w.instances.find? i with
  | none => simp
  | some r => simp [DeploymentInstance.link]

theorem linkedOnce_of_sound (h : w.ownership.Sound legacy) : LinkedOnce legacy w := by
  intro v hv hlive hlegacy
  have hfind : w.vms.find? v.id = some v := Table.find?_of_mem hv
  have hlive' : w.liveVM v.id = true := by rw [World.liveVM, hfind]; exact hlive
  obtain ⟨i, hi⟩ := h.held_of_live v.id hlive' hlegacy
  obtain ⟨r, hr, hundeleted, hvm⟩ := held_iff.mp hi
  refine ⟨r, ⟨Table.mem_of_find? hr, hundeleted, hvm⟩, fun x hx => ?_⟩
  have hx' := held_iff.mpr ⟨x, Table.find?_of_mem hx.1, hx.2⟩
  exact Table.eq_of_key_eq hx.1 (Table.mem_of_find? hr)
    ((h.unshared x.id i v.id hx' hi).trans (Table.find?_key hr).symm)

theorem sound_of_rows {w : World} (hlinked : ∀ v ∈ w.vms.rows, v.undeleted = true →
      ∃ i ∈ w.instances.rows, i.undeleted = true ∧ i.vmId = some v.id)
    (hunshared : ∀ i ∈ w.instances.rows, ∀ j ∈ w.instances.rows, i.undeleted = true →
      j.undeleted = true → i.vmId.isSome = true → i.vmId = j.vmId → i.id = j.id)
    (hknown : ∀ i ∈ w.instances.rows, (i.vmId.all fun v => (w.vms.find? v).isSome) = true) :
    w.ownership.Sound fun _ => False where
  held_of_live v hv _ := by
    obtain ⟨x, hx, hlive⟩ := (Option.any_eq_true _ _).mp hv
    obtain ⟨i, hi, hu, hvm⟩ := hlinked x (Table.mem_of_find? hx) hlive
    refine ⟨i.id, held_iff.mpr ⟨i, Table.find?_of_mem hi, hu, ?_⟩⟩
    rw [hvm, Table.find?_key hx]
  unshared i j v hi hj := by
    obtain ⟨r, hr, hru, hrv⟩ := held_iff.mp hi
    obtain ⟨r', hr', hru', hrv'⟩ := held_iff.mp hj
    rw [← Table.find?_key hr, ← Table.find?_key hr']
    exact hunshared r (Table.mem_of_find? hr) r' (Table.mem_of_find? hr') hru hru'
      (Option.isSome_iff_exists.mpr ⟨v, hrv⟩) (hrv.trans hrv'.symm)
  known i v hi := by
    obtain ⟨r, hr, -, hrv⟩ := held_iff.mp hi
    have h := hknown r (Table.mem_of_find? hr)
    rwa [hrv] at h

/-- An instance that is starting on a draining server, and an active server besides. -/
def drainingServerWorld : World := { oneServerWorld with
    servers := (Table.single { id := 5, status := .draining }).put { id := 6 }
    deployments := .single newDeployment
    instances := .single { id := 20, deploymentId := 10, serverId := some 5, vmId := some 30, status := .starting }
    vms := .single { id := 30, serverId := 5, imageId := 4, status := .starting }
    running := [{ server := 5, inst := 20 }] }

instance : Decidable (heedingGuard β op as w) := inferInstanceAs (Decidable (_ = true))

instance : Decidable (linkGuard β a as w) := by
  induction a using Action.casesOn <;> first | exact instDecidableAnd | exact instDecidableTrue

/-- A deployment without instances. -/
def newDeploymentWorld : World :=
  { oneServerWorld with deployments := .single newDeployment }

end Kindling
