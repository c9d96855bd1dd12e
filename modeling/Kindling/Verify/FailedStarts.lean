import Kindling.Runtime.CloudHypervisor

/-!
# Failed starts of the cloud-hypervisor runtime

An instance is registered as soon as its process runs, before its guest is ready and its port is
bridged, and nobody takes the registration back if one of these fails.
-/

namespace Kindling

open Fallible

def HostStep.ofGuest : HostStep → Bool
  | waitForGuestReady | startBridgeHelper | writeBridgePid | waitForTCPPort => true
  | stat _ | exportImage | sharedDir | ensurePersistentVolumeDisk | startGuestVsockServer => false

def HostOp.awaitsGuest : HostOp β → Bool
  | step s => s.ofGuest
  | pickFreeTCPPort => true
  | _ => false

def HostOp.registers : HostOp β → Bool
  | register .. | unregister .. => true
  | _ => false

/-- Once its process has been started, a guest gets ready and its port is bridged. -/
def GuestComesUp : Prog.Guard HostOp RuntimeAnswer HostWorld := fun _ op as _ =>
  op.awaitsGuest = true → (as.headD default).fail = false

instance : Decidable (GuestComesUp β op as w) := inferInstanceAs (Decidable (_ → _))

theorem HostOp.instances_exec {op : HostOp β} (h : op.registers = false) (as : List RuntimeAnswer)
    (w : HostWorld) : (Effect.exec op as w).state.instances = w.instances := by
  have horFail : ∀ a w', w'.instances = w.instances →
      (w.orFail a w').2.instances = w.instances := by
    intro a w' h'
    unfold HostWorld.orFail
    split
    · rfl
    · exact h'
  change (HostOp.exec op (as.headD default) w).2.instances = w.instances
  cases op with
  | register | unregister => cases h
  | launch | writeVmPid | step | ensureDir | writeState => exact horFail _ _ rfl
  | makeDisk disk => cases disk <;> exact horFail _ _ rfl
  | removeDisk disk => cases disk <;> rfl
  | markSuspended id =>
    change (w.markSuspended id).2.instances = _
    unfold HostWorld.markSuspended
    split <;> rfl
  | stopTarget rt id =>
    change (w.stopTarget rt id).2.instances = _
    unfold HostWorld.stopTarget
    repeat' split
    all_goals rfl
  | resolveTemplate ref =>
    change (w.resolveTemplate ref).2.instances = _
    unfold HostWorld.resolveTemplate
    repeat' split
    all_goals rfl
  | buildInstance =>
    dsimp only [HostOp.exec]
    split <;> rfl
  | cleanupRuntimeArtifacts dir =>
    dsimp only [HostOp.exec]
    split <;> rfl
  | _ => rfl

/-! ## Calls that fail -/

/-- If the program fails, nothing is registered under the id just if nothing was before and the
guest came up, if it was started at all. -/
def FailsClean (id : Id) (p : Go HostOp α) : Prop := ∀ as w e, (p.outcome as w).value = .error e →
    ((p.outcome as w).state.instances id = none ↔ w.instances id = none ∧ Meets GuestComesUp p as w)

def HostOp.Early (β : Type) (op : HostOp β) : Prop := op.registers = false ∧ op.awaitsGuest = false

section
variable {p : Go HostOp α}

theorem instances_of_uses (h : Uses (fun _ op => op.registers = false) p) (as : List RuntimeAnswer)
    (w : HostWorld) : (p.outcome as w).state.instances = w.instances := by
  have hkept : Ensures Prog.unguarded p (fun _ w' => w'.instances = w.instances) w := h.ensures
      (fun _ op hop as w' hw' => (op.instances_exec hop as w').trans hw') rfl
  exact hkept.outcome (meets_unguarded p as w)

theorem early_meets (h : Uses HostOp.Early p) : Meets GuestComesUp p as w :=
  (h.complies (I := fun _ => True)
    (fun _ _ hop _ _ _ => ⟨fun hup => (Bool.false_ne_true (hop.2.symm.trans hup)).elim, trivial⟩)
    trivial).meets as

theorem early_instances (h : Uses HostOp.Early p) (as : List RuntimeAnswer) (w : HostWorld) :
    (p.outcome as w).state.instances = w.instances :=
  instances_of_uses (h.mono fun _ _ hop => hop.1) as w

theorem FailsClean.early {id : Id} (h : Uses HostOp.Early p) : FailsClean id p := by
  intro as w _ _
  rw [early_instances h]
  exact (and_iff_left (early_meets h)).symm

theorem FailsClean.early_bind {id : Id} (h : Uses HostOp.Early p) (hf : ∀ a, FailsClean id (f a)) :
    FailsClean id (p >>= f) := by
  intro as w e he
  rw [meets_bind, and_iff_right (early_meets h)]
  rw [outcome_bind] at he ⊢
  have hkept := early_instances h as w
  generalize hp : p.outcome as w = o at he hkept ⊢
  obtain ⟨r, w', rest⟩ := o
  cases r with
  | error e' =>
    dsimp only at hkept
    simp [hkept]
  | ok a =>
    have hfa := hf a rest w' e he
    dsimp only at hkept
    simp [hfa, hkept]

/-- What follows a call and cannot fail does not matter to its failures. -/
theorem FailsClean.bind_returns {id : Id} {f : α → Go HostOp β} (h : FailsClean id p)
    (hf : ∀ a as w, ∃ b, ((f a).outcome as w).value = .ok b) : FailsClean id (p >>= f) := by
  intro as w e he
  rw [outcome_bind] at he ⊢
  have hclean := h as w
  rw [meets_bind]
  generalize hp : p.outcome as w = o at he hclean ⊢
  obtain ⟨r, w', rest⟩ := o
  cases r with
  | error e' =>
    have := hclean e' rfl
    simpa using this
  | ok a =>
    obtain ⟨b, hb⟩ := hf a rest w'
    exact absurd (hb.symm.trans he) nofun

end

def Succeeds (p : Go HostOp α) : Prop := ∀ w, Ensures GuestComesUp p (fun r _ => ∃ a, r = .ok a) w

namespace Succeeds

theorem ofTotal : Succeeds (ofTotal op) := fun _ => .ofTotal fun _ _ => ⟨_, rfl⟩

theorem hostStep (h : s.ofGuest = true) : Succeeds (hostStep s) := by
  intro w
  refine .ofCall fun as hup => ⟨(), ?_⟩
  change (w.orFail (as.headD default) w).1 = .ok ()
  rw [HostWorld.orFail, hup h]
  rfl

theorem pickFreeTCPPort : Succeeds (ofCall .pickFreeTCPPort) := by
  intro w
  refine .ofCall fun as hup => ⟨(as.headD default).port, ?_⟩
  change (if (as.headD default).fail then Except.error (Err.of .runtime) else .ok _) = _
  rw [hup rfl]
  rfl

theorem bind (h : Succeeds p) (hf : ∀ a, Succeeds (f a)) : Succeeds (p >>= f) := fun w =>
  .bind (h w) (fun a w' _ => hf a w') fun _ _ ⟨_, he⟩ => nomatch he

theorem wrap (h : Succeeds p) : Succeeds (p.wrap f) := by
  intro w
  refine .wrap ((h w).mono ?_)
  rintro _ _ ⟨a, rfl⟩
  exact ⟨a, rfl⟩

theorem attempt_bind {p : Go HostOp α} (h : Succeeds p) (hf : ∀ a, Succeeds (f (.ok a))) :
    Succeeds (p.attempt >>= f) := by
  intro w
  refine .attempt_bind (h w) ?_
  rintro _ w' ⟨a, rfl⟩
  exact hf a w'

theorem pure : Succeeds (Pure.pure a) := fun _ => .pure ⟨a, rfl⟩

theorem cleaningUp (h : Succeeds p) :
    Succeeds (cleaningUp cleanup p) := h.attempt_bind fun _ => .pure

end Succeeds

namespace CloudHypervisorRuntime
variable (r : CloudHypervisorRuntime)

/-! ### Before the registration -/

attribute [local simp] HostOp.Early HostOp.registers HostOp.awaitsGuest HostStep.ofGuest hostStep

theorem prepareVM_early : Uses HostOp.Early (prepareVM inst workDir workDisk) := by
  simp [prepareVM, launchCHProcess]

@[simp] theorem newDisk_early (inst : Id) (workDir : Dir) : Uses HostOp.Early (r.newDisk inst workDir) := by
  simp [newDisk]

theorem fillWorkDir_early (inst : RuntimeInstance) (workDir : Dir) :
    Uses HostOp.Early (r.fillWorkDir inst workDir) := by
  simp [fillWorkDir]

/-! ### After the registration -/

theorem startHostBridgeForPort_succeeds (ai hostPort : Nat) :
    Succeeds (r.startHostBridgeForPort ai hostPort) := by
  obtain ⟨ip, hip⟩ := applyAdvertisedHost_wildcard
  unfold startHostBridgeForPort
  rw [hip]
  exact .bind (.wrap (.hostStep rfl)) fun _ => .bind (.wrap (.hostStep rfl)) fun _ =>
    .bind (.wrap (.hostStep rfl)) fun _ => .ofTotal

theorem allocateHostBridge_succeeds (ai n : Nat) :
    Succeeds (r.allocateHostBridge ai (n + 1) none) :=
  .bind (.wrap .pickFreeTCPPort) fun hostPort => .bind .ofTotal fun _ =>
    .attempt_bind (r.startHostBridgeForPort_succeeds ai hostPort) fun _ => .pure

theorem setupHostBridge_succeeds (ai requestedHostPort : Nat) :
    Succeeds (r.setupHostBridge ai requestedHostPort) := by
  unfold setupHostBridge
  split
  · exact .bind .ofTotal fun _ =>
      .attempt_bind (r.startHostBridgeForPort_succeeds ai requestedHostPort) fun _ => .pure
  · exact r.allocateHostBridge_succeeds ai 2

theorem awaitGuest_succeeds (inst : Id) (ai requestedHostPort : Nat) :
    Succeeds (r.awaitGuest inst ai requestedHostPort) :=
  .bind (.wrap (.cleaningUp (.hostStep rfl))) fun _ =>
    .bind (.cleaningUp (r.setupHostBridge_succeeds ai requestedHostPort)) fun _ => .ofTotal

theorem startHostBridgeForPort_quiet (ai hostPort : Nat) :
    Uses (fun _ op => op.registers = false) (r.startHostBridgeForPort ai hostPort) := by
  unfold startHostBridgeForPort
  split
  · exact .throw
  · exact .bind (.wrap (.ofCall rfl)) fun _ => .bind (.wrap (.ofCall rfl)) fun _ =>
      .bind (.wrap (.ofCall rfl)) fun _ => .ofTotal rfl

theorem allocateHostBridge_quiet (ai n : Nat) (lastErr : Option Err) :
    Uses (fun _ op => op.registers = false) (r.allocateHostBridge ai n lastErr) := by
  induction n generalizing lastErr with
  | zero => cases lastErr with
    | none => exact .pure
    | some => exact .throw
  | succ n ih =>
    refine .bind (.wrap (.ofCall rfl)) fun hostPort => .bind (.ofTotal rfl) fun _ =>
      .bind (r.startHostBridgeForPort_quiet ai hostPort).attempt fun res => ?_
    cases res with
    | ok => exact .pure
    | error e => exact ih (some e)

theorem setupHostBridge_quiet (ai requestedHostPort : Nat) :
    Uses (fun _ op => op.registers = false) (r.setupHostBridge ai requestedHostPort) := by
  unfold setupHostBridge
  split
  · refine .bind (.ofTotal rfl) fun _ =>
      .bind (r.startHostBridgeForPort_quiet ai requestedHostPort).attempt fun res => ?_
    cases res with
    | ok => exact .pure
    | error => exact r.allocateHostBridge_quiet ai _ none
  · exact r.allocateHostBridge_quiet ai _ none

theorem awaitGuest_quiet (inst : Id) (ai requestedHostPort : Nat) :
    Uses (fun _ op => op.registers = false) (r.awaitGuest inst ai requestedHostPort) := by
  refine .bind (.wrap (.cleaningUp (.ofTotal rfl) (.ofCall rfl))) fun _ => ?_
  refine .bind (.cleaningUp ?_ (r.setupHostBridge_quiet ai requestedHostPort)) fun _ => .ofTotal rfl
  exact .bind (.ofTotal rfl) fun _ => .ofTotal rfl

theorem startPreparedVM_failsClean (inst : Id) (workDir : Dir) (workDisk : VmDisk)
    (requestedHostPort : Nat) :
    FailsClean inst (r.startPreparedVM inst workDir workDisk requestedHostPort) := by
  refine .early_bind prepareVM_early fun ai => ?_
  intro as w e he
  have hregistered : ((ofTotal (.register inst ai) >>= fun _ =>
      r.awaitGuest inst ai requestedHostPort : Go HostOp (List Char)).outcome as w).state.instances
        inst = some ai := by
    rw [outcome_bind, outcome_ofTotal, andThen_ok, instances_of_uses (r.awaitGuest_quiet ..)]
    exact Function.update_self ..
  refine iff_of_false (by rw [hregistered]; nofun) ?_
  rintro ⟨-, hup⟩
  have hall := (@Succeeds.ofTotal _ (.register inst ai)).bind fun _ =>
    r.awaitGuest_succeeds inst ai requestedHostPort
  obtain ⟨ip, hip⟩ := (hall w).outcome hup
  exact nomatch hip.symm.trans he

theorem startVM_failsClean (inst : RuntimeInstance) : FailsClean inst.id (r.startVM inst) :=
  .early_bind (.ofTotal ⟨rfl, rfl⟩) fun _ => .early_bind (.ofTotal ⟨rfl, rfl⟩) fun _ =>
    .early_bind (.ofTotal ⟨rfl, rfl⟩) fun _ => .early_bind (.wrap (.ofCall ⟨rfl, rfl⟩)) fun _ =>
    .early_bind (.cleaningUp (.ofTotal ⟨rfl, rfl⟩) (r.fillWorkDir_early inst _)) fun workDisk =>
    r.startPreparedVM_failsClean inst.id _ workDisk 0

theorem start_failsClean (inst : RuntimeInstance) : FailsClean inst.id (r.start inst) :=
  .early_bind (.wrap (.ofCall ⟨rfl, rfl⟩)) fun _ =>
    .early_bind (.wrap (.ofCall ⟨rfl, rfl⟩)) fun _ =>
    .early_bind (.wrap (.ofCall ⟨rfl, rfl⟩)) fun _ => r.startVM_failsClean inst

theorem startClone_failsClean (inst : RuntimeInstance) (snapshotRef : Option Dir)
    (cloneSourceVMID : Id) :
    FailsClean inst.id (r.startClone inst snapshotRef cloneSourceVMID) := by
  refine .early_bind (.ofTotal ⟨rfl, rfl⟩) fun tmpl => ?_
  cases tmpl with
  | none => exact .early .throw
  | some _ =>
    refine .early_bind (.ofTotal ⟨rfl, rfl⟩) fun _ => .early_bind (.ofCall ⟨rfl, rfl⟩) fun _ =>
      .early_bind (r.newDisk_early inst.id _) fun workDisk =>
      .early_bind (.ofTotal ⟨rfl, rfl⟩) fun _ => .early_bind (.ofCall ⟨rfl, rfl⟩) fun _ => ?_
    exact (r.startPreparedVM_failsClean inst.id _ workDisk 0).bind_returns fun _ _ _ => ⟨_, rfl⟩

theorem resume_failsClean (id : Id) : FailsClean id (r.resume id) := by
  have hload : Uses HostOp.Early (loadCloudHypervisorSuspendedState (.state id)) := by
    refine .bind (.ofCall ⟨rfl, rfl⟩) fun s => ?_
    cases s with
    | none => exact .throw
    | some s => exact .pure
  have hstart : ∀ s : SuspendedVm, FailsClean id (do
      let ip ← r.startPreparedVM id s.workDir s.workDisk s.hostPort
      ofTotal (.removeState s.workDir)
      return ip) := fun s =>
    (r.startPreparedVM_failsClean id _ _ _).bind_returns fun _ _ _ => ⟨_, rfl⟩
  refine .early_bind (.ofTotal ⟨rfl, rfl⟩) fun s => ?_
  cases s with
  | some s => exact hstart s
  | none => exact .early_bind hload hstart

end CloudHypervisorRuntime

inductive StartCall
  | start (inst : RuntimeInstance)
  | resume (id : Id)
  | startClone (inst : RuntimeInstance) (snapshotRef : Option Dir) (cloneSourceVMID : Id)

namespace StartCall

def id : StartCall → Id
  | start inst | startClone inst _ _ => inst.id
  | resume id => id

def run (r : CloudHypervisorRuntime) : StartCall → Go HostOp (List Char)
  | start inst => r.start inst
  | resume id => r.resume id
  | startClone inst snapshotRef cloneSourceVMID => do
    return (← r.startClone inst snapshotRef cloneSourceVMID).1

theorem run_failsClean (r : CloudHypervisorRuntime) (c : StartCall) :
    FailsClean c.id (c.run r) := by
  cases c with
  | start inst => exact r.start_failsClean inst
  | resume id => exact r.resume_failsClean id
  | startClone inst ref src =>
    exact (r.startClone_failsClean inst ref src).bind_returns fun _ _ _ => ⟨_, rfl⟩

end StartCall

theorem HostWorld.healthy_of_unregistered {w : HostWorld} {id : Id} (h : w.instances id = none) :
    w.healthy id = false := by rw [healthy, h, Option.any_none]

/-- **Failed starts.** Let a start, a resume or a clone return an error. Then its instance is not
registered and not healthy just if it was not registered before the call and none of the steps
failed that follow its registration. -/
theorem failed_start_unregistered_iff (r : CloudHypervisorRuntime) (c : StartCall)
    (as : List RuntimeAnswer) (w : HostWorld) (e : Err)
    (he : ((c.run r).outcome as w).value = .error e) :
    (((c.run r).outcome as w).state.instances c.id = none ∧
        ((c.run r).outcome as w).state.healthy c.id = false) ↔
      w.instances c.id = none ∧ Meets GuestComesUp (c.run r) as w := by
  rw [and_iff_left_of_imp HostWorld.healthy_of_unregistered]
  exact c.run_failsClean r as w e he

def sampleCloudHypervisor : CloudHypervisorRuntime where
  binaryPath := "/usr/local/bin/cloud-hypervisor"
  kernelPath := "/data/vmlinux-ch.bin"
  initramfsPath := "/data/initramfs.cpio.gz"

def sampleStart : StartCall :=
  .start { id := 1, imageRef := "", env := [], persistentVolume := none }

theorem missing_kernel_unregistered :
    let o := (sampleStart.run sampleCloudHypervisor).outcome [{}, { fail := true }] {}
    o.state.instances 1 = none ∧ o.state.healthy 1 = false :=
  (failed_start_unregistered_iff sampleCloudHypervisor sampleStart [{}, { fail := true }] {}
    _ rfl).mpr ⟨rfl, by decide +kernel⟩

/-- The guest never gets ready. The start fails, and its instance is healthy. -/
theorem unready_guest_healthy :
    let o := (sampleStart.run sampleCloudHypervisor).outcome
      (List.replicate 18 default ++ [{ fail := true }]) {}
    o.value = .error ((Err.of .runtime).wrap "wait for guest ready") ∧
      o.state.instances 1 = some 0 ∧ o.state.healthy 1 = true := by
  decide +kernel

end Kindling
