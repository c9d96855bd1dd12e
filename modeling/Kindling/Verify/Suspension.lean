import Kindling.Runtime.CloudHypervisor
import Kindling.Runtime.Crun

/-!
# Suspended instances

`Suspend` marks an instance and then stops it, in two sections under the lock. If the process ends
by itself in between, `Stop` deletes the entry and the disk of the suspended instance.
-/

namespace Kindling

open Fallible

variable {dir : Dir} {w : HostWorld}

namespace LinuxRuntime

def suspend : LinuxRuntime → Id → Go HostOp Unit
  | cloudHypervisor, id => CloudHypervisorRuntime.suspend id
  | crun, id => CrunRuntime.suspend id

def suspending (rt : LinuxRuntime) (id : Id) : Go HostOp Unit := do
  rt.suspend id
  ofTotal (.returned id)

/-- The goroutine that waits for the process of an instance. -/
def watch (rt : LinuxRuntime) (id : Id) (vm : Nat) (v : SuspendedVm) : Go HostOp Unit :=
  match rt with
  | cloudHypervisor => CloudHypervisorRuntime.waitCH id vm v.workDir
  | crun => CrunRuntime.waitCrun id vm v.workDir v.ociDir

end LinuxRuntime

inductive SuspendActor
  | suspend (id : Id)
  | watcher (vm : Nat)
  | guest (vm : Nat)
  deriving DecidableEq, Repr

abbrev SuspendTeam := Team SuspendActor HostOp (Except Err Unit) HostWorld

/-- Each instance has one call of `Suspend` at a time. Each instance that is registered at first has
a goroutine that waits for it, and any process can end at any time. -/
def suspendStarts (rt : LinuxRuntime) (w₀ : HostWorld) :
    SuspendActor → Prog HostOp (Except Err Unit) → Prop
  | .suspend id, p => p = rt.suspending id
  | .watcher vm, p => ∃ id, w₀.instances id = some vm ∧ p = rt.watch id vm (w₀.vms vm).toSuspendedVm
  | .guest vm, p => p = (ofTotal (.exit vm) : Go HostOp Unit)

/-- The directories and the disk of a suspended instance are its own. -/
structure SuspendedVm.PlacedAt (id : Id) (s : SuspendedVm) : Prop where
  workDir : s.workDir = .state id ∨ s.workDir = .bundle id
  ociDir : ∀ dir, s.ociDir = some dir → dir = .oci id
  workDisk : s.workDisk = .file s.workDir ∨ s.workDisk = .shared id

def Dir.owner : Dir → Id
  | state id | runtime id | template id | bundle id | oci id => id

/-- A directory in which there can be the disk of an instance that is suspended. -/
def Dir.lasting : Dir → Bool
  | state _ | bundle _ => true
  | runtime _ | template _ | oci _ => false

/-- A directory that is deleted with an instance. -/
inductive SuspendedVm.Discards (id : Id) (s : SuspendedVm) : Dir → Prop
  | workDir : s.Discards id s.workDir
  | ociDir {dir : Dir} (h : s.ociDir = some dir) : s.Discards id dir
  | template : s.Discards id (.template id)

/-- Registered instances are kept under their own ids and in their own directories, and the
goroutines that wait for them have not ended. No call of `Suspend` has returned yet. -/
structure HostWorld.Launched (w : HostWorld) : Prop where
  inst : ∀ id vm, w.instances id = some vm → (w.vms vm).inst = id
  placed : ∀ id vm, w.instances id = some vm → (w.vms vm).toSuspendedVm.PlacedAt id
  stopped : ∀ id vm, w.instances id = some vm → (w.vms vm).stopped = false
  returned : w.returned = []

theorem HostWorld.Launched.inj (h : w.Launched) {id id' : Id}
    (hid : w.instances id = some vm) (hid' : w.instances id' = some vm) : id = id' :=
  (h.inst id vm hid).symm.trans (h.inst id' vm hid')

namespace SuspendedVm
variable {id : Id} {s : SuspendedVm} {dir : Dir}

theorem PlacedAt.owner (hs : s.PlacedAt id) (hdir : s.Discards id dir) : dir.owner = id := by
  cases hdir with
  | workDir =>
    rcases hs.workDir with h | h
    · rw [h]; rfl
    · rw [h]; rfl
  | ociDir h => rw [hs.ociDir _ h]; rfl
  | template => rfl

/-- The disk goes only with a directory of its own instance. -/
theorem PlacedAt.hasDisk_removeAll (hs : s.PlacedAt id)
    (hdisk : w.hasDisk s.workDisk = true) (hdir : dir.lasting = false ∨ dir.owner ≠ id) :
    ({ w with dirs := Function.update w.dirs dir none } : HostWorld).hasDisk s.workDisk = true := by
  rcases hs.workDisk with h | h
  · rw [h] at hdisk ⊢
    have hne : s.workDir ≠ dir := by
      rintro rfl
      rcases hs.workDir with h | h
      · rw [h] at hdir
        exact hdir.elim nofun fun hne => hne rfl
      · rw [h] at hdir
        exact hdir.elim nofun fun hne => hne rfl
    simpa [HostWorld.hasDisk, Function.update_of_ne hne] using hdisk
  · rw [h] at hdisk ⊢
    exact hdisk

end SuspendedVm

/-! ## Stages -/

/-- How far a call of `Suspend` or a waiting goroutine is. -/
inductive SuspendStage
  | start
  /-- The instance is marked, and `Stop` has not looked for it. -/
  | marked (vm : Nat)
  | handed (vm : Nat)
  /-- The goroutine of the instance has ended. -/
  | ended
  /-- The instance was not registered. -/
  | absent
  /-- The entry is deleted after the context was done. -/
  | dropped (s : Option SuspendedVm)
  /-- The goroutine has unregistered the instance. -/
  | unregistered (retain : Bool)

namespace SuspendStage

/-- The call counts on the entry and the disk. -/
def holds : SuspendStage → Bool
  | marked _ | handed _ | ended | absent => true
  | start | dropped _ | unregistered _ => false

/-- The call has found the instance running. -/
def waitsFor : SuspendStage → Option Nat
  | marked vm | handed vm => some vm
  | _ => none

def next : SuspendStage → HostOp β → β → SuspendStage
  | _, .markSuspended _, none => absent
  | _, .markSuspended _, some (vm, _) => marked vm
  | marked vm, .stopTarget _ _, _ => handed vm
  | _, .awaitStopped _, .ok _ => ended
  | _, .dropSuspended _ _, s => dropped s
  | _, .unregister _ _ _, retain => unregistered retain
  | m, _, _ => m

/-- The calls of each program. -/
def allows (rt : LinuxRuntime) (w₀ : HostWorld) : SuspendActor → SuspendStage → HostOp β → Prop
  | .suspend id, _, .markSuspended id' => id' = id
  | .suspend id, m, .stopTarget _ id' => id' = id ∧ ∃ vm, m = marked vm
  | .suspend _, m, .awaitStopped vm => m = handed vm
  | .suspend id, m, .dropSuspended id' vm => id' = id ∧ m = handed vm
  | .suspend _, m, .removeAll dir => ∃ s : SuspendedVm, m = dropped (some s) ∧
    (dir = s.workDir ∨ s.ociDir = some dir)
  | .suspend id, m, .returned id' => id' = id ∧ (m = ended ∨ m = absent)
  | .suspend _, _, .cancel _ | .suspend _, _, .suspendedEntry _ | .suspend _, _, .ensureDir _
  | .suspend _, _, .writeState _ _ => True
  | .watcher vm, _, .unregister rt' id vm' => rt' = rt ∧ vm' = vm ∧ w₀.instances id = some vm
  | .watcher vm, m, .removeAll dir => ∃ id, w₀.instances id = some vm ∧ (dir = .runtime id ∨
    m = unregistered false ∧ (w₀.vms vm).Discards id dir)
  | .watcher vm, m, .closeStopped vm' => vm' = vm ∧ ∃ retain, m = unregistered retain
  | .watcher _, _, .wait _ | .watcher _, _, .cleanupRuntimeArtifacts _ => True
  | .guest _, _, .exit _ => True
  | _, _, _ => False

/-- `Stop` finds the instance running. -/
def possible : HostOp β → β → Prop
  | .stopTarget _ _, r => ∃ vm, r = .running vm
  | _, _ => True

end SuspendStage

@[simps] def suspendStages (rt : LinuxRuntime) (w₀ : HostWorld) (i : SuspendActor) :
    Typestate HostOp SuspendStage :=
  ⟨.start, SuspendStage.allows rt w₀ i, fun _ => SuspendStage.possible, SuspendStage.next⟩

section programs
variable {rt : LinuxRuntime} {w₀ : HostWorld} {id : Id} {vm : Nat}

variable {m : SuspendStage}

attribute [local simp] SuspendStage.allows.eq_def SuspendStage.possible.eq_def SuspendStage.next.eq_def
  Except.mapError

attribute [local simp ↓] Option.forall

theorem chSuspend_follows :
    (suspendStages .cloudHypervisor w₀ (.suspend id)).Follows (CloudHypervisorRuntime.suspend id)
      (fun r m => r = .ok () → m = .ended ∨ m = .absent) .start := by
  simp [CloudHypervisorRuntime.suspend, CloudHypervisorRuntime.stop,
    CloudHypervisorRuntime.persistCloudHypervisorSuspendedState]

theorem crunSuspend_follows :
    (suspendStages .crun w₀ (.suspend id)).Follows (CrunRuntime.suspend id)
      (fun r m => r = .ok () → m = .ended ∨ m = .absent) .start := by
  simp [CrunRuntime.suspend, CrunRuntime.stop]
  intro e s
  cases h : s.ociDir <;> simp [CrunRuntime.removeContainer, h]

theorem suspending_follows :
    (suspendStages rt w₀ (.suspend id)).Follows (rt.suspending id) (fun _ _ => True) .start := by
  have hsuspend : (suspendStages rt w₀ (.suspend id)).Follows (rt.suspend id)
      (fun r m => r = .ok () → m = .ended ∨ m = .absent) .start := by
    cases rt with
    | cloudHypervisor => exact chSuspend_follows
    | crun => exact crunSuspend_follows
  exact .andThen hsuspend (fun _ _ h => .ofTotal ⟨rfl, h rfl⟩ fun _ _ => trivial)

theorem watch_follows (hvm : w₀.instances id = some vm) :
    (suspendStages rt w₀ (.watcher vm)).Follows (rt.watch id vm (w₀.vms vm).toSuspendedVm)
      (fun _ _ => True) .start := by
  cases rt with
  | cloudHypervisor =>
    simp [LinuxRuntime.watch, CloudHypervisorRuntime.waitCH, hvm]
    exact ⟨⟨id, hvm, .inr .workDir⟩, id, hvm, .template⟩
  | crun =>
    cases h : (w₀.vms vm).ociDir <;>
      simp [LinuxRuntime.watch, CrunRuntime.waitCrun, CrunRuntime.removeContainer, hvm, h]
    · exact ⟨id, hvm, .inr .workDir⟩
    · exact ⟨⟨id, hvm, .inr .workDir⟩, id, hvm, .inr (.ociDir h)⟩

theorem suspendStarts_follow (i : SuspendActor) (p : Prog HostOp (Except Err Unit))
    (hp : suspendStarts rt w₀ i p) : (suspendStages rt w₀ i).Admits p (fun _ _ => True) .start := by
  cases i with
  | suspend id =>
    cases hp
    exact suspending_follows
  | watcher vm =>
    obtain ⟨id, hvm, rfl⟩ := hp
    exact watch_follows hvm
  | guest vm =>
    cases hp
    exact ⟨trivial, fun _ _ => trivial⟩

end programs

/-! ## The invariant -/

structure Kept (w₀ : HostWorld) (W : Nat → SuspendStage) (w : HostWorld) (id : Id)
    (s : SuspendedVm) : Prop where
  entry : w.suspended id = some s
  placed : s.PlacedAt id
  disk : w.hasDisk s.workDisk = true
  retained : ∀ vm, w₀.instances id = some vm → (w.vms vm).retain = true ∧ W vm ≠ .unregistered false

structure CallInv (w₀ : HostWorld) (W : Nat → SuspendStage) (w : HostWorld) (id : Id)
    (m : SuspendStage) : Prop where
  kept : id ∈ w.returned ∨ m.holds = true → ∃ s, Kept w₀ W w id s
  returned : id ∈ w.returned → w.instances id = none ∧ (m = .start ∨ m = .ended ∨ m = .absent)
  waits : ∀ vm, m.waitsFor = some vm → w₀.instances id = some vm
  vacated : m = .ended ∨ m = .absent → w.instances id = none
  dropped : ∀ s, m = .dropped (some s) → s.PlacedAt id

/-- What ties the stages `S` of the calls of `Suspend` and the stages `W` of the waiting goroutines
to the state, in a run from `w₀`. -/
structure SuspendInv (w₀ : HostWorld) (S : Id → SuspendStage) (W : Nat → SuspendStage)
    (w : HostWorld) : Prop where
  records : ∀ vm, (w.vms vm).toSuspendedVm = (w₀.vms vm).toSuspendedVm
  registered : ∀ id vm, w.instances id = some vm → w₀.instances id = some vm
  gone : ∀ id vm, w₀.instances id = some vm →
    (∃ retain, W vm = .unregistered retain) ∨ (w.vms vm).stopped = true → w.instances id = none
  calls : ∀ id, CallInv w₀ W w id (S id)

theorem HostWorld.Launched.suspendInv (h : w₀.Launched) :
    SuspendInv w₀ (fun _ => .start) (fun _ => .start) w₀ where
  records _ := rfl
  registered _ _ := id
  gone id vm hvm := by
    rintro (⟨_, hstage⟩ | hstopped)
    · cases hstage
    · rw [h.stopped id vm hvm] at hstopped
      cases hstopped
  calls id := by
    have hnone : id ∉ w₀.returned := by
      rw [h.returned]
      exact List.not_mem_nil
    exact ⟨fun hid => hid.elim (absurd · hnone) nofun, (absurd · hnone), nofun,
      fun hover => hover.elim nofun nofun, nofun⟩

section frames
variable {w₀ w w' : HostWorld} {S : Id → SuspendStage} {W W' : Nat → SuspendStage} {id : Id}
  {m : SuspendStage}

theorem HostWorld.of_changeVm (w : HostWorld) {g : HostVm → α} {vm : Nat} {f : HostVm → HostVm}
    (hf : g (f (w.vms vm)) = g (w.vms vm)) (vm' : Nat) :
    g ((w.changeVm vm f).vms vm') = g (w.vms vm') := by
  by_cases hne : vm' = vm
  · subst hne
    rw [vms_changeVm_self, hf]
  · rw [w.vms_changeVm_of_ne hne]

/-- A change of a directory that leaves its disk alone. -/
theorem HostWorld.hasDisk_update
    (hc : (w.dirs dir).any (·.disk) = true → c.any (·.disk) = true) (hd : w.hasDisk d = true) :
    ({ w with dirs := Function.update w.dirs dir c } : HostWorld).hasDisk d = true := by
  cases d with
  | shared id => exact hd
  | file dir' =>
    by_cases hdir : dir' = dir
    · subst hdir
      simpa [hasDisk] using hc hd
    · simpa [hasDisk, Function.update_of_ne hdir] using hd

theorem CallInv.frame (h : CallInv w₀ W w id m) (hreturned : id ∈ w'.returned → id ∈ w.returned)
    (hinstances : w.instances id = none → w'.instances id = none)
    (hkept : ∀ s, id ∈ w.returned ∨ m.holds = true → Kept w₀ W w id s → Kept w₀ W' w' id s) :
    CallInv w₀ W' w' id m where
  kept hid := by
    have hid := hid.imp_left hreturned
    obtain ⟨s, hs⟩ := h.kept hid
    exact ⟨s, hkept s hid hs⟩
  returned hid := (h.returned (hreturned hid)).imp_left hinstances
  waits := h.waits
  vacated hover := hinstances (h.vacated hover)
  dropped := h.dropped

/-- A state that differs only in what the invariant does not look at. -/
theorem SuspendInv.congr (h : SuspendInv w₀ S W w)
    (hvms : ∀ vm, (w'.vms vm).toSuspendedVm = (w.vms vm).toSuspendedVm ∧
      (w'.vms vm).retain = (w.vms vm).retain ∧ (w'.vms vm).stopped = (w.vms vm).stopped)
    (hinstances : w'.instances = w.instances) (hsuspended : w'.suspended = w.suspended)
    (hreturned : w'.returned = w.returned)
    (hdisk : ∀ id s, id ∈ w.returned ∨ (S id).holds = true → Kept w₀ W w id s →
      w'.hasDisk s.workDisk = true) : SuspendInv w₀ S W w' where
  records vm := (hvms vm).1.trans (h.records vm)
  registered := hinstances ▸ h.registered
  gone id vm hvm hgone := by
    rw [(hvms vm).2.2] at hgone
    rw [hinstances]
    exact h.gone id vm hvm hgone
  calls id := by
    refine (h.calls id).frame (hreturned ▸ fun h => h) (hinstances ▸ fun h => h) fun s hid hs => ?_
    refine ⟨hsuspended ▸ hs.entry, hs.placed, hdisk id s hid hs, fun vm hvm => ?_⟩
    rw [(hvms vm).2.1]
    exact hs.retained vm hvm

theorem SuspendInv.records_changeVm (h : SuspendInv w₀ S W w) (vm : Nat) (f : HostVm → HostVm)
    (hf : (f (w.vms vm)).toSuspendedVm = (w.vms vm).toSuspendedVm) (vm' : Nat) :
    ((w.changeVm vm f).vms vm').toSuspendedVm = (w₀.vms vm').toSuspendedVm :=
  (w.of_changeVm hf vm').trans (h.records vm')

theorem SuspendInv.gone_changeVm (h : SuspendInv w₀ S W w) (vm : Nat) (f : HostVm → HostVm)
    (hf : (f (w.vms vm)).stopped = (w.vms vm).stopped) (id : Id) (vm' : Nat)
    (hvm' : w₀.instances id = some vm') (hgone : (∃ retain, W vm' = .unregistered retain) ∨
      ((w.changeVm vm f).vms vm').stopped = true) : w.instances id = none :=
  h.gone id vm' hvm' (hgone.imp_right (w.of_changeVm hf vm').symm.trans)

theorem SuspendInv.changeProcess (h : SuspendInv w₀ S W w) (vm : Nat)
    (f : Option Process → Option Process) :
    SuspendInv w₀ S W (w.changeVm vm fun v => { v with cmd := f v.cmd }) :=
  h.congr (fun vm' => ⟨w.of_changeVm rfl vm', w.of_changeVm rfl vm', w.of_changeVm rfl vm'⟩)
    rfl rfl rfl fun _ _ _ hs => hs.disk

theorem SuspendInv.updateDir (h : SuspendInv w₀ S W w)
    (hc : (w.dirs dir).any (·.disk) = true → c.any (·.disk) = true) :
    SuspendInv w₀ S W { w with dirs := Function.update w.dirs dir c } :=
  h.congr (fun _ => ⟨rfl, rfl, rfl⟩) rfl rfl rfl fun _ _ _ hs =>
    HostWorld.hasDisk_update hc hs.disk

theorem SuspendInv.changeDir (h : SuspendInv w₀ S W w) (dir : Dir) (hf : ∀ c, (f c).disk = c.disk) :
    SuspendInv w₀ S W (w.changeDir dir f) := by
  refine h.updateDir fun hdisk => ?_
  rw [Option.any_map]
  simpa [hf] using hdisk

theorem SuspendInv.removeAll (h : SuspendInv w₀ S W w)
    (hdir : ∀ id s, id ∈ w.returned ∨ (S id).holds = true → Kept w₀ W w id s →
      dir.lasting = false ∨ dir.owner ≠ id) :
    SuspendInv w₀ S W { w with dirs := Function.update w.dirs dir none } :=
  h.congr (fun _ => ⟨rfl, rfl, rfl⟩) rfl rfl rfl fun id s hid hs =>
    hs.placed.hasDisk_removeAll hs.disk (hdir id s hid hs)

theorem SuspendInv.advance (h : SuspendInv w₀ S W w) (hm : CallInv w₀ W w id m) :
    SuspendInv w₀ (Function.update S id m) W w :=
  ⟨h.records, h.registered, h.gone, (Function.forall_update_iff S fun id m =>
    CallInv w₀ W w id m).mpr ⟨hm, fun id' _ => h.calls id'⟩⟩

theorem CallInv.start (h : CallInv w₀ W w id m) : CallInv w₀ W w id .start where
  kept hid := h.kept (hid.imp_right nofun)
  returned hid := ⟨(h.returned hid).1, .inl rfl⟩
  waits := nofun
  vacated hover := hover.elim nofun nofun
  dropped := nofun

end frames

/-! ## The sections of `Suspend` -/

section suspend
variable {w₀ w : HostWorld} {S : Id → SuspendStage} {W : Nat → SuspendStage} {id : Id} {vm : Nat}

theorem SuspendInv.mark (hw₀ : w₀.Launched) (h : SuspendInv w₀ S W w)
    (hvm : w.instances id = some vm) (hdisk : w.hasDisk (w.vms vm).workDisk = true) :
    SuspendInv w₀ (Function.update S id (.marked vm)) W (w.markSuspended id).2 := by
  have hvm₀ := h.registered id vm hvm
  have hstate : (w.markSuspended id).2 = { w.changeVm vm ({ · with retain := true }) with
      suspended := Function.update w.suspended id (some (w.vms vm).toSuspendedVm) } := by
    rw [HostWorld.markSuspended, hvm]
  have hretain : ∀ vm', vm' = vm ∨ (w.vms vm').retain = true →
      ((w.changeVm vm ({ · with retain := true })).vms vm').retain = true := by
    intro vm' hvm'
    by_cases hne : vm' = vm
    · rw [hne, w.vms_changeVm_self]
    · rw [w.vms_changeVm_of_ne hne]
      exact hvm'.resolve_left hne
  rw [hstate]
  refine ⟨h.records_changeVm vm ({ · with retain := true }) rfl, h.registered,
    h.gone_changeVm vm ({ · with retain := true }) rfl, ?_⟩
  refine (Function.forall_update_iff S fun id m => CallInv w₀ W _ id m).mpr ⟨?_, fun id' hne => ?_⟩
  · have hkept : Kept w₀ W { w.changeVm vm ({ · with retain := true }) with
        suspended := Function.update w.suspended id (some (w.vms vm).toSuspendedVm) } id
        (w.vms vm).toSuspendedVm := by
      refine ⟨Function.update_self .., ?_, hdisk, ?_⟩
      · rw [h.records vm]
        exact hw₀.placed id vm hvm₀
      · intro vm' hvm'
        obtain rfl : vm' = vm := Option.some.inj (hvm'.symm.trans hvm₀)
        refine ⟨hretain vm' (.inl rfl), fun hstage => ?_⟩
        rw [h.gone id vm' hvm₀ (.inl ⟨false, hstage⟩)] at hvm
        cases hvm
    refine ⟨fun _ => ⟨_, hkept⟩, fun hid => ?_, fun vm' hvm' => ?_, nofun, nofun⟩
    · rw [((h.calls id).returned hid).1] at hvm
      cases hvm
    · cases hvm'
      exact hvm₀
  · refine (h.calls id').frame (fun h => h) (fun h => h) fun s _ hs => ?_
    refine ⟨(Function.update_of_ne hne _ _).trans hs.entry, hs.placed, hs.disk, fun vm' hvm' => ?_⟩
    exact (hs.retained vm' hvm').imp_left fun hr => hretain vm' (.inr hr)

/-- A call that finds no instance is one for an instance that has been suspended before. -/
theorem SuspendInv.absent (h : SuspendInv w₀ S W w) (hid : id ∈ w.returned) :
    SuspendInv w₀ (Function.update S id .absent) W w :=
  h.advance ⟨fun _ => (h.calls id).kept (.inl hid), fun _ =>
    ⟨((h.calls id).returned hid).1, .inr (.inr rfl)⟩, nofun,
    fun _ => ((h.calls id).returned hid).1, nofun⟩

theorem SuspendInv.hand (h : SuspendInv w₀ S W w) (hstage : S id = .marked vm) :
    SuspendInv w₀ (Function.update S id (.handed vm)) W w := by
  have hcall := h.calls id
  rw [hstage] at hcall
  refine h.advance ⟨fun _ => hcall.kept (.inr rfl), fun hid => ?_, hcall.waits,
    fun hover => hover.elim nofun nofun, nofun⟩
  rcases (hcall.returned hid).2 with h | h | h <;> cases h

/-- The goroutine of the instance has ended, so the instance is not registered. -/
theorem SuspendInv.finish (h : SuspendInv w₀ S W w) (hstage : S id = .handed vm)
    (hstopped : (w.vms vm).stopped = true) : SuspendInv w₀ (Function.update S id .ended) W w := by
  have hcall := h.calls id
  rw [hstage] at hcall
  have hnone := h.gone id vm (hcall.waits vm rfl) (.inr hstopped)
  exact h.advance ⟨fun _ => hcall.kept (.inr rfl), fun _ => ⟨hnone, .inr (.inl rfl)⟩, nofun,
    fun _ => hnone, nofun⟩

theorem SuspendInv.drop (hw₀ : w₀.Launched) (h : SuspendInv w₀ S W w) (hstage : S id = .handed vm) :
    SuspendInv w₀ (Function.update S id (.dropped (w.suspended id))) W
      (w.dropSuspended id vm).2 := by
  have hcall := h.calls id
  rw [hstage] at hcall
  have hvm₀ := hcall.waits vm rfl
  refine ⟨h.records_changeVm vm ({ · with retain := false }) rfl, h.registered,
    h.gone_changeVm vm ({ · with retain := false }) rfl, ?_⟩
  refine (Function.forall_update_iff S fun id m => CallInv w₀ W _ id m).mpr ⟨?_, fun id' hne => ?_⟩
  · have hnone : id ∉ w.returned := by
      intro hid
      rcases (hcall.returned hid).2 with h | h | h <;> cases h
    refine ⟨fun hid => hid.elim (absurd · hnone) nofun, (absurd · hnone), nofun,
      fun hover => hover.elim nofun nofun, fun s hs => ?_⟩
    obtain ⟨s', hs'⟩ := hcall.kept (.inr rfl)
    rw [hs'.entry] at hs
    cases hs
    exact hs'.placed
  · refine (h.calls id').frame (fun h => h) (fun h => h) fun s _ hs => ?_
    refine ⟨(Function.update_of_ne hne _ _).trans hs.entry, hs.placed, hs.disk, fun vm' hvm' => ?_⟩
    have hne' : vm' ≠ vm := by
      rintro rfl
      exact hne (hw₀.inj hvm' hvm₀)
    exact (hs.retained vm' hvm').imp_left fun hr =>
      (congrArg HostVm.retain (w.vms_changeVm_of_ne hne' ({ · with retain := false }))).trans hr

theorem SuspendInv.return (h : SuspendInv w₀ S W w) (hstage : S id = .ended ∨ S id = .absent) :
    SuspendInv w₀ S W { w with returned := id :: w.returned } := by
  refine ⟨h.records, h.registered, h.gone, fun id' => ?_⟩
  by_cases hne : id' = id
  · subst hne
    have hcall := h.calls id'
    have hholds : (S id').holds = true := by rcases hstage with h | h <;> rw [h] <;> rfl
    obtain ⟨s, hs⟩ := hcall.kept (.inr hholds)
    exact ⟨fun _ => ⟨s, hs.entry, hs.placed, hs.disk,
      hs.retained⟩, fun _ => ⟨hcall.vacated hstage, .inr hstage⟩, hcall.waits, hcall.vacated,
      hcall.dropped⟩
  · refine (h.calls id').frame (fun hid => (List.mem_cons.mp hid).resolve_left hne) (fun h => h) ?_
    exact fun s _ hs => ⟨hs.entry, hs.placed, hs.disk, hs.retained⟩

end suspend

section watcher
variable {w₀ w : HostWorld} {S : Id → SuspendStage} {W : Nat → SuspendStage} {id : Id} {vm : Nat}

/-- Crun deletes whatever is registered, which can only be the instance of the goroutine. -/
theorem SuspendInv.instances_unregister (h : SuspendInv w₀ S W w) (rt : LinuxRuntime)
    (hvm : w₀.instances id = some vm) :
    (w.unregister rt id vm).2.instances = Function.update w.instances id none := by
  change (if rt = .crun ∨ w.instances id = some vm then _ else _) = _
  split
  · rfl
  · next hother =>
    have hnone : w.instances id = none := by
      cases hid : w.instances id with
      | none => rfl
      | some vm' =>
        have := h.registered id vm' hid
        exact absurd (.inr (hid.trans (this.symm.trans hvm))) hother
    rw [← hnone, Function.update_eq_self]

theorem SuspendInv.unregister (hw₀ : w₀.Launched) (h : SuspendInv w₀ S W w) (rt : LinuxRuntime)
    (hvm : w₀.instances id = some vm) :
    SuspendInv w₀ S (Function.update W vm (.unregistered (w.vms vm).retain))
      (w.unregister rt id vm).2 := by
  have hinstances := h.instances_unregister rt hvm
  have hnone : ∀ id', w.instances id' = none → (w.unregister rt id vm).2.instances id' = none := by
    intro id' hid'
    rw [hinstances, Function.update_apply]
    split
    · rfl
    · exact hid'
  refine ⟨h.records, fun id' vm' hid' => ?_, fun id' vm' hvm' hgone => ?_, fun id' => ?_⟩
  · rw [hinstances, Function.update_apply] at hid'
    split at hid'
    · cases hid'
    · exact h.registered id' vm' hid'
  · by_cases hne : vm' = vm
    · subst hne
      rw [hinstances, hw₀.inj hvm' hvm, Function.update_self]
    · rw [Function.update_of_ne hne] at hgone
      exact hnone id' (h.gone id' vm' hvm' hgone)
  · refine (h.calls id').frame (fun h => h) (hnone id') fun s _ hs => ?_
    refine ⟨hs.entry, hs.placed, hs.disk, ?_⟩
    intro vm' hvm'
    obtain ⟨hretain, hstage⟩ := hs.retained vm' hvm'
    refine ⟨hretain, ?_⟩
    by_cases hne : vm' = vm
    · rw [hne, Function.update_self, ← hne, hretain]
      nofun
    · rwa [Function.update_of_ne hne]

theorem SuspendInv.close (h : SuspendInv w₀ S W w) {retain : Bool}
    (hstage : W vm = .unregistered retain) :
    SuspendInv w₀ S W (w.changeVm vm ({ · with stopped := true })) := by
  refine ⟨h.records_changeVm vm _ rfl, h.registered, fun id vm' hvm' hgone => ?_, fun id => ?_⟩
  · by_cases hne : vm' = vm
    · subst hne
      exact h.gone id vm' hvm' (.inl ⟨retain, hstage⟩)
    · rw [w.vms_changeVm_of_ne hne] at hgone
      exact h.gone id vm' hvm' hgone
  · refine (h.calls id).frame (fun h => h) (fun h => h) fun s _ hs => ?_
    refine ⟨hs.entry, hs.placed, hs.disk, ?_⟩
    intro vm' hvm'
    rw [w.of_changeVm (g := HostVm.retain) rfl]
    exact hs.retained vm' hvm'

theorem SuspendInv.watcher_start (h : SuspendInv w₀ S W w) (vm : Nat) :
    SuspendInv w₀ S (Function.update W vm .start) w := by
  refine ⟨h.records, h.registered, fun id vm' hvm' hgone => ?_, fun id => ?_⟩
  · refine h.gone id vm' hvm' (hgone.imp_left fun ⟨retain, hstage⟩ => ?_)
    by_cases hne : vm' = vm
    · rw [hne, Function.update_self] at hstage
      cases hstage
    · exact ⟨retain, (Function.update_of_ne hne _ _).symm.trans hstage⟩
  · refine (h.calls id).frame (fun h => h) (fun h => h) fun s _ hs => ?_
    refine ⟨hs.entry, hs.placed, hs.disk, fun vm' hvm' => (hs.retained vm' hvm').imp_right ?_⟩
    intro hstage
    by_cases hne : vm' = vm
    · rw [hne, Function.update_self]
      nofun
    · rwa [Function.update_of_ne hne]

end watcher

/-! ## Steps -/

/-- `Suspend` finds the instance registered and with its disk, unless an earlier call has suspended
it; and `Stop` still finds it registered. -/
def StillRegistered : Prog.Guard HostOp RuntimeAnswer HostWorld := fun _ op _ w =>
  match op with
  | .markSuspended id => id ∈ w.returned ∨
    (w.instances id).any (fun vm => w.hasDisk (w.vms vm).workDisk) = true
  | .stopTarget _ id => (w.instances id).isSome = true
  | _ => True

instance : Decidable (StillRegistered β op as w) := by
  unfold StillRegistered
  induction op using HostOp.casesOn <;> infer_instance

section steps
variable {rt : LinuxRuntime} {w₀ w : HostWorld} {S : Id → SuspendStage} {W : Nat → SuspendStage}
  {op : HostOp β} {as : List RuntimeAnswer}

theorem SuspendInv.stay (h : SuspendInv w₀ S W w') (id : Id) :
    SuspendInv w₀ (Function.update S id (S id)) W w' := by
  rwa [Function.update_eq_self]

theorem SuspendInv.suspend_step (hw₀ : w₀.Launched) (h : SuspendInv w₀ S W w) {id : Id}
    (hallows : SuspendStage.allows rt w₀ (.suspend id) (S id) op)
    (hready : HostOp.Ready β op as w) (hguard : StillRegistered β op as w) :
    SuspendStage.possible op (Effect.exec op as w).value ∧
      SuspendInv w₀ (Function.update S id (.next (S id) op (Effect.exec op as w).value))
        W (Effect.exec op as w).state := by
  cases op with
  | markSuspended id' =>
    cases hallows
    refine ⟨trivial, ?_⟩
    change SuspendInv w₀ (Function.update S id (.next (S id) (.markSuspended id)
      (w.markSuspended id).1)) W (w.markSuspended id).2
    cases hid : w.instances id with
    | none =>
      have hmark : w.markSuspended id = (none, w) := by rw [HostWorld.markSuspended, hid]
      rw [hmark]
      refine h.absent (hguard.resolve_right ?_)
      rw [hid]
      nofun
    | some vm =>
      have hmark : (w.markSuspended id).1 = some (vm, w.vms vm) := by
        rw [HostWorld.markSuspended, hid]
      rw [hmark]
      refine h.mark hw₀ hid ?_
      rcases hguard with hret | hdisk
      · rw [((h.calls id).returned hret).1] at hid
        cases hid
      · simpa [hid] using hdisk
  | stopTarget rt' id' =>
    obtain ⟨rfl, vm, hstage⟩ := hallows
    obtain ⟨vm', hvm'⟩ := Option.isSome_iff_exists.mp hguard
    have hstop : w.stopTarget rt' id' = (.running vm', w) := by rw [HostWorld.stopTarget, hvm']
    change SuspendStage.possible _ (w.stopTarget rt' id').1 ∧ SuspendInv w₀ (Function.update S id'
      (.next (S id') (.stopTarget rt' id') (w.stopTarget rt' id').1)) W
      (w.stopTarget rt' id').2
    rw [hstop, hstage]
    exact ⟨⟨vm', rfl⟩, h.hand hstage⟩
  | awaitStopped vm =>
    refine ⟨trivial, ?_⟩
    change SuspendInv w₀ (Function.update S id (.next (S id) (.awaitStopped vm)
      (if (as.headD default).fail then _ else _))) W w
    rcases hready with hfail | hstopped
    · rw [hfail]
      exact h.stay id
    · split
      · exact h.stay id
      · exact h.finish hallows hstopped
  | dropSuspended id' vm =>
    obtain ⟨rfl, hstage⟩ := hallows
    exact ⟨trivial, h.drop hw₀ hstage⟩
  | removeAll dir =>
    obtain ⟨s, hstage, hdir⟩ := hallows
    have hcall := h.calls id
    rw [hstage] at hcall
    have hplaced := hcall.dropped s rfl
    refine ⟨trivial, (h.removeAll fun id' s' hid' _ => ?_).stay id⟩
    have howner : dir.owner = id := hplaced.owner (hdir.elim (fun h => h ▸ .workDir) .ociDir)
    refine .inr fun hsame => ?_
    -- the call itself does not count on the entry any more
    obtain rfl : id = id' := howner.symm.trans hsame
    rcases hid' with hret | hholds
    · rcases (hcall.returned hret).2 with h | h | h <;> cases h
    · rw [hstage] at hholds
      cases hholds
  | returned id' =>
    obtain ⟨rfl, hstage⟩ := hallows
    exact ⟨trivial, (h.return hstage).stay id'⟩
  | cancel | suspendedEntry => exact ⟨trivial, h.stay id⟩
  | ensureDir dir =>
    refine ⟨trivial, ?_⟩
    change SuspendInv w₀ (Function.update S id (S id)) W (w.orFail (as.headD default) _).2
    unfold HostWorld.orFail
    split
    · exact h.stay id
    · refine (h.updateDir fun hdisk => ?_).stay id
      cases hc : w.dirs dir with
      | none =>
        rw [hc] at hdisk
        cases hdisk
      | some c => rwa [hc] at hdisk
  | writeState dir s =>
    refine ⟨trivial, ?_⟩
    change SuspendInv w₀ (Function.update S id (S id)) W (w.orFail (as.headD default) _).2
    unfold HostWorld.orFail
    split
    · exact h.stay id
    · exact (h.changeDir dir (f := ({ · with suspended := some s })) fun _ => rfl).stay id
  | _ => cases hallows

theorem SuspendInv.watcher_step (hw₀ : w₀.Launched) (h : SuspendInv w₀ S W w)
    (hallows : SuspendStage.allows rt w₀ (.watcher vm) (W vm) op) :
    SuspendStage.possible op (Effect.exec op as w).value ∧ SuspendInv w₀ S
        (Function.update W vm (.next (W vm) op (Effect.exec op as w).value))
        (Effect.exec op as w).state := by
  have hstay : ∀ {w'}, SuspendInv w₀ S W w' → SuspendInv w₀ S (Function.update W vm (W vm)) w' :=
    fun h' => (Function.update_eq_self vm W).symm ▸ h'
  cases op with
  | unregister rt' id vm' =>
    obtain ⟨-, rfl, hvm⟩ := hallows
    exact ⟨trivial, h.unregister hw₀ rt' hvm⟩
  | removeAll dir =>
    obtain ⟨id, hvm, hdir⟩ := hallows
    refine ⟨trivial, hstay (h.removeAll fun id' s hid' hs => ?_)⟩
    rcases hdir with rfl | ⟨hstage, hdir⟩
    · exact .inl rfl
    · refine .inr fun howner => ?_
      have hid := (hw₀.placed id vm hvm).owner hdir
      exact (hs.retained vm (howner ▸ hid ▸ hvm)).2 hstage
  | closeStopped vm' =>
    obtain ⟨rfl, retain, hstage⟩ := hallows
    exact ⟨trivial, hstay (h.close hstage)⟩
  | wait vm' => exact ⟨trivial, hstay (h.changeProcess vm' _)⟩
  | cleanupRuntimeArtifacts dir =>
    refine ⟨trivial, hstay ?_⟩
    refine .changeDir ?_ dir fun _ => rfl
    split
    · exact h
    · exact h.changeProcess _ _
  | _ => cases hallows

end steps

/-- A goroutine waits until it can go on, and the calls meet the guard. -/
def suspendGuard (G : Prog.Guard HostOp RuntimeAnswer HostWorld) :
    SuspendActor → List (Call HostOp) → Prog.Guard HostOp RuntimeAnswer HostWorld :=
  fun _ _ β op as w => HostOp.Ready β op as w ∧ G β op as w

instance {G : Prog.Guard HostOp RuntimeAnswer HostWorld} [∀ β op as w, Decidable (G β op as w)] : Decidable (suspendGuard G i log β op as w) :=
  inferInstanceAs (Decidable (_ ∧ _))

theorem suspendInv_keeps (rt : LinuxRuntime) (hw₀ : w₀.Launched) :
    Team.Keeps (suspendStarts rt w₀) (fun _ w => w) (suspendGuard StillRegistered)
      (suspendStages rt w₀) (fun _ _ => True) fun M w =>
        SuspendInv w₀ (fun id => M (.suspend id)) (fun vm => M (.watcher vm)) w := by
  have hsuspend : ∀ (M : SuspendActor → SuspendStage) id m,
      (fun id' => Function.update M (.suspend id) m (.suspend id')) =
        Function.update (fun id' => M (.suspend id')) id m := by
    intro M id m
    funext id'
    simp [Function.update_apply]
  have hwatcher : ∀ (M : SuspendActor → SuspendStage) vm m,
      (fun vm' => Function.update M (.watcher vm) m (.watcher vm')) =
        Function.update (fun vm' => M (.watcher vm')) vm m := by
    intro M vm m
    funext vm'
    simp [Function.update_apply]
  have hlost : ∀ (M : SuspendActor → SuspendStage) (i : SuspendActor) w,
      SuspendInv w₀ (fun id => M (.suspend id)) (fun vm => M (.watcher vm)) w →
      SuspendInv w₀ (fun id => Function.update M i .start (.suspend id))
        (fun vm => Function.update M i .start (.watcher vm)) w := by
    intro M i w h
    cases i with
    | suspend id => exact hsuspend M id _ ▸ h.advance (h.calls id).start
    | watcher vm => exact hwatcher M vm _ ▸ h.watcher_start vm
    | guest vm => exact h
  refine ⟨suspendStarts_follow, fun _ => trivial, ?_, fun M i w _ h => hlost M i w h, hlost⟩
  intro M i log w β op as _ hallows hguard h
  cases i with
  | suspend id => exact hsuspend M id _ ▸ h.suspend_step hw₀ hallows hguard.1 hguard.2
  | watcher vm => exact hwatcher M vm _ ▸ h.watcher_step hw₀ hallows
  | guest vm =>
    cases op with
    | exit vm' => exact ⟨trivial, h.changeProcess vm' _⟩
    | _ => cases hallows

/-- **Suspended instances stay.** Let calls of `Suspend` interleave with the ends of the processes
and with the goroutines that wait for them, one section under the lock or one step on the host at a
time. If each call finds its instance registered and with its disk, unless an earlier one has
suspended it, and its `Stop` still finds the instance registered, then an instance for which
`Suspend` has returned has its entry and its disk. -/
theorem suspended_stays (rt : LinuxRuntime) (w₀ : HostWorld) (hw₀ : w₀.Launched) (c : SuspendTeam)
    (hc : Team.Run (suspendStarts rt w₀) (fun _ w => w) (suspendGuard StillRegistered)
      (Team.idle (.ok ()) w₀) c) (id : Id) (hid : id ∈ c.state.returned) :
    ∃ s, c.state.suspended id = some s ∧ c.state.hasDisk s.workDisk = true := by
  have hkeeps := suspendInv_keeps rt hw₀
  obtain ⟨-, hinv⟩ := hkeeps.run (hkeeps.follow_idle _ _) hw₀.suspendInv hc
  obtain ⟨s, hs⟩ := (hinv.calls id).kept (.inl hid)
  exact ⟨s, hs.entry, hs.disk⟩

/-- One instance that runs, in its directory with its disk. -/
def hostOfOne (dir : Dir) : HostWorld where
  instances := fun id => if id = 1 then some 0 else none
  vms := fun _ => { inst := 1, workDir := dir, workDisk := .file dir, cmd := some {} }
  nextVm := 1
  dirs := fun d => if d = dir then some { disk := true } else none

theorem hostOfOne_launched (hdir : dir = .state 1 ∨ dir = .bundle 1) :
    (hostOfOne dir).Launched := by
  have hid : ∀ id vm, (hostOfOne dir).instances id = some vm → id = 1 := by
    intro id vm h
    change (if id = 1 then some 0 else none) = some vm at h
    split at h
    · assumption
    · cases h
  refine ⟨fun id vm h => (hid id vm h).symm, fun id vm h => ?_, fun _ _ _ => rfl, rfl⟩
  rw [hid id vm h]
  exact ⟨hdir, nofun, .inl rfl⟩

/-- `Suspend`, the goroutine and the process of the instance. -/
def suspendTeam (rt : LinuxRuntime) (dir : Dir) : SuspendTeam :=
  (((Team.idle (.ok ()) (hostOfOne dir)).begin (.suspend 1) (rt.suspending 1)).begin (.watcher 0)
    (rt.watch 1 0 ((hostOfOne dir).vms 0).toSuspendedVm)).begin (.guest 0)
      (ofTotal (.exit 0) : Go HostOp Unit)

theorem suspendTeam_run :
    Team.Run (suspendStarts rt (hostOfOne dir)) (fun _ w => w) G
      (.idle (.ok ()) (hostOfOne dir)) (suspendTeam rt dir) :=
  ((Team.Run.begin (.suspend 1) _ rfl rfl).trans
    (Team.Run.begin (.watcher 0) _ rfl ⟨1, rfl, rfl⟩)).trans
    (Team.Run.begin (SuspendActor.guest 0) _ rfl rfl)

/-- The process ends after `Stop` has looked for the instance. -/
def stoppedInTime : SuspendTeam :=
  (suspendTeam .cloudHypervisor (.state 1)).turns (List.replicate 3 (.suspend 1, []) ++
    [(.guest 0, [])] ++ List.replicate 5 (.watcher 0, []) ++ List.replicate 5 (.suspend 1, []))

/-- The process ends by itself after the instance has been marked. -/
def exitedBefore (rt : LinuxRuntime) (dir : Dir) : SuspendTeam :=
  (suspendTeam rt dir).turns ([(.suspend 1, []), (.guest 0, [])] ++
    List.replicate 5 (.watcher 0, []) ++ List.replicate 8 (.suspend 1, []))

theorem stoppedInTime_kept : 1 ∈ stoppedInTime.state.returned ∧
    ∃ s, stoppedInTime.state.suspended 1 = some s ∧ stoppedInTime.state.hasDisk s.workDisk = true :=
  have hreturned : 1 ∈ stoppedInTime.state.returned := by decide +kernel
  ⟨hreturned, suspended_stays .cloudHypervisor _ (hostOfOne_launched (.inl rfl)) stoppedInTime
    (suspendTeam_run.trans (Team.Run.turns (by decide +kernel))) 1 hreturned⟩

/-- In both runtimes `Suspend` has returned, and neither the entry nor the disk is left. -/
theorem exit_before_stop_loses :
    (Team.Run (suspendStarts .cloudHypervisor (hostOfOne (.state 1))) (fun _ w => w)
        (suspendGuard Prog.unguarded) (Team.idle (.ok ()) (hostOfOne (.state 1)))
        (exitedBefore .cloudHypervisor (.state 1)) ∧
      1 ∈ (exitedBefore .cloudHypervisor (.state 1)).state.returned ∧
      (exitedBefore .cloudHypervisor (.state 1)).state.suspended 1 = none ∧
      (exitedBefore .cloudHypervisor (.state 1)).state.hasDisk (.file (.state 1)) = false) ∧
    (Team.Run (suspendStarts .crun (hostOfOne (.bundle 1))) (fun _ w => w)
        (suspendGuard Prog.unguarded) (Team.idle (.ok ()) (hostOfOne (.bundle 1)))
        (exitedBefore .crun (.bundle 1)) ∧
      1 ∈ (exitedBefore .crun (.bundle 1)).state.returned ∧
      (exitedBefore .crun (.bundle 1)).state.suspended 1 = none ∧
      (exitedBefore .crun (.bundle 1)).state.hasDisk (.file (.bundle 1)) = false) :=
  ⟨⟨suspendTeam_run.trans (Team.Run.turns (by decide +kernel)), by decide +kernel⟩,
    suspendTeam_run.trans (Team.Run.turns (by decide +kernel)), by decide +kernel⟩

end Kindling
