import Kindling.Deploy.Effects
import Kindling.Lib.Typestate

/-!
# The state of a runtime on its host

What the cloud-hypervisor and the crun runtime share: maps of instances behind a lock, the processes
of the instances, and directories with disks. Each section under the lock is one call, and so is each
step that reaches the host. A host call that fails changes nothing.
-/

namespace Kindling

open Fallible

/-! ## State -/

/-- The directories of an instance. -/
inductive Dir
  /-- `instanceStateDir` -/
  | state (id : Id)
  /-- `instanceRuntimeDir` -/
  | runtime (id : Id)
  /-- `templateStateDir` -/
  | template (id : Id)
  /-- `/tmp/kindling-bundle-…` -/
  | bundle (id : Id)
  /-- `/tmp/kindling-oci-…` -/
  | oci (id : Id)
  deriving DecidableEq, Repr

inductive VmDisk
  | file (dir : Dir)
  | shared (id : Id)
  deriving DecidableEq, Repr

/-- `cloudHypervisorSuspended` and `crunSuspended`. The working directory of crun is its bundle,
which is its disk too. The instance is the one that the entry is kept under. -/
structure SuspendedVm where
  workDir : Dir
  ociDir : Option Dir := none
  workDisk : VmDisk
  hostPort : Nat := 0
  deriving DecidableEq, Repr

/-- The process of an instance. Once `Wait` has returned, `ProcessState` is set. -/
structure Process where
  exited : Bool := false
  waited : Bool := false
  deriving DecidableEq, Repr

/-- `cloudHypervisorInstance` and `crunInstance`. -/
structure HostVm extends SuspendedVm where
  inst : Id
  cmd : Option Process := none
  ip : List Char := []
  retain : Bool := false
  /-- The channel `stopped` is closed. -/
  stopped : Bool := false
  deriving DecidableEq, Repr

instance : Inhabited HostVm := ⟨{ inst := 0, workDir := .state 0, workDisk := .file (.state 0) }⟩

structure DirContents where
  disk : Bool := false
  /-- `suspended.json` -/
  suspended : Option SuspendedVm := none
  /-- The instance whose process is in `cloud-hypervisor.pid`. -/
  vmPid : Option Nat := none
  deriving DecidableEq, Repr

/-- The state of one runtime. Instances are pointers, and the maps are keyed by instance. -/
structure HostWorld where
  instances : Id → Option Nat := fun _ => none
  vms : Nat → HostVm := fun _ => default
  nextVm : Nat := 0
  suspended : Id → Option SuspendedVm := fun _ => none
  /-- The directories of prepared migrations. -/
  prepared : Id → Option Dir := fun _ => none
  templates : List Dir := []
  dirs : Dir → Option DirContents := fun _ => none
  sharedDisks : Id → Bool := fun _ => false
  /-- The instances for which a call of `Suspend` has returned without an error. No function reads
  them. -/
  returned : List Id := []

instance : Inhabited HostWorld := ⟨{}⟩

namespace HostWorld

def hasDisk (w : HostWorld) : VmDisk → Bool
  | .file dir => (w.dirs dir).any (·.disk)
  | .shared id => w.sharedDisks id

def setDisk (w : HostWorld) (there : Bool) : VmDisk → HostWorld
  | .file dir =>
    { w with dirs := Function.update w.dirs dir ((w.dirs dir).map ({ · with disk := there })) }
  | .shared id => { w with sharedDisks := Function.update w.sharedDisks id there }

def changeVm (w : HostWorld) (vm : Nat) (f : HostVm → HostVm) : HostWorld :=
  { w with vms := Function.update w.vms vm (f (w.vms vm)) }

theorem vms_changeVm_self (w : HostWorld) (vm : Nat) (f : HostVm → HostVm) :
    (w.changeVm vm f).vms vm = f (w.vms vm) := Function.update_self ..

theorem vms_changeVm_of_ne (w : HostWorld) (h : vm' ≠ vm) (f : HostVm → HostVm) :
    (w.changeVm vm f).vms vm' = w.vms vm' := Function.update_of_ne h ..

def changeDir (w : HostWorld) (dir : Dir) (f : DirContents → DirContents) : HostWorld :=
  { w with dirs := Function.update w.dirs dir ((w.dirs dir).map f) }

end HostWorld

def HostVm.exit (v : HostVm) : HostVm := { v with cmd := v.cmd.map ({ · with exited := true }) }

inductive LinuxRuntime | cloudHypervisor | crun
  deriving DecidableEq, Repr

/-- What `Stop` finds under an id. -/
inductive StopTarget
  | running (vm : Nat)
  | prepared (dir : Dir)
  | suspended (s : SuspendedVm)
  | unknown
  deriving DecidableEq, Repr

/-! ## Calls -/

/-- Whether a call fails or its context is done, and a port. -/
structure RuntimeAnswer where
  fail : Bool := false
  port : Nat := 0
  deriving Inhabited

/-- Steps that can fail and of which only this matters here. -/
inductive HostStep
  | stat (path : String)
  | exportImage
  | sharedDir
  | ensurePersistentVolumeDisk
  | startGuestVsockServer
  | waitForGuestReady
  | startBridgeHelper
  | writeBridgePid
  | waitForTCPPort
  deriving DecidableEq, Repr

inductive HostOp : Type → Type 1 /- Sections under the lock. -/
  /-- The first section of `Suspend`. -/
  | markSuspended (id : Id) : HostOp (Option (Nat × HostVm))
  /-- The first section of `Stop`. -/
  | stopTarget (rt : LinuxRuntime) (id : Id) : HostOp StopTarget
  /-- The section of the goroutine that waits for the process; says whether to retain the disk. -/
  | unregister (rt : LinuxRuntime) (id : Id) (vm : Nat) : HostOp Bool
  | suspendedEntry (id : Id) : HostOp (Option SuspendedVm)
  /-- The section of a `Suspend` whose context is done. -/
  | dropSuspended (id : Id) (vm : Nat) : HostOp (Option SuspendedVm)
  /-- The section of `Resume`. -/
  | takeSuspended (id : Id) : HostOp (Option SuspendedVm)
  | dropTemplate (dir : Dir) : HostOp Unit
  /-- `resolveCloudHypervisorTemplate`; `none` is a blank reference. -/
  | resolveTemplate (ref : Option Dir) : HostOp (Option Dir)
  | register (id : Id) (vm : Nat) : HostOp Unit
  /- Processes. -/
  /-- `buildCHInstance`, which allocates the instance and its network. -/
  | buildInstance (id : Id) (workDir : Dir) (workDisk : VmDisk) : HostOp (Except Err Nat)
  /-- `cmd.Start()` -/
  | launch (vm : Nat) : HostOp (Except Err Unit)
  | writeVmPid (dir : Dir) (vm : Nat) : HostOp (Except Err Unit)
  /-- `ai.cancel()` has the process killed. -/
  | cancel (vm : Nat) : HostOp Unit
  | exit (vm : Nat) : HostOp Unit
  /-- `cmd.Wait()` -/
  | wait (vm : Nat) : HostOp Unit
  /-- `select { case <-ai.stopped: case <-ctx.Done(): }` -/
  | awaitStopped (vm : Nat) : HostOp (Except Err Unit)
  | closeStopped (vm : Nat) : HostOp Unit
  | setHostPort (vm : Nat) (port : Nat) : HostOp Unit
  | setAddress (vm : Nat) (port : Nat) (ip : List Char) : HostOp Unit
  | readAddress (vm : Nat) : HostOp (List Char)
  | pickFreeTCPPort : HostOp (Except Err Nat)
  | step (s : HostStep) : HostOp (Except Err Unit)
  /- Files. -/
  | removeAll (dir : Dir) : HostOp Unit
  | ensureDir (dir : Dir) : HostOp (Except Err Unit)
  /-- `cleanupCloudHypervisorRuntimeArtifacts` -/
  | cleanupRuntimeArtifacts (dir : Dir) : HostOp Unit
  | removeDisk (disk : VmDisk) : HostOp Unit
  /-- `virt-make-fs`, and the clone of the disk of a template. -/
  | makeDisk (disk : VmDisk) : HostOp (Except Err Unit)
  | writeState (dir : Dir) (s : SuspendedVm) : HostOp (Except Err Unit)
  /-- `none` if there is no file. -/
  | readState (dir : Dir) : HostOp (Except Err (Option SuspendedVm))
  | removeState (dir : Dir) : HostOp Unit
  /-- `Suspend` returns to its caller without an error. -/
  | returned (id : Id) : HostOp Unit

namespace HostWorld
variable (w : HostWorld)

def markSuspended (id : Id) : Option (Nat × HostVm) × HostWorld :=
  match w.instances id with
  | none => (none, w)
  | some vm => (some (vm, w.vms vm), { w.changeVm vm ({ · with retain := true }) with
      suspended := Function.update w.suspended id (some (w.vms vm).toSuspendedVm) })

def stopTarget (rt : LinuxRuntime) (id : Id) : StopTarget × HostWorld :=
  match w.instances id with
  | some vm => (.running vm, w)
  | none =>
    match if rt = .cloudHypervisor then w.prepared id else none with
    | some dir => (.prepared dir, { w with prepared := Function.update w.prepared id none })
    | none =>
      match w.suspended id with
      | some s => (.suspended s, { w with suspended := Function.update w.suspended id none })
      | none => (.unknown, w)

/-- Crun deletes whatever is registered under the id. -/
def unregister (rt : LinuxRuntime) (id : Id) (vm : Nat) : Bool × HostWorld :=
  let retain := (w.vms vm).retain
  (retain, { w with
    instances := if rt = .crun ∨ w.instances id = some vm then Function.update w.instances id none
      else w.instances
    templates := if rt = .cloudHypervisor ∧ retain = false then
      w.templates.filter (· ≠ .template id) else w.templates })

def dropSuspended (id : Id) (vm : Nat) : Option SuspendedVm × HostWorld :=
  (w.suspended id, { w.changeVm vm ({ · with retain := false }) with
    suspended := Function.update w.suspended id none })

/-- A template is found in the map, or else in its directory. -/
def resolveTemplate (ref : Option Dir) : Option Dir × HostWorld :=
  match ref with
  | none => (none, w)
  | some dir =>
    if dir ∈ w.templates then (some dir, w)
    else if w.hasDisk (.file dir) then (some dir, { w with templates := dir :: w.templates })
    else (none, w)

/-- A call that only fails or not. -/
def orFail (a : RuntimeAnswer) (w' : HostWorld) : Except Err Unit × HostWorld :=
  if a.fail then (.error (.of .runtime), w) else (.ok (), w')

end HostWorld

def HostOp.exec : HostOp β → RuntimeAnswer → HostWorld → β × HostWorld
  | markSuspended id, _, w => w.markSuspended id
  | stopTarget rt id, _, w => w.stopTarget rt id
  | unregister rt id vm, _, w => w.unregister rt id vm
  | suspendedEntry id, _, w => (w.suspended id, w)
  | dropSuspended id vm, _, w => w.dropSuspended id vm
  | takeSuspended id, _, w =>
    (w.suspended id, { w with suspended := Function.update w.suspended id none })
  | dropTemplate dir, _, w => ((), { w with templates := w.templates.filter (· ≠ dir) })
  | resolveTemplate ref, _, w => w.resolveTemplate ref
  | register id vm, _, w => ((), { w with instances := Function.update w.instances id (some vm) })
  | buildInstance id workDir workDisk, a, w =>
    if a.fail then (.error (.of .runtime), w)
    else (.ok w.nextVm, { w with
      vms := Function.update w.vms w.nextVm { inst := id, workDir, workDisk }
      nextVm := w.nextVm + 1 })
  | launch vm, a, w => w.orFail a (w.changeVm vm ({ · with cmd := some {} }))
  | writeVmPid dir vm, a, w => w.orFail a (w.changeDir dir ({ · with vmPid := some vm }))
  | cancel _, _, w => ((), w)
  | exit vm, _, w => ((), w.changeVm vm HostVm.exit)
  | wait vm, _, w =>
    ((), w.changeVm vm fun v => { v with cmd := v.cmd.map ({ · with waited := true }) })
  | awaitStopped _, a, w =>
    (if a.fail then .error (.of (.message "context canceled")) else .ok (), w)
  | closeStopped vm, _, w => ((), w.changeVm vm ({ · with stopped := true }))
  | setHostPort vm port, _, w => ((), w.changeVm vm ({ · with hostPort := port }))
  | setAddress vm port ip, _, w => ((), w.changeVm vm ({ · with hostPort := port, ip }))
  | readAddress vm, _, w => ((w.vms vm).ip, w)
  | pickFreeTCPPort, a, w => (if a.fail then .error (.of .runtime) else .ok a.port, w)
  | step _, a, w => w.orFail a w
  | removeAll dir, _, w => ((), { w with dirs := Function.update w.dirs dir none })
  | ensureDir dir, a, w =>
    w.orFail a { w with dirs := Function.update w.dirs dir (some ((w.dirs dir).getD {})) }
  | cleanupRuntimeArtifacts dir, _, w =>
    let w' := match (w.dirs dir).bind (·.vmPid) with
      | none => w
      | some vm => w.changeVm vm HostVm.exit
    ((), w'.changeDir dir ({ · with vmPid := none }))
  | removeDisk disk, _, w => ((), w.setDisk false disk)
  | makeDisk disk, a, w => w.orFail a (w.setDisk true disk)
  | writeState dir s, a, w => w.orFail a (w.changeDir dir ({ · with suspended := some s }))
  | readState dir, a, w =>
    (if a.fail then .error (.of .runtime) else .ok ((w.dirs dir).bind (·.suspended)), w)
  | removeState dir, _, w => ((), w.changeDir dir ({ · with suspended := none }))
  | returned id, _, w => ((), { w with returned := id :: w.returned })

instance : Atomic HostOp RuntimeAnswer HostWorld where
  step := HostOp.exec

/-- `Wait` returns when the process has ended, and the wait for the end of an instance when it has
stopped or the context is done. -/
def HostOp.Ready : Prog.Guard HostOp RuntimeAnswer HostWorld := fun _ op as w =>
  match op with
  | .wait vm => ((w.vms vm).cmd.any (·.exited)) = true
  | .awaitStopped vm => (as.headD default).fail = true ∨ (w.vms vm).stopped = true
  | _ => True

instance : Decidable (HostOp.Ready β op as w) := by
  unfold HostOp.Ready
  induction op using HostOp.casesOn <;> infer_instance

end Kindling
