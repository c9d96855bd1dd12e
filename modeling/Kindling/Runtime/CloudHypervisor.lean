import Kindling.Runtime.Address
import Kindling.Runtime.Host

/-!
# The cloud-hypervisor runtime

How an instance is started, suspended, resumed, cloned and stopped (`cloud_hypervisor_linux.go`,
`ch_lifecycle_linux.go` and `ch_template_linux.go` in `internal/runtime`).
-/

namespace Kindling

open Fallible

structure CloudHypervisorRuntime where
  binaryPath : String
  kernelPath : String
  initramfsPath : String
  /-- `sharedRootfsDir` is not blank. -/
  sharedRootfs : Bool := false
  advertiseHost : String := ""

def HostWorld.healthy (w : HostWorld) (id : Id) : Bool :=
  (w.instances id).any fun vm => (w.vms vm).cmd.any fun p => !p.waited

/-- A step of the host that can fail. -/
def hostStep (s : HostStep) : Go HostOp Unit := ofCall (.step s)

namespace CloudHypervisorRuntime

/-! ## Starting -/

def startHostBridgeForPort (r : CloudHypervisorRuntime) (ai hostPort : Nat) : Go HostOp Unit := do
  match applyAdvertisedHost (joinHostPort "0.0.0.0".toList (Nat.toDigits 10 hostPort))
      r.advertiseHost with
  | .error _ => throw (.of (.message "split host/port"))
  | .ok ip =>
    wrap (.wrap "start host tcp bridge") (hostStep .startBridgeHelper)
    wrap (.wrap "write bridge pid") (hostStep .writeBridgePid)
    wrap (.wrap "wait for host tcp bridge") (hostStep .waitForTCPPort)
    ofTotal (.setAddress ai hostPort ip)

def chTCPBridgeAutoPortAttempts : Nat := 3

/-- The loop of `setupHostBridge`, with the attempts left and the last error. -/
def allocateHostBridge (r : CloudHypervisorRuntime) (ai : Nat) :
    Nat → Option Err → Go HostOp Unit
  | 0, none => return
  | 0, some lastErr => throw lastErr
  | n + 1, _ => do
    let hostPort ← wrap (.wrap "allocate host tcp forward port") (ofCall .pickFreeTCPPort)
    ofTotal (.setHostPort ai hostPort)
    match ← attempt (r.startHostBridgeForPort ai hostPort) with
    | .ok _ => return
    | .error e => r.allocateHostBridge ai n (some e)

/-- A requested port that cannot be had is given up. -/
def setupHostBridge (r : CloudHypervisorRuntime) (ai requestedHostPort : Nat) : Go HostOp Unit := do
  if requestedHostPort > 0 then
    ofTotal (.setHostPort ai requestedHostPort)
    if let .ok _ ← attempt (r.startHostBridgeForPort ai requestedHostPort) then return
  r.allocateHostBridge ai chTCPBridgeAutoPortAttempts none

/-- The process is started before its id is written to a file. -/
def launchCHProcess (ai : Nat) (runtimeDir : Dir) : Go HostOp Unit := do
  wrap (.wrap "start cloud-hypervisor") (ofCall (.launch ai))
  wrap (.wrap "write vm pid") (ofCall (.writeVmPid runtimeDir ai))

/-- What `startPreparedVM` does before it registers the instance. -/
def prepareVM (inst : Id) (workDir : Dir) (workDisk : VmDisk) : Go HostOp Nat := do
  let runtimeDir := Dir.runtime inst
  ofTotal (.cleanupRuntimeArtifacts runtimeDir)
  ofTotal (.removeAll runtimeDir)
  ofCall (.ensureDir runtimeDir)
  let ai ← cleaningUp (ofTotal (.removeAll runtimeDir))
    (ofCall (.buildInstance inst workDir workDisk))
  let cleanup : Go HostOp Unit := do
    ofTotal (.cancel ai)
    ofTotal (.removeAll runtimeDir)
  cleaningUp cleanup (hostStep .startGuestVsockServer)
  cleaningUp cleanup (launchCHProcess ai runtimeDir)
  return ai

/-- What `startPreparedVM` does with the registered instance. An error cancels its process; the
goroutine that waits for the process starts after the last step that can fail. -/
def awaitGuest (r : CloudHypervisorRuntime) (inst : Id) (ai requestedHostPort : Nat) :
    Go HostOp (List Char) := do
  wrap (.wrap "wait for guest ready") <|
    cleaningUp (ofTotal (.cancel ai)) (hostStep .waitForGuestReady)
  let cleanup : Go HostOp Unit := do
    ofTotal (.cancel ai)
    ofTotal (.removeAll (.runtime inst))
  cleaningUp cleanup (r.setupHostBridge ai requestedHostPort)
  ofTotal (.readAddress ai)

def startPreparedVM (r : CloudHypervisorRuntime) (inst : Id) (workDir : Dir) (workDisk : VmDisk)
    (requestedHostPort : Nat) : Go HostOp (List Char) := do
  let ai ← prepareVM inst workDir workDisk
  ofTotal (.register inst ai)
  r.awaitGuest inst ai requestedHostPort

/-- The disk of a new instance is in its directory, or in the shared one. -/
def newDisk (r : CloudHypervisorRuntime) (inst : Id) (workDir : Dir) : Go HostOp VmDisk := do
  if r.sharedRootfs then
    hostStep .sharedDir
    return .shared inst
  return .file workDir

/-- What `startVM` does in the directory of the instance once there is one. -/
def fillWorkDir (r : CloudHypervisorRuntime) (inst : RuntimeInstance) (workDir : Dir) :
    Go HostOp VmDisk := do
  hostStep .exportImage
  let workDisk ← r.newDisk inst.id workDir
  ofTotal (.removeDisk workDisk)
  wrap (.wrap "virt-make-fs") (ofCall (.makeDisk workDisk))
  if inst.persistentVolume.isSome then hostStep .ensurePersistentVolumeDisk
  return workDisk

def startVM (r : CloudHypervisorRuntime) (inst : RuntimeInstance) : Go HostOp (List Char) := do
  let workDir := Dir.state inst.id
  let runtimeDir := Dir.runtime inst.id
  ofTotal (.cleanupRuntimeArtifacts runtimeDir)
  ofTotal (.removeAll runtimeDir)
  ofTotal (.removeAll workDir)
  wrap (.wrap "create work dir") (ofCall (.ensureDir workDir))
  let workDisk ← cleaningUp (ofTotal (.removeAll workDir)) (r.fillWorkDir inst workDir)
  r.startPreparedVM inst.id workDir workDisk 0

def start (r : CloudHypervisorRuntime) (inst : RuntimeInstance) : Go HostOp (List Char) := do
  wrap (.wrap s!"cloud-hypervisor not found at {r.binaryPath}") (hostStep (.stat r.binaryPath))
  wrap (.wrap s!"kernel not found at {r.kernelPath}") (hostStep (.stat r.kernelPath))
  wrap (.wrap s!"initramfs not found at {r.initramfsPath}") (hostStep (.stat r.initramfsPath))
  r.startVM inst

structure CloneMetadata where
  snapshotRef : Option Dir
  sharedRootfsRef : Option VmDisk
  cloneSourceVMID : Id

def sharedRootfsRefFromWorkDisk (r : CloudHypervisorRuntime) : VmDisk → Option VmDisk
  | .shared id => if r.sharedRootfs then some (.shared id) else none
  | .file _ => none

def startClone (r : CloudHypervisorRuntime) (inst : RuntimeInstance) (snapshotRef : Option Dir)
    (cloneSourceVMID : Id) : Go HostOp (List Char × CloneMetadata) := do
  match ← ofTotal (.resolveTemplate snapshotRef) with
  | none => throw (.of .instanceNotRunning)
  | some _ =>
    let workDir := Dir.state inst.id
    ofTotal (.removeAll workDir)
    ofCall (.ensureDir workDir)
    let workDisk ← r.newDisk inst.id workDir
    ofTotal (.removeDisk workDisk)
    ofCall (.makeDisk workDisk)
    let ip ← r.startPreparedVM inst.id workDir workDisk 0
    return (ip, ⟨snapshotRef, r.sharedRootfsRefFromWorkDisk workDisk, cloneSourceVMID⟩)

/-- The state of an instance that the process of the runtime no longer knows. -/
def loadCloudHypervisorSuspendedState (workDir : Dir) : Go HostOp SuspendedVm := do
  match ← ofCall (.readState workDir) with
  | none => throw (.of .instanceNotRunning)
  | some s => return { s with workDir, ociDir := none }

def resume (r : CloudHypervisorRuntime) (id : Id) : Go HostOp (List Char) := do
  let s ← match ← ofTotal (.takeSuspended id) with
    | some s => pure s
    | none => loadCloudHypervisorSuspendedState (.state id)
  let ip ← r.startPreparedVM id s.workDir s.workDisk s.hostPort
  ofTotal (.removeState s.workDir)
  return ip

def persistCloudHypervisorSuspendedState (workDir : Dir) : Option SuspendedVm → Go HostOp Unit
  | none => return
  | some s => do
    ofCall (.ensureDir workDir)
    ofCall (.writeState workDir s)

/-- The template that was made of an instance. -/
def removeTemplate (id : Id) : Go HostOp Unit := do
  ofTotal (.dropTemplate (.template id))
  ofTotal (.removeAll (.template id))

def stop (id : Id) : Go HostOp Unit := do
  match ← ofTotal (.stopTarget .cloudHypervisor id) with
  | .prepared workDir =>
    ofTotal (.cleanupRuntimeArtifacts workDir)
    ofTotal (.removeAll workDir)
  | .suspended s =>
    ofTotal (.removeAll s.workDir)
    ofTotal (.removeAll (.runtime id))
    removeTemplate id
  | .unknown =>
    ofTotal (.cleanupRuntimeArtifacts (.runtime id))
    ofTotal (.removeAll (.runtime id))
    ofTotal (.removeAll (.state id))
    removeTemplate id
  | .running ai => ofTotal (.cancel ai)

def suspend (id : Id) : Go HostOp Unit := do
  match ← ofTotal (.markSuspended id) with
  | none => return
  | some (ai, v) =>
    wrap (.wrap "stop instance for suspend") (stop id)
    match ← attempt (ofCall (.awaitStopped ai)) with
    | .ok _ =>
      let s ← ofTotal (.suspendedEntry id)
      wrap (.wrap "persist suspended state") (persistCloudHypervisorSuspendedState v.workDir s)
    | .error e =>
      let _ ← ofTotal (.dropSuspended id ai)
      throw e

/-- The goroutine that waits for the process of an instance. -/
def waitCH (id : Id) (ai : Nat) (workDir : Dir) : Go HostOp Unit := do
  ofTotal (.wait ai)
  ofTotal (.cleanupRuntimeArtifacts (.runtime id))
  ofTotal (.removeAll (.runtime id))
  let retain ← ofTotal (.unregister .cloudHypervisor id ai)
  if !retain then
    ofTotal (.removeAll workDir)
    ofTotal (.removeAll (.template id))
  ofTotal (.closeStopped ai)

end CloudHypervisorRuntime

end Kindling
