import Kindling.Runtime.Host

/-!
# The crun runtime

How a container is suspended and stopped, and what the goroutine does that waits for its process
(`internal/runtime/crun.go`). The working directory of a container is its bundle.
-/

namespace Kindling

open Fallible

namespace CrunRuntime

/-- The bundle and the image of a container; a clone has no image. -/
def removeContainer (bundleDir : Dir) (ociDir : Option Dir) : Go HostOp Unit := do
  ofTotal (.removeAll bundleDir)
  if let some dir := ociDir then ofTotal (.removeAll dir)

/-- The container of an unknown id, if there is one, is deleted by `crun`. -/
def stop (id : Id) : Go HostOp Unit := do
  match ← ofTotal (.stopTarget .crun id) with
  | .suspended s => removeContainer s.workDir s.ociDir
  | .running ci => ofTotal (.cancel ci)
  | .prepared _ | .unknown => removeContainer (.bundle id) (some (.oci id))

def suspend (id : Id) : Go HostOp Unit := do
  match ← ofTotal (.markSuspended id) with
  | none => return
  | some (ci, _) =>
    wrap (.wrap "stop container for suspend") (stop id)
    match ← attempt (ofCall (.awaitStopped ci)) with
    | .ok _ => return
    | .error e =>
      if let some s ← ofTotal (.dropSuspended id ci) then removeContainer s.workDir s.ociDir
      throw e

/-- The goroutine that waits for the process of a container. -/
def waitCrun (id : Id) (ci : Nat) (bundleDir : Dir) (ociDir : Option Dir) : Go HostOp Unit := do
  ofTotal (.wait ci)
  let retain ← ofTotal (.unregister .crun id ci)
  if !retain then removeContainer bundleDir ociDir
  ofTotal (.closeStopped ci)

end CrunRuntime

end Kindling
