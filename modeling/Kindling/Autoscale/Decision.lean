import Mathlib.Data.Rat.Floor
import Kindling.Deploy.Lifecycle

/-!
# The autoscaler's decision

The pure part of `internal/autoscale`: the replica count a service has, the count its HTTP and CPU
usage calls for, and the count the autoscaler stores next. The `float64` metrics are rationals; the
conversion of a ceiling to `int32` is the one of the processor the program is compiled for, which
matters for a value that does not fit.
-/

namespace Kindling

/-- What Go's conversion to `int32` gives for a value out of range depends on the processor. -/
inductive Arch where
  | amd64
  | arm64
  deriving DecidableEq, Repr

def Arch.int32 (arch : Arch) (x : Int) : Int :=
  if -2 ^ 31 ≤ x ∧ x < 2 ^ 31 then x
  else
    match arch with
    | .amd64 => -2 ^ 31
    | .arm64 => if x < 0 then -2 ^ 31 else 2 ^ 31 - 1

def httpScaleUpRequestsPerMinute : ℚ := 60

def cpuScaleUpPercentTotal : ℚ := 65

def httpScaleDownRequestsPerMinute : ℚ := 25

def cpuScaleDownPercentTotal : ℚ := 35

/-- The metrics of one decision: requests per minute, and the CPU percentages of the instances added
up where any was sampled. -/
structure Metrics where
  avgRequestsPerMinute : ℚ
  totalCPUPercent : ℚ := 0
  hasCPU : Bool := false
  deriving DecidableEq, Repr

def nonZeroFloor (proj : Project) : Int :=
  if proj.maxInstanceCount ≤ 0 then 0
  else if proj.minInstanceCount > 1 then proj.minInstanceCount
  else 1

def clampTarget (proj : Project) (target : Int) : Int :=
  let floor := nonZeroFloor proj
  let target := if target < floor then floor else target
  let target := if target > proj.maxInstanceCount then proj.maxInstanceCount else target
  if target < 0 then 0 else target

def clampCurrentTarget (proj : Project) (service : Option Service) : Int :=
  if proj.maxInstanceCount ≤ 0 then 0
  else clampTarget proj (serviceDesiredReplicaCount proj service)

def targetFromMetrics (arch : Arch) (proj : Project) (metrics : Metrics) : Int :=
  if proj.maxInstanceCount ≤ 0 then 0
  else
    let floor := nonZeroFloor proj
    let httpTarget := arch.int32 ⌈metrics.avgRequestsPerMinute / httpScaleUpRequestsPerMinute⌉
    let cpuTarget :=
      if metrics.hasCPU then arch.int32 ⌈metrics.totalCPUPercent / cpuScaleUpPercentTotal⌉ else 0
    let target := if httpTarget > floor then httpTarget else floor
    let target := if cpuTarget > target then cpuTarget else target
    if target > proj.maxInstanceCount then proj.maxInstanceCount else target

def shouldStepDown (current : Int) (metrics : Metrics) : Bool :=
  if current ≤ 1 then false
  else
    let httpOK := decide
      (metrics.avgRequestsPerMinute < ((current - 1 : Int) : ℚ) * httpScaleDownRequestsPerMinute)
    let cpuOK := !metrics.hasCPU ||
      decide (metrics.totalCPUPercent < ((current - 1 : Int) : ℚ) * cpuScaleDownPercentTotal)
    httpOK && cpuOK

/-- The count that is stored next when the service's count is `current` after clamping. -/
def stepFrom (arch : Arch) (proj : Project) (metrics : Metrics) (current : Int) : Int :=
  let floor := nonZeroFloor proj
  let upTarget := targetFromMetrics arch proj metrics
  if upTarget > current then upTarget
  else if current < floor then floor
  else if current > floor && shouldStepDown current metrics then
    let next := current - 1
    if next < floor then floor else next
  else current

def computeDesiredInstanceCount (arch : Arch) (proj : Project) (service : Option Service)
    (metrics : Metrics) : Int :=
  let current := clampCurrentTarget proj service
  if proj.maxInstanceCount ≤ 0 then 0
  else stepFrom arch proj metrics current

end Kindling
