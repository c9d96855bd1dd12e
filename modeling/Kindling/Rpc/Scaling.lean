import Kindling.Database.Rows

/-!
# Scaling bounds of the project API

The checks and clamps of `internal/rpc/project_crud.go` on the replica bounds of a project.
-/

namespace Kindling

def validateProjectScalingBounds (min max : Int) : Except String Unit :=
  if min < 0 then .error "min_instance_count must be at least 0"
  else if max < 0 then .error "max_instance_count must be at least 0"
  else if min > max then
    .error "min_instance_count must be less than or equal to max_instance_count"
  else .ok ()

def nonZeroProjectReplicaFloor (min max : Int) : Int :=
  if max ≤ 0 then 0
  else if min > 1 then min
  else 1

def clampDesiredReplicaTarget (desired min max : Int) : Int :=
  if max ≤ 0 then 0
  else
    let floor := nonZeroProjectReplicaFloor min max
    let desired := if desired < floor then floor else desired
    if desired > max then max else desired

theorem validateProjectScalingBounds_eq_ok {min max : Int} :
    validateProjectScalingBounds min max = .ok () ↔ 0 ≤ min ∧ min ≤ max := by
  unfold validateProjectScalingBounds
  constructor
  · intro h
    split_ifs at h
    omega
  · rintro ⟨hmin, hmax⟩
    rw [if_neg (by omega), if_neg (by omega), if_neg (by omega)]

end Kindling
