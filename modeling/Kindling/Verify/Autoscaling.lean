import Kindling.Autoscale.Decision
import Kindling.Lib.Orbit
import Kindling.Rpc.Scaling
import Mathlib

/-!
# The autoscaler comes to rest, and who agrees with it

The two thresholds are apart: a usage low enough for a step down from `c` calls for at most `c - 1`
instances, and one that calls for `c` is too high for a step down from `c`. So the decision is one-way
as long as the floor does not exceed the maximum.
-/

namespace Kindling

theorem Arch.int32_le (arch : Arch) (h : x ≤ b) (hb : 0 ≤ b) : arch.int32 x ≤ b := by
  unfold Arch.int32
  by_cases hrange : -2 ^ 31 ≤ x ∧ x < 2 ^ 31
  · rw [if_pos hrange]
    exact h
  · cases arch with
    | amd64 =>
      dsimp only
      omega
    | arm64 =>
      dsimp only
      split_ifs <;> omega

theorem demand_le (arch : Arch) {up down x : ℚ} {n : Int} (hup : 0 < up) (hrates : down ≤ up)
    (hn : 0 ≤ n) (hx : x < n * down) : arch.int32 ⌈x / up⌉ ≤ n := by
  apply arch.int32_le _ hn
  rw [Int.ceil_le, div_le_iff₀ hup]
  have hn : (0 : ℚ) ≤ n := by exact_mod_cast hn
  nlinarith

/-- The usage is low enough for `n` instances: the condition of a step down to `n`. -/
def Metrics.Quiet (metrics : Metrics) (n : Int) : Prop :=
  metrics.avgRequestsPerMinute < n * 25 ∧ (metrics.hasCPU → metrics.totalCPUPercent < n * 35)

theorem shouldStepDown_iff : shouldStepDown c metrics ↔ 1 < c ∧ metrics.Quiet (c - 1) := by
  unfold shouldStepDown Metrics.Quiet httpScaleDownRequestsPerMinute cpuScaleDownPercentTotal
  by_cases hc : c ≤ 1
  · simp [hc.not_gt]
  · cases metrics.hasCPU <;> simp

/-! ## One decision -/

section decision

variable (arch : Arch) {proj : Project} (metrics : Metrics)

theorem nonZeroFloor_pos (hmax : 0 < proj.maxInstanceCount) : 1 ≤ nonZeroFloor proj := by
  unfold nonZeroFloor
  split_ifs <;> omega

theorem nonZeroFloor_le_iff (hmax : 0 < proj.maxInstanceCount) :
    nonZeroFloor proj ≤ proj.maxInstanceCount ↔ proj.minInstanceCount ≤ proj.maxInstanceCount := by
  unfold nonZeroFloor
  split_ifs <;> omega

theorem targetFromMetrics_le {metrics : Metrics} (hmax : 0 < proj.maxInstanceCount) {n : Int}
    (hn : nonZeroFloor proj ≤ n) (h : metrics.Quiet n) : targetFromMetrics arch proj metrics ≤ n := by
  have hfloor := nonZeroFloor_pos hmax
  have hhttp : arch.int32 ⌈metrics.avgRequestsPerMinute / httpScaleUpRequestsPerMinute⌉ ≤ n :=
    demand_le arch (by norm_num [httpScaleUpRequestsPerMinute])
      (by norm_num [httpScaleUpRequestsPerMinute]) (by omega) h.1
  have hcpu : (if metrics.hasCPU then
      arch.int32 ⌈metrics.totalCPUPercent / cpuScaleUpPercentTotal⌉ else 0) ≤ n := by
    split_ifs with hhas
    · exact demand_le arch (by norm_num [cpuScaleUpPercentTotal])
        (by norm_num [cpuScaleUpPercentTotal]) (by omega) (h.2 hhas)
    · omega
  unfold targetFromMetrics
  dsimp only
  generalize (if metrics.hasCPU then _ else (0 : Int)) = cpuTarget at hcpu ⊢
  split_ifs <;> omega

theorem targetFromMetrics_le_max (hmax : 0 < proj.maxInstanceCount) :
    targetFromMetrics arch proj metrics ≤ proj.maxInstanceCount := by
  unfold targetFromMetrics
  dsimp only
  split_ifs <;> omega

theorem clampTarget_eq (hmax : 0 < proj.maxInstanceCount)
    (hbounds : nonZeroFloor proj ≤ proj.maxInstanceCount) (c : Int) :
    clampTarget proj c = max (nonZeroFloor proj) (min c proj.maxInstanceCount) := by
  have hfloor := nonZeroFloor_pos hmax
  unfold clampTarget
  dsimp only
  split_ifs <;> omega

/-- What a decision does to a count between the bounds. -/
theorem stepFrom_cases (hmax : 0 < proj.maxInstanceCount) (hc : nonZeroFloor proj ≤ c) :
    (c < targetFromMetrics arch proj metrics ∧
      stepFrom arch proj metrics c = targetFromMetrics arch proj metrics) ∨
    (nonZeroFloor proj < c ∧ metrics.Quiet (c - 1) ∧ stepFrom arch proj metrics c = c - 1) ∨
    (targetFromMetrics arch proj metrics ≤ c ∧ ¬(nonZeroFloor proj < c ∧ metrics.Quiet (c - 1)) ∧
      stepFrom arch proj metrics c = c) := by
  have hfloor := nonZeroFloor_pos hmax
  unfold stepFrom
  by_cases hup : targetFromMetrics arch proj metrics > c
  · rw [if_pos hup]
    exact .inl ⟨hup, rfl⟩
  rw [if_neg hup, if_neg (by omega)]
  have hiff : (decide (c > nonZeroFloor proj) && shouldStepDown c metrics) = true ↔
      nonZeroFloor proj < c ∧ metrics.Quiet (c - 1) := by
    rw [Bool.and_eq_true, decide_eq_true_eq, shouldStepDown_iff]
    constructor
    · rintro ⟨hlt, -, hquiet⟩
      exact ⟨hlt, hquiet⟩
    · rintro ⟨hlt, hquiet⟩
      exact ⟨hlt, by omega, hquiet⟩
  by_cases hdown : nonZeroFloor proj < c ∧ metrics.Quiet (c - 1)
  · rw [if_pos (hiff.mpr hdown), if_neg (by omega)]
    exact .inr (.inl ⟨hdown.1, hdown.2, rfl⟩)
  · rw [if_neg (mt hiff.mp hdown)]
    exact .inr (.inr ⟨not_lt.mp hup, hdown, rfl⟩)

theorem stepFrom_target (hmax : 0 < proj.maxInstanceCount)
    (hlo : nonZeroFloor proj ≤ targetFromMetrics arch proj metrics) :
    stepFrom arch proj metrics (targetFromMetrics arch proj metrics) =
      targetFromMetrics arch proj metrics := by
  rcases stepFrom_cases arch metrics hmax hlo with ⟨hlt, -⟩ | ⟨hlt, hquiet, -⟩ | ⟨-, -, h⟩
  · exact absurd hlt (lt_irrefl _)
  · have hle := targetFromMetrics_le arch hmax (by omega) hquiet
    omega
  · exact h

/-- After a step down the usage calls for no step up. -/
theorem stepFrom_pred_le (hmax : 0 < proj.maxInstanceCount) {c : Int}
    (hlo : nonZeroFloor proj < c) (hquiet : metrics.Quiet (c - 1)) :
    stepFrom arch proj metrics (c - 1) ≤ c - 1 := by
  have hle := targetFromMetrics_le arch hmax (by omega) hquiet
  rcases stepFrom_cases arch metrics hmax (c := c - 1) (by omega) with
    ⟨hlt, -⟩ | ⟨-, -, h⟩ | ⟨-, -, h⟩
  · omega
  · omega
  · omega

end decision

/-- The decision as a function of the count the service has. -/
def decideFrom (arch : Arch) (proj : Project) (metrics : Metrics) (count : Int) : Int :=
  if proj.maxInstanceCount ≤ 0 then 0
  else stepFrom arch proj metrics (clampTarget proj count)

theorem computeDesiredInstanceCount_eq (arch : Arch) (proj : Project) (service : Option Service)
    (metrics : Metrics) : computeDesiredInstanceCount arch proj service metrics =
      decideFrom arch proj metrics (serviceDesiredReplicaCount proj service) := by
  unfold computeDesiredInstanceCount decideFrom clampCurrentTarget
  split_ifs <;> rfl

section decideFrom

variable (arch : Arch) {proj : Project} (metrics : Metrics)

theorem decideFrom_nonpos (hmax : proj.maxInstanceCount ≤ 0) (c : Int) :
    decideFrom arch proj metrics c = 0 :=
  if_pos hmax

/-- With a floor above the maximum the floor is chosen, whatever the count and the usage. -/
theorem decideFrom_floor (hmax : 0 < proj.maxInstanceCount)
    (hbounds : proj.maxInstanceCount < nonZeroFloor proj) (c : Int) :
    decideFrom arch proj metrics c = nonZeroFloor proj := by
  have hclamp : clampTarget proj c = proj.maxInstanceCount := by
    unfold clampTarget
    dsimp only
    split_ifs <;> omega
  have htarget := targetFromMetrics_le_max arch metrics hmax
  unfold decideFrom stepFrom
  rw [if_neg (by omega), hclamp, if_neg (by omega), if_pos hbounds]

variable (hmax : 0 < proj.maxInstanceCount) (hbounds : nonZeroFloor proj ≤ proj.maxInstanceCount)
include hmax hbounds

theorem decideFrom_bounds (c : Int) : nonZeroFloor proj ≤ decideFrom arch proj metrics c ∧
    decideFrom arch proj metrics c ≤ proj.maxInstanceCount := by
  have htarget := targetFromMetrics_le_max arch metrics hmax
  unfold decideFrom
  rw [clampTarget_eq hmax hbounds]
  rcases stepFrom_cases arch metrics hmax
    (le_max_left _ (min c proj.maxInstanceCount)) with ⟨hlt, h⟩ | ⟨hlt, -, h⟩ | ⟨-, -, h⟩ <;>
    rw [h] <;> omega

theorem decideFrom_of_mem (hlo : nonZeroFloor proj ≤ c) (hhi : c ≤ proj.maxInstanceCount) :
    decideFrom arch proj metrics c = stepFrom arch proj metrics c := by
  unfold decideFrom
  rw [if_neg (by omega), clampTarget_eq hmax hbounds, min_eq_left hhi, max_eq_right hlo]

theorem exists_decideFrom_eq (c : Int) : ∃ d, nonZeroFloor proj ≤ d ∧ d ≤ proj.maxInstanceCount ∧
    (c < d → d = nonZeroFloor proj) ∧ (d < c → d = proj.maxInstanceCount) ∧
    decideFrom arch proj metrics c = stepFrom arch proj metrics d := by
  refine ⟨max (nonZeroFloor proj) (min c proj.maxInstanceCount), ?_⟩
  have hstep : decideFrom arch proj metrics c = stepFrom arch proj metrics
      (max (nonZeroFloor proj) (min c proj.maxInstanceCount)) := by
    unfold decideFrom
    rw [if_neg (by omega), clampTarget_eq hmax hbounds]
  refine ⟨?_, ?_, ?_, ?_, hstep⟩ <;> omega

theorem decideFrom_oneWay : OneWay (decideFrom arch proj metrics) := by
  have htarget := targetFromMetrics_le_max arch metrics hmax
  constructor
  · intro c hrise
    obtain ⟨d, hlo, hhi, hbelow, -, hd⟩ := exists_decideFrom_eq arch metrics hmax hbounds c
    rw [hd] at hrise ⊢
    rcases stepFrom_cases arch metrics hmax hlo with ⟨hlt, h⟩ | ⟨hlt, -, h⟩ | ⟨-, -, h⟩
    · rw [h, decideFrom_of_mem arch metrics hmax hbounds (by omega) htarget]
      exact stepFrom_target arch metrics hmax (by omega)
    · -- a count below the floor is not lowered
      omega
    · rw [h, decideFrom_of_mem arch metrics hmax hbounds hlo hhi, h]
  · intro c hfall
    obtain ⟨d, hlo, hhi, -, habove, hd⟩ := exists_decideFrom_eq arch metrics hmax hbounds c
    rw [hd] at hfall ⊢
    rcases stepFrom_cases arch metrics hmax hlo with ⟨hlt, h⟩ | ⟨hlt, hquiet, h⟩ | ⟨-, -, h⟩
    · -- a count above the maximum is not raised
      omega
    · rw [h, decideFrom_of_mem arch metrics hmax hbounds (by omega) (by omega)]
      exact stepFrom_pred_le arch metrics hmax hlt hquiet
    · rw [h, decideFrom_of_mem arch metrics hmax hbounds hlo hhi, h]

end decideFrom

/-! ## Decision after decision -/

/-- The counts of the service `svc` when each decision is stored before the next is taken. -/
def counts (arch : Arch) (proj : Project) (svc : Service) (metrics : Metrics) : ℕ → Int
  | 0 => serviceDesiredReplicaCount proj (some svc)
  | k + 1 => computeDesiredInstanceCount arch proj
      (some { svc with desiredInstanceCount := counts arch proj svc metrics k }) metrics

/-- What is expected of counts that a decision between `floor` and `max` gives. -/
structure Steady (floor max : Int) (n : ℕ → Int) : Prop where
  within : ∀ k, floor ≤ n (k + 1) ∧ n (k + 1) ≤ max
  lowersByOne : ∀ k, n k - 1 ≤ n (k + 1)
  neverTurns : ∀ i j, ¬(n i < n (i + 1) ∧ n (j + 1) < n j)
  settles : ∃ k, ∀ j, k ≤ j → n j = n k

section counts

variable (arch : Arch) (proj : Project) (svc : Service) (metrics : Metrics)

theorem decideFrom_stored (c : Int) (hc : 0 < c ∨ c = serviceDesiredReplicaCount proj (some svc) ∨
      proj.maxInstanceCount ≤ 0) :
    computeDesiredInstanceCount arch proj (some { svc with desiredInstanceCount := c }) metrics =
      decideFrom arch proj metrics c := by
  rw [computeDesiredInstanceCount_eq]
  rcases hc with hpos | heq | hmax
  · simp [serviceDesiredReplicaCount, if_pos hpos]
  · congr 1
    unfold serviceDesiredReplicaCount at heq ⊢
    dsimp only at heq ⊢
    split_ifs at heq ⊢ <;> omega
  · rw [decideFrom_nonpos arch metrics hmax, decideFrom_nonpos arch metrics hmax]

theorem decideFrom_pos (hmax : 0 < proj.maxInstanceCount) (c : Int) :
    0 < decideFrom arch proj metrics c := by
  have hfloor := nonZeroFloor_pos hmax
  rcases le_or_gt (nonZeroFloor proj) proj.maxInstanceCount with hbounds | hbounds
  · have := decideFrom_bounds arch metrics hmax hbounds c
    omega
  · rw [decideFrom_floor arch metrics hmax hbounds]
    omega

theorem counts_eq (k : ℕ) : counts arch proj svc metrics k =
    (decideFrom arch proj metrics)^[k] (serviceDesiredReplicaCount proj (some svc)) := by
  induction k with
  | zero => rfl
  | succ k ih =>
    rw [Function.iterate_succ_apply', ← ih]
    apply decideFrom_stored
    cases k with
    | zero => exact .inr (.inl rfl)
    | succ k =>
      rcases le_or_gt proj.maxInstanceCount 0 with hmax | hmax
      · exact .inr (.inr hmax)
      · rw [ih, Function.iterate_succ_apply']
        exact .inl (decideFrom_pos arch proj metrics hmax _)

variable {proj} in
theorem nonZeroFloor_le_max_iff : nonZeroFloor proj ≤ proj.maxInstanceCount ↔
    0 ≤ proj.maxInstanceCount ∧
      (proj.maxInstanceCount = 0 ∨ proj.minInstanceCount ≤ proj.maxInstanceCount) := by
  unfold nonZeroFloor
  split_ifs <;> omega

variable {proj} (hbounds : nonZeroFloor proj ≤ proj.maxInstanceCount)
include hbounds

theorem max_zero_or_pos : proj.maxInstanceCount = 0 ∨ 0 < proj.maxInstanceCount := by
  have := (nonZeroFloor_le_max_iff.mp hbounds).1
  omega

theorem decideFrom_mem_Icc (c : Int) : decideFrom arch proj metrics c ∈
    Set.Icc (nonZeroFloor proj) proj.maxInstanceCount := by
  rcases max_zero_or_pos hbounds with hzero | hmax
  · rw [decideFrom_nonpos arch metrics hzero.le, Set.mem_Icc]
    omega
  · exact decideFrom_bounds arch metrics hmax hbounds c

theorem oneWay_of_bounds : OneWay (decideFrom arch proj metrics) := by
  rcases max_zero_or_pos hbounds with hzero | hmax
  · have hconst := decideFrom_nonpos arch metrics hzero.le
    constructor <;> intro c _ <;> rw [hconst, hconst]
  · exact decideFrom_oneWay arch metrics hmax hbounds

/-- Only a count above the maximum can be lowered by more than one. -/
theorem lowers_iff (c : Int) : c - 1 ≤ decideFrom arch proj metrics c ↔
    c ≤ proj.maxInstanceCount ∨ c = proj.maxInstanceCount + 1 ∧
      ¬(nonZeroFloor proj < proj.maxInstanceCount ∧ metrics.Quiet (proj.maxInstanceCount - 1)) := by
  rcases max_zero_or_pos hbounds with hzero | hmax
  · rw [decideFrom_nonpos arch metrics hzero.le]
    have hfloor : nonZeroFloor proj = 0 := if_pos hzero.le
    omega
  have htarget := targetFromMetrics_le_max arch metrics hmax
  obtain ⟨d, hlo, hhi, hbelow, habove, hd⟩ := exists_decideFrom_eq arch metrics hmax hbounds c
  rcases stepFrom_cases arch metrics hmax hlo with ⟨hlt, h⟩ | ⟨hlt, hquiet, h⟩ | ⟨-, hnot, h⟩
  · constructor
    · omega
    · omega
  · constructor
    · omega
    · rintro (hle | ⟨hc, hnot⟩)
      · omega
      · obtain rfl := habove (by omega)
        exact absurd ⟨hlt, hquiet⟩ hnot
  · constructor
    · intro hle
      rcases le_or_gt c proj.maxInstanceCount with hc | hc
      · exact .inl hc
      · obtain rfl := habove (by omega)
        exact .inr ⟨by omega, hnot⟩
    · omega

theorem steady_of_bounds (hstart : serviceDesiredReplicaCount proj (some svc) - 1 ≤
      decideFrom arch proj metrics (serviceDesiredReplicaCount proj (some svc))) :
    Steady (nonZeroFloor proj) proj.maxInstanceCount (counts arch proj svc metrics) := by
  have hiter : counts arch proj svc metrics = fun k =>
      (decideFrom arch proj metrics)^[k] (serviceDesiredReplicaCount proj (some svc)) :=
    funext (counts_eq arch proj svc metrics)
  have hway := oneWay_of_bounds arch metrics hbounds
  have hwithin : ∀ k, counts arch proj svc metrics (k + 1) ∈
      Set.Icc (nonZeroFloor proj) proj.maxInstanceCount := by
    intro k
    rw [counts_eq, Function.iterate_succ_apply']
    exact decideFrom_mem_Icc arch metrics hbounds _
  constructor
  · exact hwithin
  · intro k
    cases k with
    | zero =>
      rw [counts_eq, counts_eq]
      exact hstart
    | succ k =>
      rw [counts_eq arch proj svc metrics (k + 1 + 1), Function.iterate_succ_apply', ← counts_eq]
      exact (lowers_iff arch metrics hbounds _).mpr (.inl (hwithin k).2)
  · rw [hiter]
    exact hway.not_turns
  · rw [hiter]
    apply hway.settles
    apply ((Set.finite_Icc (nonZeroFloor proj) proj.maxInstanceCount).insert
      (serviceDesiredReplicaCount proj (some svc))).subset
    rintro _ ⟨k, rfl⟩
    cases k with
    | zero => exact .inl rfl
    | succ k => exact .inr (by simpa only [counts_eq] using hwithin k)

end counts

/-- The deployer and the API take the count `n` that is stored for a service as it is. -/
def CountAgreed (proj : Project) (svc : Service) (dep : Deployment) (n : Int) : Prop :=
  effectiveReplicaCount proj (some { svc with desiredInstanceCount := n }) dep = n ∧
    clampDesiredReplicaTarget n proj.minInstanceCount proj.maxInstanceCount = n

section agreement

variable {proj : Project} {dep : Deployment} (hkind : dep.kind = .production)
  (hawake : proj.scaledToZero = false)
include hkind hawake

theorem effectiveReplicaCount_production (service : Option Service) :
    effectiveReplicaCount proj service dep =
      clampDesiredReplicaCount proj (serviceDesiredReplicaCount proj service) := by
  unfold effectiveReplicaCount
  rw [hkind]
  dsimp only
  rw [hawake, if_neg Bool.false_ne_true, ite_self]

theorem countAgreed_iff (svc : Service) (hmax : 0 < proj.maxInstanceCount) (hn : 0 < n) :
    CountAgreed proj svc dep n ↔
      n ≤ proj.maxInstanceCount ∧ (nonZeroFloor proj ≤ n ∨ n = proj.maxInstanceCount) := by
  unfold CountAgreed
  rw [effectiveReplicaCount_production hkind hawake]
  simp only [clampDesiredReplicaCount, clampDesiredReplicaTarget, serviceDesiredReplicaCount,
    if_pos hn, nonZeroReplicaFloor, nonZeroProjectReplicaFloor, nonZeroFloor, if_neg hmax.not_ge]
  split_ifs <;> omega

theorem countAgreed_zero (svc : Service) (hmax : proj.maxInstanceCount ≤ 0) :
    CountAgreed proj svc dep 0 := by
  unfold CountAgreed
  rw [effectiveReplicaCount_production hkind hawake]
  exact ⟨if_pos hmax, if_pos hmax⟩

theorem countAgreed_decideFrom (arch : Arch) (svc : Service) (metrics : Metrics)
    (hbounds : nonZeroFloor proj ≤ proj.maxInstanceCount) (c : Int) :
    CountAgreed proj svc dep (decideFrom arch proj metrics c) := by
  rcases max_zero_or_pos hbounds with hzero | hmax
  · rw [decideFrom_nonpos arch metrics hzero.le]
    exact countAgreed_zero hkind hawake svc hzero.le
  · have hpos := decideFrom_pos arch proj metrics hmax c
    have hmem := decideFrom_bounds arch metrics hmax hbounds c
    exact (countAgreed_iff hkind hawake svc hmax hpos).mpr ⟨hmem.2, .inl hmem.1⟩

end agreement

/-- **The three packages agree.** The count that the autoscaler chooses for a production service that
is not scaled to zero is the one the deployer converges to once it is stored, and the API's clamp keeps
it, exactly if the project has no positive maximum below its minimum. -/
theorem chosen_count_agreed_iff (arch : Arch) (proj : Project) (svc : Service) (metrics : Metrics)
    (dep : Deployment) (hkind : dep.kind = .production) (hawake : proj.scaledToZero = false) :
    CountAgreed proj svc dep (computeDesiredInstanceCount arch proj (some svc) metrics) ↔
      proj.maxInstanceCount ≤ 0 ∨ proj.minInstanceCount ≤ proj.maxInstanceCount := by
  rw [computeDesiredInstanceCount_eq]
  generalize serviceDesiredReplicaCount proj (some svc) = c
  rcases le_or_gt proj.maxInstanceCount 0 with hmax | hmax
  · rw [decideFrom_nonpos arch metrics hmax]
    exact iff_of_true (countAgreed_zero hkind hawake svc hmax) (.inl hmax)
  have hpos := decideFrom_pos arch proj metrics hmax c
  rw [countAgreed_iff hkind hawake svc hmax hpos, or_iff_right hmax.not_ge,
    ← nonZeroFloor_le_iff hmax]
  constructor
  · rintro ⟨hle, -⟩
    by_contra hbounds
    rw [decideFrom_floor arch metrics hmax (not_le.mp hbounds)] at hle
    exact hbounds hle
  · intro hbounds
    have hagreed := countAgreed_decideFrom hkind hawake arch svc metrics hbounds c
    exact (countAgreed_iff hkind hawake svc hmax hpos).mp hagreed

/-- A project with bounds from two to four, for which four instances are chosen and kept. -/
theorem four_instances_agreed :
    let proj : Project := { id := 1, minInstanceCount := 2, maxInstanceCount := 4 }
    CountAgreed proj { id := 2, projectId := 1 } { id := 3, projectId := 1 }
      (computeDesiredInstanceCount .amd64 proj (some { id := 2, projectId := 1 })
        { avgRequestsPerMinute := 1000 }) :=
  (chosen_count_agreed_iff .amd64 _ _ _ _ rfl rfl).mpr (.inr (by decide))

/-- With bounds from five to three the autoscaler stores five; the deployer converges to three. -/
theorem inverted_bounds_disagree :
    let proj : Project := { id := 1, minInstanceCount := 5, maxInstanceCount := 3 }
    ¬CountAgreed proj { id := 2, projectId := 1 } { id := 3, projectId := 1 }
      (computeDesiredInstanceCount .amd64 proj (some { id := 2, projectId := 1 })
        { avgRequestsPerMinute := 0 }) := by
  rintro proj ⟨hdeployer, -⟩
  revert hdeployer
  decide +kernel

end Kindling
