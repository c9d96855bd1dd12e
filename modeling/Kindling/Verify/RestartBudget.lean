import Kindling.Verify.Draining

/-!
# The restart budget

The budget is meant to be a number of restarts within a window of time. The row of an instance holds
only how many restarts there were since the last reset and when the last one was.
-/

namespace Kindling

open Fallible

variable {i : Id} {t : InstanceTable} {h h' : RestartHistory} {now : Time}

def InstanceStmt.restarts (i : Id) (t : InstanceTable) : InstanceStmt β → Bool
  | .prepareRetry j => j == i &&
    (t.find? i).any fun r => r.undeleted && decide (r.restartCount < maxInt)
  | _ => false

def InstanceStmt.clears (i : Id) (t : InstanceTable) : InstanceStmt β → Bool
  | .resetForDeadServer s => (t.find? i).any fun r => r.serverId == some s && r.undeleted
  | _ => false

/-- The instance table at some time, with the times at which one instance was restarted until then,
the latest first: all of them, and those since the last reset. -/
structure RestartHistory where
  instances : InstanceTable
  clock : Time
  all : List Time
  since : List Time

/-- The history after a statement that took effect. -/
def RestartHistory.after (h : RestartHistory) (i : Id) (s : InstanceStmt β) (now : Time) :
    RestartHistory where
  instances := (s.exec now h.instances).2
  clock := now
  all := if s.restarts i h.instances then now :: h.all else h.all
  since :=
    if s.restarts i h.instances then now :: h.since
    else if s.clears i h.instances then [] else h.since

/-- One statement on the instance table, at a time that is not before the last one. -/
inductive RestartHistory.Step (i : Id) : RestartHistory → RestartHistory → Prop
  | stmt (h : RestartHistory) {β : Type} (s : InstanceStmt β) (now : Time) (later : h.clock ≤ now) :
      Step i h (h.after i s now)

def RestartHistory.start (t : InstanceTable) (clock : Time) : RestartHistory := ⟨t, clock, [], []⟩

/-- The history covers the whole life of the instance `i`. -/
def RestartHistory.Complete (i : Id) (h : RestartHistory) : Prop :=
  ∃ t clock, t.find? i = none ∧ Relation.ReflTransGen (Step i) (start t clock) h

theorem RestartHistory.Complete.start (hnew : t.find? i = none) (clock : Time) :
    (RestartHistory.start t clock).Complete i :=
  ⟨t, clock, hnew, .refl⟩

theorem RestartHistory.Complete.after (hh : h.Complete i) (s : InstanceStmt β)
    (later : h.clock ≤ now) : (h.after i s now).Complete i := by
  obtain ⟨t, clock, hnew, hrun⟩ := hh
  exact ⟨t, clock, hnew, hrun.tail (.stmt h s now later)⟩

/-! ## What the row remembers -/

/-- The columns of an instance that the restart budget is computed from. -/
def DeploymentInstance.budget (r : DeploymentInstance) : Nat × Option Time :=
  (r.restartCount, r.lastRestartAt)

/-- The effect of one statement on these columns. -/
theorem InstanceStmt.budget_exec (s : InstanceStmt β) (now : Time) (hr : t.find? i = some r) :
    ((s.exec now t).2.find? i).map (·.budget) =
      some (if s.restarts i t then (r.restartCount + 1, some now)
        else if s.clears i t then (0, none) else r.budget) := by
  have hid : r.id = i := Table.find?_key hr
  rw [s.find?_exec now hr]
  cases s with
  | resetForDeadServer srv =>
    have hclears : (resetForDeadServer srv).clears i t = (resetForDeadServer srv).targets r := by
      rw [clears, hr, Option.any_some, targets]
    rw [hclears]
    generalize (resetForDeadServer srv).targets r = b
    cases b <;> rfl
  | prepareRetry j =>
    have hrestarts : (prepareRetry j).restarts i t = (prepareRetry j).targets r := by
      rw [restarts, hr, Option.any_some, targets, hid, Bool.and_assoc, BEq.comm]
    rw [hrestarts]
    generalize (prepareRetry j).targets r = b
    cases b <;> rfl
  | _ =>
    split <;> rfl

theorem InstanceStmt.budget_created (s : InstanceStmt β) (now : Time) (hnew : t.find? i = none)
    (hr : (s.exec now t).2.find? i = some r) :
    r.budget = (0, none) := by
  rcases s.find?_exec_new now hnew with h | ⟨dep, h⟩
  · cases h.symm.trans hr
  · cases h.symm.trans hr
    rfl

/-- What the row of an instance remembers of its history: how many restarts there were since the last
reset, and when the last of them was. -/
structure Remembers (i : Id) (h : RestartHistory) : Prop where
  budget : ∀ r, h.instances.find? i = some r → r.budget = (h.since.length, h.since.head?)
  new : h.instances.find? i = none → h.since = []
  recent : h.since <+: h.all
  ordered : (h.clock :: h.all).Pairwise (· ≥ ·)

theorem Remembers.start (hnew : t.find? i = none) (clock : Time) :
    Remembers i (.start t clock) := by
  refine ⟨fun r hr => ?_, fun _ => rfl, List.nil_prefix, List.pairwise_singleton _ _⟩
  cases hnew.symm.trans hr

theorem Remembers.step (hs : RestartHistory.Step i h h') (ih : Remembers i h) : Remembers i h' := by
  obtain ⟨s, now, later⟩ := hs
  have hordered : (now :: h.all).Pairwise (· ≥ ·) := by
    refine .cons (fun x hx => ?_) (List.pairwise_cons.mp ih.ordered).2
    exact Nat.le_trans ((List.pairwise_cons.mp ih.ordered).1 x hx) later
  have hordered' : (now :: (h.after i s now).all).Pairwise (· ≥ ·) := by
    dsimp only [RestartHistory.after]
    split
    · exact .cons (fun x hx => (List.mem_cons.mp hx).elim (fun h => h ▸ Nat.le_refl _)
        fun hx => (List.pairwise_cons.mp hordered).1 x hx) hordered
    · exact hordered
  cases ht : h.instances.find? i with
  | none =>
    -- there is no row yet, so the statement neither restarts nor resets it
    have hrestarts : s.restarts i h.instances = false := by
      cases s <;> simp [InstanceStmt.restarts, ht]
    have hsince : (h.after i s now).since = [] := by
      simp [RestartHistory.after, hrestarts, ih.new ht]
    refine ⟨fun r hr => ?_, fun _ => hsince, hsince ▸ List.nil_prefix, hordered'⟩
    rw [s.budget_created now ht hr, hsince]
    rfl
  | some r =>
    have hbudget := s.budget_exec now ht
    have hr := ih.budget r ht
    refine ⟨fun r' hr' => ?_, fun hnone => ?_, ?_, hordered'⟩
    · have hr'' : (s.exec now h.instances).2.find? i = some r' := hr'
      rw [hr'', Option.map_some, Option.some.injEq] at hbudget
      rw [hbudget]
      dsimp only [RestartHistory.after]
      split
      · rw [List.length_cons, List.head?_cons, ← (Prod.mk.inj hr).1]
      · split
        · rfl
        · exact hr
    · have hnone' : (s.exec now h.instances).2.find? i = none := hnone
      rw [hnone'] at hbudget
      cases hbudget
    · dsimp only [RestartHistory.after]
      split
      · exact List.cons_prefix_cons.mpr ⟨rfl, ih.recent⟩
      · split
        · exact List.nil_prefix
        · exact ih.recent

theorem Remembers.run (ih : Remembers i h)
    (hrun : Relation.ReflTransGen (RestartHistory.Step i) h h') : Remembers i h' := by
  induction hrun with
  | refl => exact ih
  | tail _ hs ih => exact ih.step hs

theorem RestartHistory.Complete.remembers (hh : h.Complete i) : Remembers i h := by
  obtain ⟨t, clock, hnew, hrun⟩ := hh
  exact (Remembers.start hnew clock).run hrun

theorem RestartHistory.run_clock (hrun : Relation.ReflTransGen (Step i) h h') :
    h.clock ≤ h'.clock := by
  induction hrun with
  | refl => exact Nat.le_refl _
  | tail _ hs ih =>
    obtain ⟨_, _, later⟩ := hs
    exact Nat.le_trans ih later

def inRestartWindow (now r : Time) : Bool :=
  decide (r ≤ now) && decide (now < r + restartBudgetSeconds * second)

/-- In a list ordered so that `p` holds on a first part, `p` holds more than `n` times exactly when it
holds at position `n`. -/
theorem lt_countP_iff {l : List α} (h : l.Pairwise fun x y => p y = true → p x = true) (n : Nat) :
    n < l.countP p ↔ ∃ x, l[n]? = some x ∧ p x = true := by
  induction l generalizing n with
  | nil => simp
  | cons a l ih =>
    obtain ⟨ha, hl⟩ := List.pairwise_cons.mp h
    cases hp : p a with
    | true =>
      rw [List.countP_cons_of_pos hp]
      cases n with
      | zero => simp [hp]
      | succ n => simpa using ih hl n
    | false =>
      have hnone : ∀ x ∈ l, ¬p x = true := fun x hx hpx => by rw [ha x hx hpx] at hp; cases hp
      rw [List.countP_cons_of_neg (by simp [hp]), List.countP_eq_zero.mpr hnone]
      constructor
      · exact fun h => absurd h (Nat.not_lt_zero n)
      · rintro ⟨x, hx, hpx⟩
        rcases List.mem_cons.mp (List.mem_of_getElem? hx) with rfl | hx
        · rw [hp] at hpx
          cases hpx
        · exact absurd hpx (hnone x hx)

theorem lt_countP_window (h : (now :: all).Pairwise (· ≥ ·)) (n : Nat) :
    n < all.countP (inRestartWindow now) ↔ ∃ r, all[n]? = some r ∧ inRestartWindow now r = true := by
  obtain ⟨hnow, hall⟩ := List.pairwise_cons.mp h
  refine lt_countP_iff (hall.imp_of_mem fun {x y} hx _ hxy hy => ?_) n
  simp only [inRestartWindow, Bool.and_eq_true, decide_eq_true_eq] at hy ⊢
  exact ⟨hnow x hx, Nat.lt_of_lt_of_le hy.2 (Nat.add_le_add_right hxy _)⟩

/-- Restarting an instance breaks a closed circuit exactly when the budget of the row it holds is
exceeded and the statement does not fail. -/
theorem restartInstance_circuit (d : Deployer) (rc : ReconcileContext) (ref : String)
    (src : Option Id) (inst : DeploymentInstance) (as : List Answer)
    (hD : w.deployments.find? rc.dep.id = some D) (hlive : D.deletedAt = none)
    (hclosed : D.circuitBroken = false) :
    ((restartInstance d rc ref src inst).outcome as w).state.circuitBroken rc.dep.id =
      (restartBudgetExceeded inst false (as.headD default).now && !(as.tail.headD default).fail) := by
  have hbefore : w.circuitBroken rc.dep.id = false := by
    rw [World.circuitBroken, hD]
    exact hclosed
  change (Fallible.outcome (if restartBudgetExceeded inst false (as.headD default).now = true then _
    else _) as.tail w).state.circuitBroken rc.dep.id = _
  cases hexceeded : restartBudgetExceeded inst false (as.headD default).now with
  | true =>
    rw [if_pos rfl, outcome_bind, discard_outcome, deploymentStmt_outcome]
    cases hfail : (as.tail.headD default).fail with
    | true => exact hbefore
    | false =>
      have happ : (DeploymentStmt.circuitBreak rc.dep.id).applies D = true := by
        simp [DeploymentStmt.applies, hlive, hclosed]
      have h := (DeploymentStmt.circuitBreak rc.dep.id).find?_exec_self (as.tail.headD default).now
        hD happ
      exact congrArg (fun o => (Option.map (·.circuitBroken) o).getD false) h
  | false =>
    refine .trans ?_ hbefore
    rw [World.circuitBroken, World.circuitBroken, SparesDeployments.outcome ?_ as.tail w]
    refine .bind (.ofCall trivial) fun _ => .bind (.ofCall trivial) fun _ => ?_
    split
    · exact .pure
    · exact .ofCall trivial

/-- The budget of a row, in terms of the history of the instance until the row was read. -/
theorem Remembers.exceeded_iff (hh : Remembers inst.id h)
    (hinst : h.instances.find? inst.id = some inst) (hnow : h.clock ≤ now) :
    restartBudgetExceeded inst false now = true ↔
      maxRestartCount ≤ h.since.length ∧ ∃ r ∈ h.since.head?, inRestartWindow now r = true := by
  obtain ⟨hcount, hlast⟩ := Prod.mk.inj (hh.budget inst hinst)
  rw [restartBudgetExceeded, hcount, hlast]
  by_cases hlt : h.since.length < maxRestartCount
  · simp [hlt]
  · cases hsince : h.since with
    | nil =>
      rw [hsince] at hlt
      exact absurd (by decide) hlt
    | cons r rest =>
      have hr : r ≤ now := by
        have hmem : r ∈ h.all := hh.recent.subset (hsince ▸ List.mem_cons_self)
        exact Nat.le_trans ((List.pairwise_cons.mp hh.ordered).1 r hmem) hnow
      simp [inRestartWindow, hr]

theorem Remembers.ordered_until (hh : Remembers i h) (hnow : h.clock ≤ now) :
    (now :: h.all).Pairwise (· ≥ ·) := by
  obtain ⟨hclock, hall⟩ := List.pairwise_cons.mp hh.ordered
  exact .cons (fun r hr => Nat.le_trans (hclock r hr) hnow) hall

/-- **What the circuit breaker counts.** An instance is restarted with the row that was read in
history `h`, and statements may have run since. The circuit breaks only with enough restarts in the
window exactly if the statement fails, the row saw fewer restarts since the last reset, the last one
it saw is not in the window any more, or the latest restarts, as many as the budget allows, all lie
in the window. -/
theorem circuit_trips_within_window_iff {d : Deployer} {rc : ReconcileContext} {ref : String}
    {src : Option Id} {inst : DeploymentInstance} {as : List Answer} {w : World} {D : Deployment}
    {h : RestartHistory} {clock : Time} {all since : List Time} (hist : h.Complete inst.id)
    (hinst : h.instances.find? inst.id = some inst)
    (hrun : Relation.ReflTransGen (RestartHistory.Step inst.id) h ⟨w.instances, clock, all, since⟩)
    (hclock : clock ≤ (as.headD default).now)
    (hD : w.deployments.find? rc.dep.id = some D) (hlive : D.deletedAt = none)
    (hclosed : D.circuitBroken = false) :
    (((restartInstance d rc ref src inst).outcome as w).state.circuitBroken rc.dep.id = true →
        maxRestartCount ≤ all.countP (inRestartWindow (as.headD default).now)) ↔
      (as.tail.headD default).fail = true ∨ h.since.length < maxRestartCount ∨
        (∀ r ∈ h.since.head?, inRestartWindow (as.headD default).now r = false) ∨
        ∃ r, all[maxRestartCount - 1]? = some r ∧
          inRestartWindow (as.headD default).now r = true := by
  have hmem := hist.remembers
  have hexceeded := hmem.exceeded_iff hinst (Nat.le_trans (RestartHistory.run_clock hrun) hclock)
  have hcount := lt_countP_window ((hmem.run hrun).ordered_until hclock) (maxRestartCount - 1)
  have hmax : maxRestartCount - 1 < all.countP (inRestartWindow (as.headD default).now) ↔
      maxRestartCount ≤ all.countP (inRestartWindow (as.headD default).now) := Nat.lt_iff_add_one_le
  rw [restartInstance_circuit d rc ref src inst as hD hlive hclosed, Bool.and_eq_true, hexceeded,
    ← hmax, hcount]
  generalize (as.headD default).now = now
  cases (as.tail.headD default).fail with
  | true => simp
  | false =>
    by_cases hlt : h.since.length < maxRestartCount
    · simp [hlt, Nat.not_le.mpr hlt]
    · cases h.since.head? with
      | none => simp
      | some r => cases hr : inRestartWindow now r <;> simp [hlt, hr, Nat.le_of_not_lt hlt]

def restartsEvery (interval : Time) : RestartHistory :=
  ((((RestartHistory.start ⟨[], List.nodup_nil⟩ 0).after 20 (.create 20 10) 0).after 20
    (.prepareRetry 20) interval).after 20 (.prepareRetry 20) (2 * interval)).after 20
      (.prepareRetry 20) (3 * interval)

def restartedRow (interval : Time) : DeploymentInstance :=
  { id := 20, deploymentId := 10, restartCount := 3, lastRestartAt := some (3 * interval) }

theorem restartsEvery_complete : (restartsEvery interval).Complete 20 :=
  (((RestartHistory.Complete.start rfl 0).after _ (Nat.le_refl 0) |>.after _ (Nat.zero_le _)).after _
    (Nat.le_mul_of_pos_left interval (by decide))).after _
      (Nat.mul_le_mul_right interval (by decide))

/-- The deployment of this instance, which is about to be restarted once more. -/
def crashingWorld (interval : Time) : World := { oneServerWorld with
    deployments := .single newDeployment
    instances := (restartsEvery interval).instances }

def crashingContext : ReconcileContext where
  dep := newDeployment
  proj := { id := 1 }
  service := none
  desired := 1
  persistentVolume := none

/-- An instance that was restarted every thousand seconds trips the breaker ten seconds after the last
of three restarts, in a restart and in a whole pass, with one restart in the window. -/
theorem slow_restarts_trip_circuit :
    (restartsEvery (1000 * second)).Complete 20 ∧
    (crashingWorld (1000 * second)).instances.find? 20 = some (restartedRow (1000 * second)) ∧
    ((restartInstance { serverId := 5 } crashingContext "" none (restartedRow (1000 * second))).outcome
      [{ now := 3010 * second }] (crashingWorld (1000 * second))).state.circuitBroken 10 = true ∧
    ((reconcileDeployment { serverId := 5 } 10).outcome (List.replicate 64 { now := 3010 * second })
      (crashingWorld (1000 * second))).state.circuitBroken 10 = true ∧
    (restartsEvery (1000 * second)).all.countP (inRestartWindow (3010 * second)) = 1 ∧
    1 < maxRestartCount :=
  ⟨restartsEvery_complete, by decide +kernel, by decide +kernel, by decide +kernel,
    by decide +kernel, by decide⟩

/-- An instance that was restarted every ten seconds trips it with three restarts in the window. -/
theorem fast_restarts_trip_circuit : (restartsEvery (10 * second)).Complete 20 ∧
    (((restartInstance { serverId := 5 } crashingContext "" none (restartedRow (10 * second))).outcome
      [{ now := 31 * second }] (crashingWorld (10 * second))).state.circuitBroken 10 = true →
    maxRestartCount ≤ (restartsEvery (10 * second)).all.countP (inRestartWindow (31 * second))) :=
  ⟨restartsEvery_complete, (circuit_trips_within_window_iff (h := restartsEvery (10 * second))
    (D := newDeployment) restartsEvery_complete (by decide +kernel) .refl (by decide)
    rfl rfl rfl).mpr (.inr (.inr (.inr ⟨10 * second, by decide +kernel, by decide +kernel⟩)))⟩

end Kindling
