import Kindling.Deploy.Reconcile

/-!
# Executions of single calls

What one read, statement or step does to the state, at each of the levels it can be made.
-/

namespace Kindling

open Fallible

variable {key : ρ → κ} {get : World → τ} {set : τ → World → World}

variable {as as' : List Answer} {w w' : World} {G : Prog.Guard Op Answer World}

instance : Replayable Op where
  rest_nil op w := by
    cases op with
    | tx p =>
      simp only [Effect.exec, Op.exec]
      split
      · exact Prog.run_rest_nil p w
      · split <;> rw [Prog.run_rest_nil] <;> rfl
    | _ => rfl
  replay op as w := by
    cases op with
    | db s => exact Replayable.replay s as w
    | tx p =>
      obtain ⟨pre, hpre⟩ := Prog.run_replay p as w
      cases hv : (p.run as w).value with
      | error e =>
        refine ⟨pre, fun more => ?_⟩
        simp only [Effect.exec, Op.exec, hpre, hv]
      | ok v =>
        refine ⟨pre ++ [(p.run as w).rest.headD default], fun more => ?_⟩
        simp only [Effect.exec, Op.exec, List.append_assoc, hpre, hv, List.cons_append,
          List.nil_append, List.headD_cons, List.tail_cons]
        split <;> rfl
    | runtime | healthCheck | now => exact ⟨[as.headD default], fun _ => rfl⟩
    | scheduleRetry | scheduleServer => exact ⟨[], fun _ => rfl⟩

instance : Replayable Action where
  rest_nil a w := Prog.run_rest_nil a.prog w
  replay a as w := Prog.run_replay a.prog as w

/-- A signature whose reads see the database and leave it alone. -/
class LawfulReads (E : Type → Type 1) [Reads E] [Effect E Answer World] : Prop where
  exec_read {β : Type} (q : Query β) (as : List Answer) (w : World) :
    Effect.exec (Reads.read q : E (Except Err β)) as w =
      ⟨if (as.headD default).fail then .error (.of .unavailable)
        else q.eval (as.headD default).now w, w, as.tail⟩

instance : LawfulReads Stmt := ⟨fun _ _ _ => rfl⟩
instance : LawfulReads Op := ⟨fun _ _ _ => rfl⟩
instance : LawfulReads Action := ⟨fun _ _ _ => rfl⟩

section reads
variable {E : Type → Type 1} [Reads E] [Effect E Answer World] [LawfulReads E]

theorem query_outcome :
    (query q : Go E β).outcome as w = ⟨if (as.headD default).fail then .error (.of .unavailable)
        else q.eval (as.headD default).now w, w, as.tail⟩ :=
  LawfulReads.exec_read q as w

theorem query_ok (h : (query q : Go E β).outcome as w = ⟨.ok b, w', as'⟩) :
    q.eval (as.headD default).now w = .ok b ∧ w' = w ∧ as' = as.tail := by
  rw [query_outcome] at h
  simp only [Outcome.mk.injEq] at h
  obtain ⟨hv, rfl, rfl⟩ := h
  split at hv
  · cases hv
  · exact ⟨hv, rfl, rfl⟩

/-- A read leaves the state alone, and returns what the query evaluates to. -/
theorem read_ensures {G : Prog.Guard E Answer World} :
    Ensures G (query q : Go E β)
      (Yields (fun b w' => w' = w ∧ ∃ now, q.eval now w = .ok b) fun w' => w' = w) w := by
  refine .ofCall fun as _ => ?_
  rw [LawfulReads.exec_read]
  split
  · exact rfl
  · cases heval : q.eval (as.headD default).now w with
    | ok b => exact ⟨rfl, _, heval⟩
    | error e => exact rfl

end reads

theorem one_ok (h : one r = .ok x) : r = some x := by
  cases r with
  | none => cases h
  | some y => cases h; rfl

theorem one_elim {F : Except Err α → Prop} (herr : ∀ e, F (.error e))
    (hok : ∀ x, r = some x → F (.ok x)) : F (one r) := by
  cases r with
  | none => exact herr _
  | some x => exact hok x rfl

theorem onTable_ok (h : onTable a f get set w = (.ok b, w')) :
    (f (get w)).1 = .ok b ∧ w' = set (f (get w)).2 w := by
  unfold onTable at h
  split at h
  · cases h
  · obtain ⟨hv, rfl⟩ := Prod.mk.inj h
    exact ⟨hv, rfl⟩

theorem newUUID_outcome :
    (ofTotal .newUUID : Go Stmt Id).outcome as w =
      ⟨.ok ((as.headD default).uuids 0), w, as.tail⟩ := rfl

theorem onTable_outcome :
    (⟨(onTable a f get set w).1, (onTable a f get set w).2, as⟩ : Outcome _ _ _) =
      if a.fail then ⟨.error (.of .unavailable), w, as⟩
      else ⟨(f (get w)).1, set (f (get w)).2 w, as⟩ := by
  unfold onTable
  split <;> rfl

theorem instances_step_ok (h : Stmt.step (.instances s) a w = (.ok b, w')) :
    (s.exec a.now w.instances).1 = .ok b ∧ w' = w.withInstances (s.exec a.now w.instances).2 := by
  exact onTable_ok h

theorem returning_ok {r : Option ρ × Table κ ρ key} (h : (returning r).1 = .ok x) :
    r.1 = some x := one_ok h

theorem returning_error {r : Option ρ × Table κ ρ key}
    (h : (returning r).1 = .error e) : r.1 = none := by
  obtain ⟨_ | x, t⟩ := r
  · rfl
  · cases h

theorem inserting_ok [DecidableEq κ] {t : Table κ ρ key}
    (h : (inserting t x).1 = .ok y) : y = x ∧ t.insert? x = some (inserting t x).2 := by
  unfold inserting at h ⊢
  split at h
  · cases h
    next ht => exact ⟨rfl, ht⟩
  · cases h

theorem find?_inserting [DecidableEq κ] {t : Table κ ρ key} (h : t.find? k = some y) :
    (inserting t x).2.find? k = some y := by
  unfold inserting
  split
  · next t' ht' => exact Table.find?_insert?_of_some ht' h
  · exact h

theorem inserting_error [DecidableEq κ] {t : Table κ ρ key} {x : ρ} {e : Err}
    (h : (inserting t x).1 = .error e) : (inserting t x).2 = t := by
  unfold inserting at h ⊢
  split at h
  · cases h
  · rfl

namespace DeploymentStmt
variable {s : DeploymentStmt β} {now : Time} {t : DeploymentTable}

theorem find?_exec_ne {id : Id} (h : id ≠ s.target) : (s.exec now t).2.find? id = t.find? id :=
  t.find?_updateKey_ne _ _ (s.change_id now) h

theorem find?_exec_self (s : DeploymentStmt β) (now : Time) (hr : t.find? s.target = some r)
    (happ : s.applies r = true) : (s.exec now t).2.find? s.target = some (s.change now r) := by
  have h := t.find?_updateKey_self s.target s.applies (s.change now) (s.change_id now)
  rw [hr, Option.map_some, if_pos happ] at h
  exact h

/-- A row found after a statement was there before it, and is unchanged or changed by it. -/
theorem find?_exec_cases {id : Id} (h : (s.exec now t).2.find? id = some y) :
    ∃ x, t.find? id = some x ∧ (y = x ∨ y = s.change now x) := by
  by_cases hid : id = s.target
  · have h' := t.find?_updateKey_self s.target s.applies (s.change now) (s.change_id now)
    rw [hid] at h ⊢
    obtain ⟨x, hx, hy⟩ := Option.map_eq_some_iff.mp (h'.symm.trans h)
    refine ⟨x, hx, ?_⟩
    split at hy
    · exact .inr hy.symm
    · exact .inl hy.symm
  · rw [find?_exec_ne hid] at h
    exact ⟨y, h, .inl rfl⟩

theorem find?_exec_map {γ : Type} {g : Deployment → γ} (hg : ∀ r, g (s.change now r) = g r) (id : Id) :
    ((s.exec now t).2.find? id).map g = (t.find? id).map g :=
  t.find?_updateKey_map _ _ _ (s.change_id now) hg id

end DeploymentStmt

/-! ## Instance statements, row by row -/

namespace InstanceStmt

/-- The statement changes this row. -/
def targets : InstanceStmt β → DeploymentInstance → Bool
  | create .., _ => false
  | updateServer id _, r | updateStatus id _, r | updateRole id _, r | attachVM id _ _, r
  | resetForRetry id, r => r.id == id && r.undeleted
  | softDelete id, r => r.id == id
  | resetForDeadServer s, r => r.serverId == some s && r.undeleted
  | prepareRetry id, r => r.id == id && r.undeleted && decide (r.restartCount < maxInt)

def change (now : Time) : InstanceStmt β → DeploymentInstance → DeploymentInstance
  | create .., r => r
  | updateServer _ s, r => { r with serverId := some s }
  | updateStatus _ st, r => { r with status := st }
  | updateRole _ role, r => { r with role }
  | attachVM _ v st, r => { r with vmId := some v, status := st }
  | softDelete _, r => { r with deletedAt := some now }
  | resetForDeadServer _, r => { r.released with restartCount := 0, lastRestartAt := none }
  | prepareRetry _, r =>
    { r.released with restartCount := r.restartCount + 1, lastRestartAt := some now }
  | resetForRetry _, r => r.released

theorem find?_exec (s : InstanceStmt β) (now : Time) (hr : t.find? i = some r) :
    (s.exec now t).2.find? i = some (if s.targets r then s.change now r else r) := by
  have hid : r.id = i := Table.find?_key hr
  have hkey : ∀ k p f hf,
      (t.updateKey k p f hf).2.find? i = some (if r.id == k && p r then f r else r) := by
    intro k p f hf
    by_cases hk : i = k
    · subst hk
      rw [t.find?_updateKey_self, hr, Option.map_some, hid, beq_self_eq_true, Bool.true_and]
    · rw [t.find?_updateKey_ne _ _ _ hk, hr, hid, beq_false_of_ne hk, Bool.false_and,
        if_neg Bool.false_ne_true]
  cases s with
  | create id dep =>
    dsimp only [exec, inserting]
    split
    · next t' ht =>
      have hne : id ≠ i := by
        rintro rfl
        cases (Table.insert?_fresh ht).symm.trans hr
      rw [Table.find?_insert? ht, if_neg hne, hr]
      rfl
    · exact hr
  | softDelete id =>
    refine (hkey id (fun _ => true) _ (by intro; rfl)).trans ?_
    rw [Bool.and_true]
    rfl
  | resetForDeadServer srv =>
    refine (t.find?_updateWhere _ _ (by intro; rfl) i).trans ?_
    rw [hr]
    rfl
  | prepareRetry j =>
    dsimp only [exec]
    split
    · -- the counter is at its maximum, so the statement fails
      next hover =>
      rw [hr]
      by_cases hj : j = i
      · subst hj
        rw [hr] at hover
        simp only [Option.any_some, Bool.and_eq_true, decide_eq_true_eq] at hover
        simp [targets, not_lt.mpr hover.2]
      · simp [targets, hid, Ne.symm hj]
    · next hover =>
      refine (hkey j _ _ (by intro; rfl)).trans ?_
      by_cases hj : j = i
      · subst hj
        rw [hr] at hover
        cases hdel : r.undeleted with
        | false => simp [targets, hdel]
        | true =>
          have hlt : r.restartCount < maxInt := by simpa [hdel] using hover
          simp [targets, hdel, hlt, change]
      · simp [targets, hid, Ne.symm hj]
  | _ => exact hkey _ _ _ (by intro; rfl)

theorem find?_exec_new (s : InstanceStmt β) (now : Time) (hnone : t.find? i = none) :
    (s.exec now t).2.find? i = none ∨
      ∃ dep, (s.exec now t).2.find? i = some { id := i, deploymentId := dep, createdAt := now } := by
  have hkey : ∀ k p f hf, (t.updateKey k p f hf).2.find? i = none := by
    intro k p f hf
    refine (t.find?_updateWhere _ f hf i).trans ?_
    rw [hnone]
    rfl
  cases s with
  | create id dep =>
    dsimp only [exec, inserting]
    split
    · next t' ht =>
      rw [Table.find?_insert? ht, hnone]
      split
      · next hid => exact .inr ⟨dep, hid ▸ rfl⟩
      · exact .inl rfl
    · exact .inl hnone
  | resetForDeadServer srv =>
    refine .inl ((t.find?_updateWhere _ _ (by intro; rfl) i).trans ?_)
    rw [hnone]
    rfl
  | prepareRetry j =>
    dsimp only [exec]
    split
    · exact .inl hnone
    · exact .inl (hkey _ _ _ (by intro; rfl))
  | _ => exact .inl (hkey _ _ _ (by intro; rfl))

end InstanceStmt

theorem context_ok [Effect E Answer World] {p : Go E β} :
    (context c p).outcome as w = ⟨.ok b, w', as'⟩ ↔ p.outcome as w = ⟨.ok b, w', as'⟩ :=
  outcome_wrap_ok

theorem perform_outcome : (perform t).outcome as w = t.prog.outcome as w := rfl

theorem deployments_exec {s : DeploymentStmt β} :
    Effect.exec (Action.deployments s) as w = (deploymentStmt s).outcome as w := rfl

theorem deploymentStmt_outcome (s : DeploymentStmt β) (as : List Answer) (w : World) :
    (deploymentStmt s).outcome as w =
      if (as.headD default).fail then ⟨.error (.of .unavailable), w, as.tail⟩
      else ⟨(s.exec (as.headD default).now w.deployments).1,
        w.withDeployments (s.exec (as.headD default).now w.deployments).2, as.tail⟩ := by
  exact onTable_outcome

theorem deploymentStmt_ok (h : (deploymentStmt s).outcome as w = ⟨.ok b, w', as'⟩) :
    (as.headD default).fail = false ∧ (s.exec (as.headD default).now w.deployments).1 = .ok b ∧
      w' = w.withDeployments (s.exec (as.headD default).now w.deployments).2 ∧ as' = as.tail := by
  rw [deploymentStmt_outcome] at h
  split at h
  · cases h
  · next hfail =>
    simp only [Outcome.mk.injEq] at h
    exact ⟨by simpa using hfail, h.1, h.2.1.symm, h.2.2.symm⟩

theorem discard_outcome [Effect E Answer World] (p : Go E β) (as : List Answer) (w : World) :
    (discard p).outcome as w = ⟨.ok (), (p.outcome as w).state, (p.outcome as w).rest⟩ := by
  unfold discard
  rw [outcome_bind, outcome_attempt]
  rfl

theorem projectVolumeForDeployment_state [Reads E] [Effect E Answer World] [LawfulReads E]
    (dep : Deployment) (as : List Answer) (w : World) :
    ((projectVolumeForDeployment dep : Go E _).outcome as w).state = w := by
  unfold projectVolumeForDeployment
  rw [outcome_bind, outcome_attempt, query_outcome, andThen_ok]
  split
  · split <;> rfl
  · split <;> rfl

theorem tx_state {p : Go Stmt β} :
    (Effect.exec (Op.tx p) as w).state = w ∨ ∃ v, (p.outcome as w).value = .ok v ∧
        (Effect.exec (Op.tx p) as w).state = (p.outcome as w).state := by
  change (Op.exec (.tx p) as w).state = w ∨ ∃ v, (Prog.run p as w).value = .ok v ∧
    (Op.exec (.tx p) as w).state = (Prog.run p as w).state
  simp only [Op.exec]
  split
  · exact .inl rfl
  · next v hv =>
    split
    · exact .inl rfl
    · exact .inr ⟨v, hv, rfl⟩

theorem vmStmt_ensures {s : VmStmt β} (h : ∀ as, G _ (.db (.vms s)) as w →
      if (as.headD default).fail then Q (.error (.of .unavailable)) w
      else Q (s.exec (as.headD default).now w.vms).1
        (w.withVms (s.exec (as.headD default).now w.vms).2)) : Ensures G (vmStmt s) Q w := by
  refine .ofCall fun as hg => ?_
  have hexec : Effect.exec (Op.db (.vms s)) as w = _ := onTable_outcome
  have h' := h as hg
  rw [hexec]
  split
  · next hfail => rwa [if_pos hfail] at h'
  · next hfail => rwa [if_neg hfail] at h'

theorem instanceStmt_ensures {s : InstanceStmt β} (hfail : Q (.error (.of .unavailable)) w)
    (hok : ∀ now, Q (s.exec now w.instances).1 (w.withInstances (s.exec now w.instances).2)) :
    Ensures G (instanceStmt s) Q w := by
  refine .ofCall fun as _ => ?_
  have hexec : Effect.exec (Op.db (.instances s)) as w = _ := onTable_outcome
  rw [hexec]
  split
  · exact hfail
  · exact hok _

def World.pinnedElsewhere (w : World) (dep : Deployment) (inst : DeploymentInstance) : Bool :=
  match (volumeQuery dep).eval 0 w with
  | .ok vol => vol.serverId.isSome && inst.serverId != vol.serverId
  | .error _ => false

def World.onDrainingServer (w : World) (inst : DeploymentInstance) : Bool :=
  inst.serverId.any fun s => (w.servers.find? s).any (·.status == .draining)

def World.vmSuspended (w : World) (inst : DeploymentInstance) : Bool :=
  inst.vmId.any fun v => (w.vms.find? v).any (·.status == .suspended)

theorem volumeQuery_eval (dep : Deployment) (now : Time) (w : World) :
    (volumeQuery dep).eval now w = (volumeQuery dep).eval 0 w := by
  unfold volumeQuery
  split <;> rfl

theorem projectVolumeForDeployment_ensures :
    Ensures G (projectVolumeForDeployment dep : Go Op _)
      (Yields (fun o w' => w' = w ∧ ∀ vol, o = some vol → (volumeQuery dep).eval 0 w = .ok vol)
        fun w' => w' = w) w := by
  refine .attempt_bind read_ensures fun r w' hr => ?_
  cases r with
  | error e =>
    obtain rfl : w' = w := hr
    dsimp only
    split
    · exact .pure ⟨rfl, fun _ h => by cases h⟩
    · exact .throw rfl
  | ok vol =>
    obtain ⟨rfl, now, hnow⟩ := hr
    dsimp only
    split
    · exact .throw rfl
    · refine .pure ⟨rfl, fun vol' hvol => ?_⟩
      cases hvol
      rw [← volumeQuery_eval dep now, hnow]

theorem hasSuspendedVM_ensures :
    Ensures G (hasSuspendedVM inst)
      (Yields (fun b w' => w' = w ∧ (b = true → w.vmSuspended inst = true)) fun w' => w' = w) w := by
  unfold hasSuspendedVM
  split
  · exact .pure ⟨rfl, fun h => by cases h⟩
  · next v hv =>
    refine .attempt_bind read_ensures fun r w' hr => ?_
    cases r with
    | error e => exact .pure ⟨hr, fun h => by cases h⟩
    | ok vm =>
      obtain ⟨rfl, now, hvm⟩ := hr
      have hfind : w'.vms.find? v = some vm := one_ok hvm
      exact .pure ⟨rfl, fun h => by rw [World.vmSuspended, hv, Option.any_some, hfind]; exact h⟩

end Kindling
