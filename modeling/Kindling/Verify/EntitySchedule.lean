import Kindling.Verify.InFlight

/-!
# One entity of the scheduler

Seen from one entity, the scheduler is a small machine: the entity has a next time, or none, and is
idle, queued or being processed. Every run of the scheduler is a run of this machine for each entity.
-/

namespace Kindling.Scheduler

open State

variable {id : Id}

/-! ## The machine of one entity -/

inductive Stage | idle | queued | processing
  deriving DecidableEq, Repr

/-- `next = 0` stands for no next time. -/
structure Entity where
  next : Time := 0
  stage : Stage := .idle
  deriving DecidableEq, Repr

inductive Entity.Event
  | schedule (t : Time)
  | dispatch
  | postpone (t : Time)
  | receive
  | finish (failed : Bool) (now : Time)

def Entity.step (sch : Scheduler) (x : Entity) : Entity.Event → Option Entity
  | .schedule t => some { x with next := t }
  | .dispatch => if x.stage = .idle ∧ x.next ≠ 0 then some ⟨0, .queued⟩ else none
  | .postpone t => if x.stage = .idle ∧ t ≠ 0 then some { x with next := t } else none
  | .receive => if x.stage = .queued then some { x with stage := .processing } else none
  | .finish failed now =>
    if x.stage = .processing then
      some ⟨if failed then now + sch.retryAfter
        else if x.next = 0 then now + sch.defaultAfter else x.next, .idle⟩
    else none

section
variable {n : Nat} {sch : Scheduler} {s s' : State n}

/-- Where the entity is, read off the running set and the channel. -/
def State.stage (s : State n) (id : Id) : Stage :=
  if id ∉ s.running then .idle else if id ∈ s.work then .queued else .processing

def State.entity (s : State n) (id : Id) : Entity := ⟨s.next id, s.stage id⟩

inductive Event.ActsAs (id : Id) : Event n → Entity.Event → Prop
  | schedule (t : Time) : ActsAs id (.schedule id t) (.schedule t)
  | dispatch : ActsAs id .visit .dispatch
  | postpone (t : Time) : ActsAs id .visit (.postpone t)
  | receive (w : Fin n) : ActsAs id (.receive w) .receive
  | finish (w : Fin n) (failed : Bool) (now : Time) :
    ActsAs id (.finish w id failed now) (.finish failed now)

theorem stage_idle (h : id ∉ s.running) : s.stage id = .idle := if_pos h

theorem stage_queued (h : InFlight s) (hid : id ∈ s.work) : s.stage id = .queued := by
  have hrunning : id ∈ s.running := (h.running id).mpr (.inl hid)
  rw [State.stage, if_neg (not_not.mpr hrunning), if_pos hid]

theorem stage_processing (h : InFlight s) (hw : s.worker w = some id) :
    s.stage id = .processing := by
  have hrunning : id ∈ s.running := (h.running id).mpr (.inr ⟨w, hw⟩)
  have hwork : id ∉ s.work := fun hid => h.apart id hid w hw
  rw [State.stage, if_neg (not_not.mpr hrunning), if_neg hwork]

theorem stage_congr (hrunning : id ∈ s'.running ↔ id ∈ s.running)
    (hwork : id ∈ s'.work ↔ id ∈ s.work) : s'.stage id = s.stage id := by
  simp [State.stage, hrunning, hwork]

theorem entity_eq (ht : s.next id = t) (hg : s.stage id = g) : s.entity id = ⟨t, g⟩ := by
  rw [State.entity, ht, hg]

theorem entity_change (h : InFlight s) (hc : Change sch s e s') :
    s'.entity id = s.entity id ∨
      ∃ d, e.ActsAs id d ∧ Entity.step sch (s.entity id) d = some (s'.entity id) := by
  have h' : InFlight s' := h.change hc
  cases hc with
  | turned e l => exact .inl rfl
  | scheduled id' t =>
    by_cases hid : id = id'
    · subst hid
      refine .inr ⟨_, .schedule t, ?_⟩
      rw [entity_eq (next_put ..) rfl]
      rfl
    · exact .inl (entity_eq (next_put_of_ne _ _ _ hid) rfl)
  | dispatched id' l due idle =>
    by_cases hid : id = id'
    · subst hid
      refine .inr ⟨_, .dispatch, ?_⟩
      rw [entity_eq (next_put ..) (stage_queued h' (by simp)), Entity.step,
        if_pos ⟨stage_idle idle, due⟩]
    · exact .inl (entity_eq (next_put_of_ne _ _ _ hid)
        (stage_congr (by simp [hid]) (by simp [hid])))
  | postponed id' l now idle =>
    by_cases hid : id = id'
    · subst hid
      refine .inr ⟨_, .postpone (now + second), ?_⟩
      have hpos : now + second ≠ 0 := (Nat.add_pos_right now (by decide)).ne'
      rw [entity_eq (s := put id (now + second) { s with loop := l }) (next_put ..) (stage_idle idle),
        entity_eq rfl (stage_idle idle), Entity.step, if_pos ⟨rfl, hpos⟩]
    · exact .inl (entity_eq (next_put_of_ne _ _ _ hid) rfl)
  | received w id' rest free first =>
    by_cases hid : id = id'
    · subst hid
      refine .inr ⟨_, .receive w, ?_⟩
      have hqueued : s.stage id = .queued := stage_queued h (first ▸ List.mem_cons_self)
      rw [entity_eq rfl hqueued, entity_eq rfl (stage_processing (w := w) h' (by simp))]
      rfl
    · exact .inl (entity_eq rfl (stage_congr .rfl (by simp [first, hid])))
  | finished w id' failed now busy =>
    by_cases hid : id = id'
    · subst hid
      refine .inr ⟨_, .finish w failed now, ?_⟩
      rw [entity_eq rfl (stage_processing h busy),
        entity_eq (next_finish ..) (stage_idle (by simp [finish_running]))]
      rfl
    · exact .inl (entity_eq (next_finish_of_ne _ _ _ _ _ _ hid)
        (stage_congr (by simp [finish_running, hid]) (by simp [finish_work])))

theorem entity_run (hrun : Machine.run sch.step s es = some s') (hs : InFlight s) :
    ∃ ds, Machine.run (Entity.step sch) (s.entity id) ds = some (s'.entity id) ∧
      ∀ d ∈ ds, ∃ e ∈ es, e.ActsAs id d :=
  Machine.run_simulates (fun _ _ _ hstep h => h.change (step_change hstep))
    (fun _ _ _ h hstep => entity_change h (step_change hstep)) hrun hs

end

/-- The entity has a next time, or is in flight. -/
def Entity.Kept (x : Entity) : Prop := x.next ≠ 0 ∨ x.stage ≠ .idle

def Entity.Event.nonzero : Entity.Event → Prop
  | .schedule t => t ≠ 0
  | _ => True

variable {sch : Scheduler}

theorem Entity.step_kept (hd : d.nonzero) (h : Entity.step sch x d = some y) : y.Kept := by
  cases d with
  | schedule t =>
    cases h
    exact .inl hd
  | dispatch =>
    obtain ⟨-, ⟨⟩⟩ := Option.ite_none_right_eq_some.mp h
    exact .inr nofun
  | postpone t =>
    obtain ⟨⟨-, ht⟩, ⟨⟩⟩ := Option.ite_none_right_eq_some.mp h
    exact .inl ht
  | receive =>
    obtain ⟨-, ⟨⟩⟩ := Option.ite_none_right_eq_some.mp h
    exact .inr nofun
  | finish failed now =>
    obtain ⟨-, ⟨⟩⟩ := Option.ite_none_right_eq_some.mp h
    refine .inl ?_
    split_ifs with _ hzero
    · exact (Nat.add_pos_right now sch.retryAfter_pos).ne'
    · exact (Nat.add_pos_right now sch.defaultAfter_pos).ne'
    · exact hzero

theorem kept_run {s s' : State sch.workers} (hs : InFlight s) (hkept : (s.entity id).Kept)
    (hrun : Machine.run sch.step s es = some s') (hnonzero : ∀ t, .schedule id t ∈ es → t ≠ 0) :
    (s'.entity id).Kept := by
  obtain ⟨ds, hds, hacts⟩ := entity_run hrun hs
  refine Machine.run_invariant
    (fun _ _ _ hd hstep _ => Entity.step_kept hd hstep) (fun d hd => ?_) hds hkept
  obtain ⟨e, he, hact⟩ := hacts d hd
  cases hact with
  | schedule t => exact hnonzero t he
  | _ => trivial

/-- What happens to an entity in flight, other than being scheduled, keeps its next time until the
end of its reconciliation. -/
def Entity.Event.passive : Entity.Event → Prop
  | .schedule _ | .finish .. => False
  | _ => True

theorem Entity.step_passive (hd : d.passive) (h : Entity.step sch x d = some y)
    (hx : x.stage ≠ .idle ∧ x.next = t) :
    y.stage ≠ .idle ∧ y.next = t := by
  cases d with
  | schedule | finish => exact hd.elim
  | dispatch | postpone =>
    obtain ⟨⟨hidle, -⟩, -⟩ := Option.ite_none_right_eq_some.mp h
    exact absurd hidle hx.1
  | receive =>
    obtain ⟨-, ⟨⟩⟩ := Option.ite_none_right_eq_some.mp h
    exact ⟨nofun, hx.2⟩

/-- **Which schedule wins.** An entity is scheduled at `t` while it is in flight, and not again
before its reconciliation ends. Its next time is then `t` exactly when the reconciliation has
succeeded and `t` is not the zero time, or has failed and `t` is the time of the retry: after a
failure the retry replaces the time that has been asked for. -/
theorem latest_schedule_wins_iff (sch : Scheduler) (before during : List (Event sch.workers))
    (s₀ s₁ s₂ s₃ : State sch.workers) (id : Id) (t : Time) (w : Fin sch.workers) (failed : Bool)
    (now : Time) (h₀ : sch.Reaches before s₀) (hflight : id ∈ s₀.running)
    (h₁ : sch.step s₀ (.schedule id t) = some s₁) (h₂ : Machine.run sch.step s₁ during = some s₂)
    (honce : ∀ t', .schedule id t' ∉ during) (hgoing : ∀ w' f now', .finish w' id f now' ∉ during)
    (h₃ : sch.step s₂ (.finish w id failed now) = some s₃) :
    s₃.next id = t ↔ failed = false ∧ t ≠ 0 ∨ failed = true ∧ t = now + sch.retryAfter := by
  have hs₀ : InFlight s₀ := Reaches.inFlight h₀
  have hs₁ : InFlight s₁ := hs₀.change (step_change h₁)
  -- The entity keeps the time `t` up to the end of the reconciliation.
  have hnext : s₂.next id = t := by
    obtain ⟨ds, hds, hacts⟩ := entity_run h₂ hs₁
    have hstart : (s₁.entity id).stage ≠ .idle ∧ (s₁.entity id).next = t := by
      obtain ⟨-, ⟨⟩⟩ := Option.ite_none_right_eq_some.mp h₁
      refine ⟨?_, next_put s₀ id t⟩
      change s₀.stage id ≠ .idle
      rw [State.stage, if_neg (not_not.mpr hflight)]
      split <;> nofun
    refine (Machine.run_invariant (P := Entity.Event.passive)
      (fun _ _ _ hd hstep hx => Entity.step_passive hd hstep hx) (fun d hd => ?_) hds hstart).2
    obtain ⟨e, he, hact⟩ := hacts d hd
    cases hact with
    | schedule t' => exact honce t' he
    | finish w' f now' => exact hgoing w' f now' he
    | dispatch | postpone | receive => trivial
  obtain ⟨-, ⟨⟩⟩ := Option.ite_none_right_eq_some.mp h₃
  rw [next_finish, hnext]
  have hdefault : now + sch.defaultAfter ≠ 0 := (Nat.add_pos_right now sch.defaultAfter_pos).ne'
  cases failed with
  | true => simp [eq_comm]
  | false =>
    by_cases hzero : t = 0
    · simpa [hzero] using hdefault
    · simp [hzero]

def flightRun : List (Event twoWorkers.workers) :=
  [.schedule 7 1, .tick 5, .lock [7], .visit, .unlock, .receive ⟨0, twoWorkers_pos⟩]

/-- It is scheduled at 100 while it is in flight, and fails: its next time is the time of the
retry. -/
theorem retry_overrides_schedule : ∃ s, twoWorkers.Reaches
      (flightRun ++ [.schedule 7 100, .finish ⟨0, by decide⟩ 7 true 6]) s ∧
    s.next 7 = 6 + defaultRetryAfter ∧ s.next 7 ≠ 100 :=
  ⟨_, rfl, rfl, by decide⟩

/-- It is scheduled at 100 while it is in flight, and succeeds: its next time is 100. -/
theorem success_keeps_schedule : ∃ s, twoWorkers.Reaches
      (flightRun ++ [.schedule 7 100, .finish ⟨0, by decide⟩ 7 false 6]) s ∧ s.next 7 = 100 :=
  ⟨_, rfl, (latest_schedule_wins_iff twoWorkers flightRun [] _ _ _ _ 7 100 ⟨0, by decide⟩ false 6 rfl
    (by decide) rfl rfl (by simp) (by simp) rfl).mpr (by decide)⟩

end Kindling.Scheduler
