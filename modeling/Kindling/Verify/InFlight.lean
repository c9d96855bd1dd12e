import Kindling.Reconciler.Scheduler

/-!
# Entities in flight

An entity is in flight from the moment it is put into the channel until the worker that has taken it
out is done with it.
-/

namespace Kindling.Scheduler

open State

variable {n : Nat} {sch : Scheduler} {e : Event n} {s s' : State n}

inductive Change (sch : Scheduler) (s : State n) : Event n → State n → Prop
  | scheduled (id : Id) (t : Time) : Change sch s (.schedule id t) (s.put id t)
  | turned (e : Event n) (l : TickLoop) : Change sch s e { s with loop := l }
  | dispatched (id : Id) (l : TickLoop) (due : s.next id ≠ 0) (idle : id ∉ s.running) :
    Change sch s .visit
      (put id 0 { s with loop := l, running := insert id s.running, work := s.work ++ [id] })
  | postponed (id : Id) (l : TickLoop) (now : Time) (idle : id ∉ s.running) :
    Change sch s .visit (put id (now + second) { s with loop := l })
  | received (w : Fin n) (id : Id) (rest : List Id) (free : s.worker w = none)
      (first : s.work = id :: rest) :
    Change sch s (.receive w)
      { s with work := rest, worker := Function.update s.worker w (some id) }
  | finished (w : Fin n) (id : Id) (failed : Bool) (now : Time) (busy : s.worker w = some id) :
    Change sch s (.finish w id failed now) (finish sch w id failed now s)

theorem step_change (h : step sch s e = some s') : Change sch s e s' := by
  cases e with
  | schedule id t =>
    obtain ⟨-, ⟨⟩⟩ := Option.ite_none_right_eq_some.mp h
    exact .scheduled id t
  | tick now =>
    obtain ⟨-, ⟨⟩⟩ := Option.ite_none_right_eq_some.mp h
    exact .turned _ _
  | stop =>
    obtain ⟨-, ⟨⟩⟩ := Option.ite_none_right_eq_some.mp h
    exact .turned _ _
  | lock order =>
    dsimp only [step] at h
    split at h
    · obtain ⟨-, ⟨⟩⟩ := Option.ite_none_right_eq_some.mp h
      exact .turned _ _
    · cases h
  | unlock =>
    dsimp only [step] at h
    split at h
    · cases h
      exact .turned _ _
    · cases h
  | visit =>
    dsimp only [step] at h
    split at h
    · next now id rest _ =>
      cases h
      rcases dispatch_cases now id { s with loop := .scanning now rest } with
        hsame | ⟨hdue, hidle, hput | hput⟩
      · rw [hsame]
        exact .turned _ _
      · rw [hput]
        exact .dispatched id _ hdue hidle
      · rw [hput]
        exact .postponed id _ now hidle
    · cases h
  | receive w =>
    dsimp only [step] at h
    split at h
    · next id rest hfree hfirst =>
      cases h
      exact .received w id rest hfree hfirst
    · cases h
  | finish w id failed now =>
    obtain ⟨⟨hbusy, -⟩, ⟨⟩⟩ := Option.ite_none_right_eq_some.mp h
    exact .finished w id failed now hbusy

/-! ## One place for each entity -/

/-- The running set is the set of entities in flight, each of which is in one place. -/
structure InFlight (s : State n) : Prop where
  running : ∀ id, id ∈ s.running ↔ id ∈ s.work ∨ ∃ w, s.worker w = some id
  queued_once : s.work.Nodup
  processed_once : ∀ id w w', s.worker w = some id → s.worker w' = some id → w = w'
  apart : ∀ id ∈ s.work, ∀ w, s.worker w ≠ some id

theorem InFlight.empty : InFlight ({} : State n) where
  running id := by simp
  queued_once := List.nodup_nil
  processed_once := nofun
  apart := nofun

theorem update_eq_some {worker : Fin n → Option Id} {w w' : Fin n} {v : Option Id} {id : Id} :
    Function.update worker w v w' = some id ↔
      if w' = w then v = some id else worker w' = some id := by
  rw [Function.update_apply]
  split <;> rfl

/-- Only dispatching, receiving and finishing move entities. -/
theorem InFlight.change (h : InFlight s) (hc : Change sch s e s') : InFlight s' := by
  cases hc with
  | scheduled | turned | postponed => exact ⟨h.running, h.queued_once, h.processed_once, h.apart⟩
  | dispatched id l due idle =>
    -- The entity is not in flight yet, so it is in no other place.
    have hnot : id ∉ s.work ∧ ∀ w, s.worker w ≠ some id := by
      rw [h.running] at idle
      exact ⟨fun hw => idle (.inl hw), fun w hw => idle (.inr ⟨w, hw⟩)⟩
    refine ⟨fun id' => ?_, ?_, h.processed_once, fun id' hid' w => ?_⟩
    · simp only [put_running, put_work, Finset.mem_insert, List.mem_append,
        List.mem_singleton, h.running]
      tauto
    · exact h.queued_once.append (List.nodup_singleton id) (List.disjoint_singleton.mpr hnot.1)
    · rcases List.mem_append.mp hid' with hid' | hid'
      · exact h.apart id' hid' w
      · exact List.mem_singleton.mp hid' ▸ hnot.2 w
  | received w id rest free first =>
    have hnodup := first ▸ h.queued_once
    rw [List.nodup_cons] at hnodup
    have hapart := first ▸ h.apart
    refine ⟨fun id' => ?_, hnodup.2, fun id' v v' hv hv' => ?_, fun id' hid' v hv => ?_⟩
    · rw [h.running, first, List.mem_cons]
      simp only [update_eq_some]
      constructor
      · rintro ((rfl | hrest) | ⟨v, hv⟩)
        · exact .inr ⟨w, by simp⟩
        · exact .inl hrest
        · have hne : v ≠ w := fun hvw => by rw [hvw, free] at hv; cases hv
          exact .inr ⟨v, by simpa [hne] using hv⟩
      · rintro (hrest | ⟨v, hv⟩)
        · exact .inl (.inr hrest)
        · split at hv
          · exact .inl (.inl (Option.some.inj hv).symm)
          · exact .inr ⟨v, hv⟩
    · rw [update_eq_some] at hv hv'
      split at hv <;> split at hv'
      · simp_all
      · exact absurd hv' (hapart id' (by simp [← Option.some.inj hv]) v')
      · exact absurd hv (hapart id' (by simp [← Option.some.inj hv']) v)
      · exact h.processed_once id' v v' hv hv'
    · rw [update_eq_some] at hv
      split at hv
      · exact hnodup.1 (Option.some.inj hv ▸ hid')
      · exact hapart id' (.tail _ hid') v hv
  | finished w id failed now busy =>
    have hqueue : id ∉ s.work := fun hid => h.apart id hid w busy
    refine ⟨fun id' => ?_, ?_, fun id' v v' hv hv' => ?_, fun id' hid' v hv => ?_⟩
    · rw [finish_running, finish_work, finish_worker, Finset.mem_erase, h.running]
      simp only [update_eq_some]
      constructor
      · rintro ⟨hne, hid' | ⟨v, hv⟩⟩
        · exact .inl hid'
        · have hvw : v ≠ w := fun hvw => hne (Option.some.inj (hv.symm.trans (hvw ▸ busy)))
          exact .inr ⟨v, by simpa [hvw] using hv⟩
      · rintro (hid' | ⟨v, hv⟩)
        · exact ⟨fun heq => hqueue (heq ▸ hid'), .inl hid'⟩
        · split at hv
          · cases hv
          · next hvw =>
            exact ⟨fun heq => hvw (h.processed_once id v w (heq ▸ hv) busy), .inr ⟨v, hv⟩⟩
    · exact (finish_work ..).symm ▸ h.queued_once
    · rw [finish_worker, update_eq_some] at hv hv'
      split at hv
      · cases hv
      split at hv'
      · cases hv'
      exact h.processed_once id' v v' hv hv'
    · rw [finish_work] at hid'
      rw [finish_worker, update_eq_some] at hv
      split at hv
      · cases hv
      · exact h.apart id' hid' v hv

theorem Reaches.inFlight {s : State sch.workers} (h : sch.Reaches es s) : InFlight s :=
  Machine.run_invariant (fun _ _ _ _ hstep hs => hs.change (step_change hstep))
    (fun _ _ => trivial) h .empty

/-- **One reconciliation at a time.** Whatever is scheduled, and however ticks, receives, successes
and errors interleave, the running set is exactly the set of entities that are in the channel or
being processed; no entity is processed by two workers, queued twice, or queued while it is being
processed. -/
theorem running_eq_in_flight (sch : Scheduler) (es : List (Event sch.workers))
    (s : State sch.workers) (h : sch.Reaches es s) :
    (∀ id, id ∈ s.running ↔ id ∈ s.work ∨ ∃ w, s.worker w = some id) ∧
    (∀ id w w', s.worker w = some id → s.worker w' = some id → w = w') ∧
    (∀ id ∈ s.work, ∀ w, s.worker w ≠ some id) ∧ s.work.Nodup :=
  ⟨h.inFlight.running, h.inFlight.processed_once, h.inFlight.apart, h.inFlight.queued_once⟩

/-- Two workers. Entity 8 is taken by the first while the scan is still going on, and scheduled anew;
entity 7 stays in the channel. -/
def twoWorkers : Scheduler := .new { workers := 2 }

theorem twoWorkers_pos : 0 < twoWorkers.workers := by decide

def busyRun : List (Event twoWorkers.workers) :=
  [.schedule 7 1, .schedule 8 1, .tick 5, .lock [8, 7], .visit, .receive ⟨0, twoWorkers_pos⟩, .visit,
    .unlock, .schedule 8 20]

theorem busyRun_in_flight : ∃ s, twoWorkers.Reaches busyRun s ∧
    (s.work = [7] ∧ s.worker ⟨0, by decide⟩ = some 8 ∧ s.next 8 = 20) ∧
    (∀ id, id ∈ s.running ↔ id ∈ s.work ∨ ∃ w, s.worker w = some id) ∧
    (∀ id w w', s.worker w = some id → s.worker w' = some id → w = w') ∧
    (∀ id ∈ s.work, ∀ w, s.worker w ≠ some id) ∧ s.work.Nodup :=
  ⟨_, rfl, ⟨rfl, rfl, rfl⟩, running_eq_in_flight twoWorkers busyRun _ rfl⟩

/-! ## A scan of the schedule -/

section scan
variable {id id' : Id} {now : Time} {rest : List Id}

/-- The next time of an entity, and whether it is running. -/
def State.view (s : State n) (id : Id) : Time × Bool := (s.next id, decide (id ∈ s.running))

/-- What a scan at `now` makes of an entity: one that is due is handed over, or put off by a second
where the channel is full, and any other is left as it is. -/
def Scanned (now : Time) (v v' : Time × Bool) : Prop :=
  if v.1 ≠ 0 ∧ v.1 ≤ now ∧ v.2 = false then v' = (0, true) ∨ v' = (now + second, false) else v' = v

theorem scanned_dispatch (now : Time) (id : Id) (s : State n) :
    Scanned now (s.view id) ((dispatch now id s).view id) := by
  unfold Scanned dispatch State.view
  simp only [decide_eq_false_iff_not]
  split
  · next hdue =>
    rw [if_neg (not_or.mpr ⟨hdue.1, hdue.2.1.not_gt⟩), if_neg hdue.2.2]
    split
    · exact .inl (Prod.ext (next_put ..) (by simp))
    · exact .inr (Prod.ext (next_put ..) (by simp))
  · next hdue =>
    split
    · rfl
    next hset =>
    split
    · rfl
    · next hidle =>
      rw [not_or, not_lt] at hset
      exact absurd ⟨hset.1, hset.2, hidle⟩ hdue

theorem view_dispatch_of_ne (h : id' ≠ id) : (dispatch now id s).view id' = s.view id' := by
  rcases dispatch_cases now id s with hsame | ⟨-, -, hput | hput⟩
  · rw [hsame]
  · rw [hput]
    simp [State.view, next_put_of_ne _ _ _ h, h]
    rfl
  · rw [hput, State.view, next_put_of_ne _ _ _ h]
    rfl

/-- A state in the course of a scan that began in `s`: the entities ahead are as they were. -/
structure Scanning (s : State n) (now : Time) (s' : State n) (rest : List Id) : Prop where
  loop : s'.loop = .scanning now rest
  once : rest.Nodup
  ahead : ∀ id ∈ rest, s'.view id = s.view id
  behind : ∀ id ∉ rest, Scanned now (s.view id) (s'.view id)

theorem Scanning.visit (h : Scanning s now s' (id :: rest)) :
    Scanning s now (dispatch now id { s' with loop := .scanning now rest }) rest := by
  obtain ⟨hid, hrest⟩ := List.nodup_cons.mp h.once
  refine ⟨?_, hrest, fun id' hid' => ?_, fun id' hid' => ?_⟩
  · rcases dispatch_cases now id { s' with loop := .scanning now rest } with
      hsame | ⟨-, -, hput | hput⟩
    · rw [hsame]
    · rw [hput]
      rfl
    · rw [hput]
      rfl
  · have hne : id' ≠ id := fun heq => hid (heq ▸ hid')
    rw [view_dispatch_of_ne hne]
    exact h.ahead id' (.tail _ hid')
  · by_cases heq : id' = id
    · subst heq
      rw [← h.ahead id' (.head _)]
      exact scanned_dispatch now id' { s' with loop := .scanning now rest }
    · rw [view_dispatch_of_ne heq]
      exact h.behind id' (by simp [heq, hid'])

theorem Scanning.step (h : Scanning s now s' rest) (he : e ≠ .unlock)
    (hstep : sch.step s' e = some s'') : ∃ rest', Scanning s now s'' rest' := by
  have hloop := h.loop
  cases e with
  | unlock => exact absurd rfl he
  | receive w =>
    dsimp only [Scheduler.step] at hstep
    split at hstep
    · cases hstep
      exact ⟨rest, hloop, h.once, h.ahead, h.behind⟩
    · cases hstep
  | visit =>
    cases rest with
    | nil => simp [Scheduler.step, hloop] at hstep
    | cons id rest =>
      simp only [Scheduler.step, hloop, Option.some.injEq] at hstep
      subst hstep
      exact ⟨rest, h.visit⟩
  | _ => simp [Scheduler.step, hloop, unlocked] at hstep

theorem Scanning.start (hstep : sch.step s (.lock order) = some s') (hloop : s.loop = .due now) :
    Scanning s now s' order := by
  simp only [Scheduler.step, hloop, Option.ite_none_right_eq_some, Option.some.injEq] at hstep
  obtain ⟨hperm, rfl⟩ := hstep
  refine ⟨rfl, hperm.nodup_iff.mpr s.schedule.keys_nodup, fun id _ => rfl, fun id hid => ?_⟩
  have hkey : s.schedule.lookup id = none := AList.lookup_eq_none.mpr fun h => hid (hperm.mem_iff.mpr h)
  have hnext : s.next id = 0 := by simp [State.next, hkey]
  exact (if_neg fun h => h.1 hnext).mpr rfl

end scan

end Kindling.Scheduler
