import Mathlib.Data.List.AList
import Mathlib.Data.Fintype.Basic
import Kindling.Database.Rows
import Kindling.Lib.Machine

/-!
# The scheduler of a reconciler

`internal/reconciler`: a scheduler keeps a next time for each entity, a tick loop that puts the due
ones into a bounded channel, and a pool of workers that take them from it. The schedule and the
running set are guarded by a mutex, which the tick loop holds for a whole scan of the schedule; the
channel is not, so workers receive from it while a scan is going on.
-/

namespace Kindling

def defaultRetryAfter : Time := 5 * second
def defaultReconcileAfter : Time := 3600 * second

def workCapacity : Nat := 100

/-- The configuration given to `New`. What is not positive is replaced by its default. -/
structure SchedulerConfig where
  workers : Int := 0
  retryAfter : Int := 0
  defaultAfter : Int := 0

/-- The settings of a scheduler, which do not change once it has been made. -/
structure Scheduler where
  workers : Nat
  retryAfter : Time
  defaultAfter : Time
  workers_pos : 0 < workers
  retryAfter_pos : 0 < retryAfter
  defaultAfter_pos : 0 < defaultAfter

/-- The value of a setting, or its default. -/
def positiveOr (n : Int) (default : Nat) : Nat := if n ≤ 0 then default else n.toNat

theorem positiveOr_pos {default : Nat} (h : 0 < default) : 0 < positiveOr n default := by
  unfold positiveOr
  split <;> omega

def Scheduler.new (cfg : SchedulerConfig) : Scheduler where
  workers := positiveOr cfg.workers 5
  retryAfter := positiveOr cfg.retryAfter defaultRetryAfter
  defaultAfter := positiveOr cfg.defaultAfter defaultReconcileAfter
  workers_pos := positiveOr_pos (by decide)
  retryAfter_pos := positiveOr_pos (by decide)
  defaultAfter_pos := positiveOr_pos (by decide)

/-- Where the tick loop is. `due` has read the clock and waits for the mutex, `scanning` holds it and
has `rest` left of the keys of the schedule. -/
inductive TickLoop
  | waiting
  | due (now : Time)
  | scanning (now : Time) (rest : List Id)
  | stopped
  deriving DecidableEq, Repr

namespace Scheduler

/-- What the goroutines of a scheduler with `n` workers share, and where each of them is: `worker w`
is the entity that the worker is reconciling. -/
structure State (n : Nat) where
  schedule : AList fun _ : Id => Time := ∅
  running : Finset Id := ∅
  work : List Id := []
  loop : TickLoop := .waiting
  worker : Fin n → Option Id := fun _ => none

variable {n : Nat}

namespace State

/-- `s.schedule[id]`. The zero time is what a missing key gives. -/
def next (s : State n) (id : Id) : Time := (s.schedule.lookup id).getD 0

/-- Whether the mutex is free: the other holders release it in the step that takes it. -/
def unlocked (s : State n) : Bool :=
  match s.loop with
  | .scanning .. => false
  | _ => true

/-- `s.schedule[id] = t`. -/
def put (id : Id) (t : Time) (s : State n) : State n :=
  { s with schedule := s.schedule.insert id t }

end State

open State

/-- `Schedule`. `ScheduleNow` gives it the time of the clock. -/
def schedule (id : Id) (t : Time) (s : State n) : State n := s.put id t

/-- The body of the loop of `dispatchDue`. -/
def dispatch (now : Time) (id : Id) (s : State n) : State n :=
  if s.next id = 0 ∨ now < s.next id then s
  else if id ∈ s.running then s
  else
    let s := put id 0 { s with running := insert id s.running }
    if s.work.length < workCapacity then { s with work := s.work ++ [id] }
    else put id (now + second) { s with running := s.running.erase id }

/-- The end of one turn of the loop of `worker`, after `reconcile` has returned. -/
def finish (sch : Scheduler) (w : Fin n) (id : Id) (failed : Bool) (now : Time) (s : State n) :
    State n :=
  let s := { s with running := s.running.erase id, worker := Function.update s.worker w none }
  if failed then s.put id (now + sch.retryAfter)
  else if s.next id = 0 then s.put id (now + sch.defaultAfter)
  else s

/-- What the goroutines do, and what is done to the scheduler from outside. -/
inductive Event (n : Nat)
  | schedule (id : Id) (t : Time)
  -- The ticker fires, and `dispatchDue` reads the clock.
  | tick (now : Time)
  -- `dispatchDue` gets the mutex, and ranges over the map in some order.
  | lock (order : List Id)
  | visit
  | unlock
  | receive (w : Fin n)
  | finish (w : Fin n) (id : Id) (failed : Bool) (now : Time)
  -- The context is cancelled. The workers then drain the channel, which is closed.
  | stop
  deriving DecidableEq, Repr

def step (sch : Scheduler) (s : State n) : Event n → Option (State n)
  | .schedule id t => if s.unlocked then some (schedule id t s) else none
  | .tick now => if s.loop = .waiting then some { s with loop := .due now } else none
  | .lock order =>
    match s.loop with
    | .due now =>
      if order.Perm s.schedule.keys then some { s with loop := .scanning now order } else none
    | _ => none
  | .visit =>
    match s.loop with
    | .scanning now (id :: rest) => some (dispatch now id { s with loop := .scanning now rest })
    | _ => none
  | .unlock =>
    match s.loop with
    | .scanning _ [] => some { s with loop := .waiting }
    | _ => none
  | .receive w =>
    match s.worker w, s.work with
    | none, id :: rest => some { s with work := rest, worker := Function.update s.worker w (some id) }
    | _, _ => none
  | .finish w id failed now =>
    if s.worker w = some id ∧ s.unlocked then some (finish sch w id failed now s) else none
  | .stop => if s.loop = .waiting then some { s with loop := .stopped } else none

/-- The states a new scheduler comes to. -/
def Reaches (sch : Scheduler) (es : List (Event sch.workers)) (s : State sch.workers) : Prop :=
  Machine.run sch.step {} es = some s

section lemmas
variable (s : State n) (id : Id) (t : Time)

@[simp] theorem put_running : (put id t s).running = s.running := rfl
@[simp] theorem put_work : (put id t s).work = s.work := rfl
@[simp] theorem put_worker : (put id t s).worker = s.worker := rfl

@[simp] theorem next_put : (put id t s).next id = t := by
  simp [next, put]

theorem next_put_of_ne (h : id' ≠ id) : (put id t s).next id' = s.next id' := by
  simp [next, put, AList.lookup_insert_ne h]

end lemmas

/-- What a visit does: nothing, unless the entity is due and not running; then it goes into the
channel, or gets another time if the channel is full. -/
theorem dispatch_cases (now : Time) (id : Id) (s : State n) :
    dispatch now id s = s ∨
    s.next id ≠ 0 ∧ id ∉ s.running ∧
      (dispatch now id s = put id 0 { s with running := insert id s.running, work := s.work ++ [id] } ∨
        dispatch now id s = put id (now + second) s) := by
  unfold dispatch
  split
  · exact .inl rfl
  next hdue =>
  split
  · exact .inl rfl
  next hrunning =>
  refine .inr ⟨fun h => hdue (.inl h), hrunning, ?_⟩
  dsimp only
  split
  · exact .inl rfl
  · refine .inr ?_
    simp [put, Finset.erase_insert hrunning]

section finish
variable (sch : Scheduler) (w : Fin n) (id : Id) (failed : Bool) (now : Time) (s : State n)

theorem finish_running : (finish sch w id failed now s).running = s.running.erase id := by
  dsimp only [finish]
  split_ifs <;> rfl

theorem finish_work : (finish sch w id failed now s).work = s.work := by
  dsimp only [finish]
  split_ifs <;> rfl

theorem finish_worker :
    (finish sch w id failed now s).worker = Function.update s.worker w none := by
  dsimp only [finish]
  split_ifs <;> rfl

/-- A failure sets the time of the next attempt. A success keeps the time that has been set while the
reconciliation was going on, if there is one. -/
theorem next_finish : (finish sch w id failed now s).next id =
    if failed then now + sch.retryAfter
    else if s.next id = 0 then now + sch.defaultAfter else s.next id := by
  dsimp only [finish]
  have hnext : State.next { s with running := s.running.erase id, worker := Function.update s.worker w none }
      id = s.next id := rfl
  rw [hnext]
  split_ifs
  · exact next_put ..
  · exact next_put ..
  · rfl

theorem next_finish_ne_zero : (finish sch w id failed now s).next id ≠ 0 := by
  rw [next_finish]
  split_ifs with _ hzero
  · exact (Nat.add_pos_right now sch.retryAfter_pos).ne'
  · exact (Nat.add_pos_right now sch.defaultAfter_pos).ne'
  · exact hzero

theorem next_finish_of_ne (h : id' ≠ id) :
    (finish sch w id failed now s).next id' = s.next id' := by
  dsimp only [finish]
  split_ifs
  · exact next_put_of_ne _ _ _ h
  · exact next_put_of_ne _ _ _ h
  · rfl

end finish

end Scheduler
end Kindling
