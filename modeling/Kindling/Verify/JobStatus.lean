import Kindling.Lib.Sight
import Kindling.Verify.JobLeases

/-!
# Terminal CI jobs

Reconcile passes, cancel requests and webhook events look at the row of a job first and write its
status later, whatever it has become in between.
-/

namespace Kindling

open Fallible

def CiWorld.statusOf (w : CiWorld) (job : Id) : Option JobStatus := (w.jobs.find? job).map (·.status)

def JobStmt.writes : JobStmt β → Option JobStatus
  | markRunning .. => some .running
  | markSuccessful .. => some .successful
  | markFailed .. => some .failed
  | markCanceled _ => some .canceled
  | claimLease .. | releaseLease .. | updateInputArchivePath .. => none

theorem JobStmt.change_status (s : JobStmt β) (now : Time) (j : CiJob) :
    (s.change now j).status = s.writes.getD j.status := by
  cases s <;> rfl

def JobOp.marks : JobOp β → Option Id
  | .write s => s.writes.map fun _ => s.target
  | _ => none

def JobOp.tells : JobOp β → β → Sight Id JobStatus
  | .read _, .ok row | .create _, .ok row | .write (.claimLease ..), .ok row =>
    some (row.id, row.status)
  | .write s, .ok _ => s.writes.map fun st => (s.target, st)
  | _, _ => none

/-- Cancel requests and `completed` events write without looking at the status; the others write only
the status of a job that they have seen before its end. -/
def jobWatch (i : CiActor) : Watch JobOp Id JobStatus where
  ended := isTerminalStatus
  relies op := match i with
    | .pass .. | .event _ => op.marks
    | .cancel _ | .completed _ => none
  tells := JobOp.tells

def jobSight (i : CiActor) : Typestate JobOp (Sight Id JobStatus) :=
  (jobWatch i).typestate fun _ op v => op.returnsRow v

section programs
variable {i : CiActor} {server id : Id} {m : Sight Id JobStatus} {s : JobService} {job : CiJob}

def LiveJob (id : Id) (m : Sight Id JobStatus) : Prop :=
  ∃ st, m = some (id, st) ∧ isTerminalStatus st = false

attribute [local simp] readJob jobStmt external context discard Except.mapError markFailedQuietly
  failGitHubRunnerJob JobOp.marks JobStmt.writes JobStmt.target JobOp.tells LiveJob

@[simp] theorem jobSight_pass :
    (jobSight (.pass server id)).allows m op ↔ ∀ k ∈ op.marks, LiveJob k m := .rfl

@[simp] theorem jobSight_event {op : JobOp β} :
    (jobSight (.event n)).allows m op ↔ ∀ k ∈ op.marks, LiveJob k m := .rfl

@[simp] theorem jobSight_possible : (jobSight i).possible m op v ↔ op.returnsRow v := .rfl

@[simp] theorem jobSight_next : (jobSight i).next m op v = (op.tells v).or m := rfl

@[simp] theorem isTerminalStatus_running : isTerminalStatus .running = false := rfl

theorem withLocalLease_sees (hm : LiveJob job.id m) :
    (jobSight (.pass server id)).Follows (withLocalLease s job) (fun _ _ => True) m := by
  obtain ⟨st, rfl, hst⟩ := hm
  simp [withLocalLease, prepareWorkspace, deferring, runWorkflow, hst]

/-- The job is read again; if that fails, the pass goes on with what it has written itself. -/
theorem withGitHubLease_sees (hm : LiveJob job.id m) :
    (jobSight (.pass server id)).Follows (withGitHubLease s job) (fun _ _ => True) m := by
  obtain ⟨st, rfl, hst⟩ := hm
  unfold withGitHubLease
  cases s.ghRunner <;> simp +contextual [deferring, runGitHubRunner, Except.toOption, hst]

/-- The claim returns a queued job. -/
theorem withLease_sees (hbody : ∀ row m', LiveJob row.id m' →
      (jobSight (.pass server id)).Follows (body row) (fun _ _ => True) m') :
    (jobSight (.pass server id)).Follows (withLease s job body) (fun _ _ => True) m := by
  have hclaimed (row : CiJob) (hrow : row.status = .queued) :
      (jobSight (.pass server id)).Follows
        (deferring (jobStmt (.releaseLease row.id s.serverId)) (body row)) (fun _ _ => True)
        (some (row.id, row.status)) := by
    refine .deferring (hbody row _ ⟨_, rfl, by rw [hrow]; rfl⟩) fun _ _ _ => ?_
    simp
  simpa [withLease] using fun row _ hrow => hclaimed row hrow

theorem reconcile_sees :
    (jobSight (.pass server id)).Follows (s.reconcile id) (fun _ _ => True) none := by
  have hgithub {m} (job : CiJob) :
      (jobSight (.pass server id)).Follows (withLease s job (withGitHubLease s)) (fun _ _ => True) m :=
    withLease_sees fun _ _ => withGitHubLease_sees
  have hlocal {m} (job : CiJob) :
      (jobSight (.pass server id)).Follows (withLease s job (withLocalLease s)) (fun _ _ => True) m :=
    withLease_sees fun _ _ => withLocalLease_sees
  simp +contextual [JobService.reconcile, reconcileGitHubRunnerJob, hgithub, hlocal]

theorem applyEvent_sees (s : JobService) (n : Nat) (job : CiJob) (hkind : event.kind ≠ .completed)
    (hm : m = some (job.id, job.status)) :
    (jobSight (.event n)).Follows (applyEvent s job event) (fun _ _ => True) m := by
  unfold applyEvent
  cases hk : event.kind with
  | completed => exact absurd hk hkind
  | _ => simp [hm]

/-- An event looks at its job, or creates it, and then applies itself to it. -/
theorem handleEvent_sees (hkind : event.kind ≠ .completed) :
    (jobSight (.event n)).Follows (handleEvent s event) (fun _ _ => True) none := by
  have happly (job : CiJob) := applyEvent_sees s n job hkind rfl
  refine .andThen (Q := fun _ _ => True) ?_ fun _ _ _ => .pure trivial
  simp [handleGitHubWorkflowJobEvent, createGitHubWorkflowJob, happly]

theorem starts_see (i : CiActor) (p : Prog JobOp (Except Err Unit)) (hp : ciStarts i p) :
    (jobSight i).Admits p (fun _ _ => True) none := by
  cases i with
  | pass server job =>
    obtain ⟨s, rfl, rfl⟩ := hp
    exact reconcile_sees
  | cancel n =>
    obtain ⟨s, job, rfl⟩ := hp
    exact Watch.admits_of_uses ((LeaseStage.cancelCIJob_uses s job).mono fun _ _ _ => rfl) none
  | completed n =>
    obtain ⟨s, event, -, rfl⟩ := hp
    exact Watch.admits_of_uses ((LeaseStage.handleEvent_uses s event).mono fun _ _ _ => rfl) none
  | event n =>
    obtain ⟨s, event, hkind, rfl⟩ := hp
    exact handleEvent_sees hkind

end programs

/-! ## When a terminal status stays -/

/-- What is asked of a writer that finds the job in a status: a pass, or an event other than
`completed`, has seen it so; a cancel request, or a `completed` event, which do not look, comes before
the end of the job. -/
def TimelyFor (m : Sight Id JobStatus) (job : Id) (current : JobStatus) : CiActor → Prop
  | .pass .. | .event _ => m = some (job, current)
  | .cancel _ | .completed _ => isTerminalStatus current = false

instance : Decidable (TimelyFor m job current i) := by
  unfold TimelyFor
  split <;> infer_instance

/-- A status is written to the job only in time, or when it has that status already, or when the
statement fails. -/
def TimelyWrites (job : Id) (i : CiActor) (log : List (Call JobOp)) :
    Prog.Guard JobOp Answer CiWorld := fun _ op as w =>
  match op with
  | .write s => ∀ current ∈ w.statusOf job, ∀ st ∈ s.writes, s.target = job →
    (as.headD default).fail = true ∨ st = current ∨ TimelyFor ((jobSight i).after log) job current i
  | _ => True

instance : Decidable (TimelyWrites job i log β op as w) := by
  unfold TimelyWrites
  induction op using JobOp.casesOn <;> infer_instance

theorem statusOf_eq_some {w : CiWorld} :
    w.statusOf job = some t ↔ ∃ j, w.jobs.find? job = some j ∧ j.status = t :=
  Option.map_eq_some_iff

def JobOp.Overwrites (job : Id) (t : JobStatus) : JobOp β → Prop
  | .write s => s.target = job ∧ ∃ st ∈ s.writes, st ≠ t
  | _ => False

theorem statusOf_step {w : CiWorld} (op : JobOp β) (a : Answer) (h : w.statusOf job = some t)
    (hop : op.Overwrites job t → a.fail = true) :
    (op.step a w).2.statusOf job = some t := by
  obtain ⟨j, hj, ht⟩ := statusOf_eq_some.mp h
  cases op with
  | create row =>
    dsimp only [JobOp.step]
    split
    · exact h
    · exact statusOf_eq_some.mpr ⟨j, find?_createJob hj, ht⟩
  | write s =>
    dsimp only [JobOp.step]
    split
    · exact h
    next hfail =>
    refine statusOf_eq_some.mpr ⟨_, by rw [s.find?_exec, hj, Option.map_some], ?_⟩
    split
    · next happlies =>
      rw [s.change_status, ht]
      cases hst : s.writes with
      | none => rfl
      | some st =>
        by_contra hne
        exact hfail (hop ⟨happlies.1.symm, st, hst, hne⟩)
    · exact ht
  | _ => exact h

theorem TimelyWrites.overwrites {op : JobOp β} {as : List Answer} {w : CiWorld}
    (ht : isTerminalStatus t = true) (hw : w.statusOf job = some t)
    (hallows : (jobSight i).allows ((jobSight i).after log) op)
    (h : TimelyWrites job i log β op as w) (hop : op.Overwrites job t) :
    (as.headD default).fail = true := by
  cases op with
  | write s =>
    obtain ⟨htarget, st, hst, hne⟩ := hop
    rcases h t hw st hst htarget with hfail | heq | htimely
    · exact hfail
    · exact absurd heq hne
    · have hmarks : job ∈ JobOp.marks (.write s) := by
        rw [JobOp.marks, hst, htarget]
        rfl
      have hlive : isTerminalStatus t = false := by
        cases i with
        | pass => exact Watch.ended_of_allows hallows hmarks htimely
        | event => exact Watch.ended_of_allows hallows hmarks htimely
        | cancel | completed => exact htimely
      rw [ht] at hlive
      cases hlive
  | _ => exact hop.elim

theorem sights_kept : Team.Keeps ciStarts ciCrash (fun _ _ => Prog.unguarded) jobSight
    (fun _ _ => True) fun _ _ => True where
  starts := starts_see
  rest _ := trivial
  call _ _ _ w _ op _ _ _ _ _ := ⟨op.returnsRow_step _ w, trivial⟩
  start _ _ _ _ _ := trivial
  crash _ _ _ _ := trivial

theorem terminal_kept (ht : isTerminalStatus t = true) :
    Team.Keeps ciStarts ciCrash (TimelyWrites job) jobSight (fun _ _ => True)
      fun _ w => w.statusOf job = some t where
  starts := starts_see
  rest _ := trivial
  call M i log w β op as hM hallows hguard hw := by
    refine ⟨op.returnsRow_step _ w, statusOf_step op _ hw ?_⟩
    exact hguard.overwrites ht hw (hM ▸ hallows)
  start _ _ _ _ h := h
  crash _ i _ h := by cases i <;> exact h

/-- **Terminal jobs.** Let passes of any number of servers, cancel requests and webhook events
interleave from any state. Once a job is successful, failed or canceled, it stays so in every run in
which its status is written in time. -/
theorem terminal_status_kept (w : CiWorld) (c c' : CiTeam) (job : Id) (t : JobStatus)
    (hc : Team.Run ciStarts ciCrash (fun _ _ => Prog.unguarded) (Team.idle (.ok ()) w) c)
    (hjob : c.state.statusOf job = some t) (ht : isTerminalStatus t = true)
    (hc' : Team.Run ciStarts ciCrash (TimelyWrites job) c c') : c'.state.statusOf job = some t := by
  obtain ⟨hfollow, -⟩ := sights_kept.run (sights_kept.follow_idle _ w) trivial hc
  exact ((terminal_kept ht).run hfollow hjob hc').2

/-- Passes of two servers over the job, and two cancel requests through server 6. -/
def cancelRace : CiTeam := ((((Team.idle (.ok ()) queuedJobWorld).begin (.pass 5 7)
    (JobService.reconcile ⟨5, none, true⟩ 7)).begin (.pass 6 7)
    (JobService.reconcile ⟨6, none, true⟩ 7)).begin (.cancel 0)
    (cancelCIJob (some ⟨6, none, true⟩) 7)).begin (.cancel 1) (cancelCIJob (some ⟨6, none, true⟩) 7)

/-- Server 5 has begun to run the job, and the first request cancels it. -/
def canceledElsewhere : CiTeam :=
  cancelRace.turns (List.replicate 8 (.pass 5 7, []) ++ List.replicate 4 (.cancel 0, []))

theorem canceledElsewhere_run : Team.Run ciStarts ciCrash (fun _ _ => Prog.unguarded)
    (.idle (.ok ()) queuedJobWorld) canceledElsewhere :=
  (Team.Run.begin (.pass 5 7) _ rfl ⟨_, rfl, rfl⟩).trans
    ((Team.Run.begin (.pass 6 7) _ rfl ⟨_, rfl, rfl⟩).trans
      ((Team.Run.begin (.cancel 0) _ rfl ⟨_, _, rfl⟩).trans
        ((Team.Run.begin (.cancel 1) _ rfl ⟨_, _, rfl⟩).trans
          (Team.Run.turns (Team.turnsMeet_unguarded _ _)))))

/-- The cancel function of the run is in the memory of server 5. So its context is not canceled, and
the pass ends with a job that is successful after all. -/
theorem canceled_job_successful : ∃ c : CiTeam,
    Team.Run ciStarts ciCrash (fun _ _ => Prog.unguarded) (Team.idle (.ok ()) queuedJobWorld)
      canceledElsewhere ∧
    Team.Run ciStarts ciCrash (fun _ _ => Prog.unguarded) canceledElsewhere c ∧
    canceledElsewhere.state.statusOf 7 = some .canceled ∧ c.state.statusOf 7 = some .successful :=
  ⟨canceledElsewhere.turns (List.replicate 3 (.pass 5 7, [])), canceledElsewhere_run,
    Team.Run.turns (Team.turnsMeet_unguarded _ _), by decide +kernel, by decide +kernel⟩

/-- Server 6 finds the job at its end, and the second request cancels it once more. -/
def canceledTwice : CiTeam :=
  canceledElsewhere.turns ((.pass 6 7, []) :: List.replicate 4 (.cancel 1, []))

theorem canceledTwice_canceled : canceledTwice.state.statusOf 7 = some .canceled :=
  terminal_status_kept queuedJobWorld canceledElsewhere canceledTwice 7 .canceled
    canceledElsewhere_run (by decide +kernel) rfl (Team.Run.turns (by decide +kernel))

end Kindling
