import Kindling.CI.Service
import Kindling.Deploy.Executions

/-!
# Leases of CI jobs

A claim takes a lease only when nobody has it, a release gives up only one's own, and a pass of a
server releases what it has claimed when it ends.
-/

namespace Kindling

open Fallible

variable {w : CiWorld} {server : Id} {i : CiActor}

def CiWorld.leaseOf (w : CiWorld) (job : Id) : Option Id := (w.jobs.find? job).bind (·.processingBy)

def JobOp.EndsLease (job server : Id) : JobOp β → Prop
  | .write (.releaseLease j s) => j = job ∧ s = server
  | _ => False

theorem JobStmt.find?_exec (s : JobStmt β) (now : Time) (t : JobTable) (job : Id) :
    (s.exec now t).2.find? job = (t.find? job).map fun j =>
      if job = s.target ∧ s.applies j then s.change now j else j :=
  t.find?_updateKey _ _ _ (s.change_id now) _

theorem find?_createJob {id : Id} (h : t.find? id = some j) :
    (createJob now job t).2.find? id = some j := by
  unfold createJob
  split
  · exact h
  · exact find?_inserting h

theorem leaseOf_eq_some :
    w.leaseOf job = some server ↔ ∃ j, w.jobs.find? job = some j ∧ j.processingBy = some server :=
  Option.bind_eq_some_iff

/-- A lease that is held stays, unless its holder releases it: a claim by another server does not
match the row. -/
theorem leaseOf_step (op : JobOp β) (a : Answer) (h : w.leaseOf job = some server)
    (hop : ¬op.EndsLease job server) :
    (op.step a w).2.leaseOf job = some server := by
  obtain ⟨j, hj, hlease⟩ := leaseOf_eq_some.mp h
  cases op with
  | create row =>
    dsimp only [JobOp.step]
    split
    · exact h
    · exact leaseOf_eq_some.mpr ⟨j, find?_createJob hj, hlease⟩
  | write s =>
    dsimp only [JobOp.step]
    split
    · exact h
    · refine leaseOf_eq_some.mpr ⟨_, by rw [s.find?_exec, hj, Option.map_some], ?_⟩
      split
      · next happlies =>
        obtain ⟨htarget, happlies⟩ := happlies
        cases s with
        | claimLease i s =>
          simp only [JobStmt.applies, hlease, Bool.and_eq_true, Bool.or_eq_true, beq_iff_eq,
            reduceCtorEq, false_or] at happlies
          exact happlies.2.symm
        | releaseLease i s =>
          have hs : server = s := by simpa [JobStmt.applies, hlease] using happlies
          exact (hop ⟨htarget.symm, hs.symm⟩).elim
        | _ => exact hlease
      · exact hlease
  | _ => exact h

theorem leaseOf_claim (h : ((JobOp.write (.claimLease job server)).step a w).1 = .ok row) :
    ((JobOp.write (.claimLease job server)).step a w).2.leaseOf job = some server := by
  dsimp only [JobOp.step] at h ⊢
  split at h
  · cases h
  next hfail =>
  rw [if_neg hfail]
  obtain ⟨j, hj, happlies, -, -⟩ := Table.updateKey_fst_eq_some (one_ok h)
  replace hj : w.jobs.find? job = some j := hj
  refine leaseOf_eq_some.mpr ⟨{ j with processingBy := some server }, ?_, rfl⟩
  rw [JobStmt.find?_exec, hj, Option.map_some, if_pos ⟨rfl, happlies⟩]
  rfl

inductive LeaseStage | none | held | registered
  deriving DecidableEq, Repr

def JobOp.returnsRow : JobOp β → β → Prop
  | .read (.firstByID id), .ok row => row.id = id
  | .write (.claimLease id _), .ok row => row.id = id ∧ row.status = .queued
  | _, _ => True

@[simp] theorem JobOp.returnsRow_firstByID :
    (JobOp.read (.firstByID job)).returnsRow (.ok row) ↔ row.id = job := .rfl

@[simp] theorem JobOp.returnsRow_claimLease : (JobOp.write (.claimLease job server)).returnsRow
    (.ok row) ↔ row.id = job ∧ row.status = .queued := .rfl

theorem JobOp.returnsRow_step (op : JobOp β) (a : Answer) (w : CiWorld) :
    op.returnsRow (op.step a w).1 := by
  cases op with
  | read q =>
    cases q with
    | firstByID id =>
      dsimp only [JobOp.step]
      split
      · trivial
      · cases hrow : JobQuery.eval w.jobs (.firstByID id) with
        | error e => trivial
        | ok row => exact Table.find?_key (one_ok hrow)
    | firstByExternalWorkflowJobID id => trivial
  | write s =>
    cases s with
    | claimLease id server =>
      dsimp only [JobOp.step]
      split
      · trivial
      · cases hrow : ((JobStmt.claimLease id server).exec a.now w.jobs).1 with
        | error e => trivial
        | ok row =>
          obtain ⟨j, -, happlies, rfl, hid⟩ := Table.updateKey_fst_eq_some (one_ok hrow)
          simp only [JobStmt.applies, Bool.and_eq_true, beq_iff_eq] at happlies
          exact ⟨hid, happlies.1⟩
    | _ => trivial
  | _ => trivial

namespace LeaseStage

def next (m : LeaseStage) : JobOp β → β → LeaseStage
  | .write (.claimLease ..), .ok _ => .held
  | .write (.releaseLease ..), _ => .none
  | .register .., _ => .registered
  | .unregister .., _ => .held
  | _, _ => m

/-- A pass claims and releases the lease of its own job, and registers the job, and runs it, while it
holds the lease. -/
def passAllows (server job : Id) (m : LeaseStage) : JobOp β → Prop
  | .write (.claimLease j s) => j = job ∧ s = server ∧ m = .none
  | .write (.releaseLease j s) => j = job ∧ s = server ∧ m = .held
  | .register s j => s = server ∧ j = job ∧ m = .held
  | .unregister s j => s = server ∧ j = job ∧ m = .registered
  | .external .runWorkflow | .external .runRunner => m = .registered
  | _ => True

/-- Cancel requests and webhook events have nothing to do with leases. -/
def requestAllows (β : Type) : JobOp β → Prop
  | .write (.claimLease ..) | .write (.releaseLease ..) | .register .. | .unregister .. => False
  | _ => True

def typestate : CiActor → Typestate JobOp LeaseStage
  | .pass server job => ⟨.none, passAllows server job, fun _ op v => op.returnsRow v, next⟩
  | _ => ⟨.none, fun _ op => requestAllows _ op, fun _ op v => op.returnsRow v, next⟩

section passes
variable {s : JobService} {id : Id} {job : CiJob}

attribute [local simp] readJob jobStmt external context discard Except.mapError markFailedQuietly
  failGitHubRunnerJob passAllows next

abbrev ofPass (s : JobService) (id : Id) : Typestate JobOp LeaseStage := typestate (.pass s.serverId id)

@[simp] theorem ofPass_allows : (ofPass s id).allows m op ↔ passAllows s.serverId id m op := .rfl

@[simp] theorem ofPass_possible : (ofPass s id).possible m op v ↔ op.returnsRow v := .rfl

@[simp] theorem ofPass_next : (ofPass s id).next m op v = next m op v := rfl

theorem withLocalLease_follows (hid : job.id = id) :
    (ofPass s id).Follows (withLocalLease s job) (fun _ m' => m' = .held) .held := by
  simp [withLocalLease, prepareWorkspace, deferring, runWorkflow, hid]

theorem withGitHubLease_follows (hid : job.id = id) :
    (ofPass s id).Follows (withGitHubLease s job) (fun _ m' => m' = .held) .held := by
  unfold withGitHubLease
  cases s.ghRunner <;> simp [deferring, runGitHubRunner, hid]

theorem withLease_follows (hid : job.id = id) (hbody : ∀ row : CiJob, row.id = id →
      (ofPass s id).Follows (body row) (fun _ m' => m' = .held) .held) :
    (ofPass s id).Follows (withLease s job body) (fun _ m' => m' = .none) .none := by
  have hclaimed (row : CiJob) (hrow : row.id = id) : (ofPass s id).Follows
      (deferring (jobStmt (.releaseLease row.id s.serverId)) (body row)) (fun _ m' => m' = .none)
      .held := by
    refine .deferring (hbody row hrow) fun _ m' hm' => ?_
    simp [hm', hrow]
  simpa [withLease, hid] using fun row hrow _ => hclaimed row hrow

theorem reconcile_follows :
    (ofPass s id).Follows (s.reconcile id) (fun _ m' => m' = .none) .none := by
  have hgithub (job : CiJob) (hid : job.id = id) :=
    withLease_follows hid fun _ => withGitHubLease_follows (s := s)
  have hlocal (job : CiJob) (hid : job.id = id) :=
    withLease_follows hid fun _ => withLocalLease_follows (s := s)
  simp +contextual [JobService.reconcile, reconcileGitHubRunnerJob, hgithub, hlocal]

end passes

attribute [local simp] readJob jobStmt external requestAllows

theorem cancelCIJob_uses (s : Option JobService) (id : Id) : Uses requestAllows (cancelCIJob s id) := by
  cases s <;> simp [cancelCIJob, JobService.cancel, cancelRunningJob]

theorem applyEvent_uses : Uses requestAllows (applyEvent s job event) := by
  have hfinish : Uses requestAllows (finishGitHubWorkflowJob job event.conclusion) := by
    unfold finishGitHubWorkflowJob
    cases conclusionOf event.conclusion <;> simp
  unfold applyEvent
  cases event.kind <;> simp [cancelRunningJob, hfinish]

theorem handleEvent_uses (s : JobService) (event : GitHubWorkflowJobEvent) :
    Uses requestAllows (handleEvent s event) := by
  simp [handleEvent, handleGitHubWorkflowJobEvent, createGitHubWorkflowJob, applyEvent_uses]

theorem starts_follow (i : CiActor) (p : Prog JobOp (Except Err Unit)) (hp : ciStarts i p) :
    (typestate i).Admits p (fun _ m => m = .none) .none := by
  have hrequest : ∀ {i}, (∀ server job, i ≠ .pass server job) → ∀ {p : Go JobOp Unit},
      Uses requestAllows p → (typestate i).Follows p (fun _ m => m = .none) .none := by
    intro i hi p hp
    refine .of_uses (hp.mono fun β op hop => ?_)
    cases i with
    | pass server job => exact (hi server job rfl).elim
    | cancel | completed | event =>
      refine ⟨hop, fun v _ => ?_⟩
      cases op with
      | write s => cases s <;> first | exact hop.elim | rfl
      | register | unregister => exact hop.elim
      | _ => rfl
  cases i with
  | pass server job =>
    obtain ⟨s, rfl, rfl⟩ := hp
    exact reconcile_follows
  | cancel n =>
    obtain ⟨s, job, rfl⟩ := hp
    exact hrequest (fun _ _ h => by cases h) (cancelCIJob_uses s job)
  | completed n | event n =>
    obtain ⟨s, event, -, rfl⟩ := hp
    exact hrequest (fun _ _ h => by cases h) (handleEvent_uses s event)

end LeaseStage

/-! ## Registered jobs -/

def JobOp.Registers (server job : Id) : JobOp β → Prop
  | .register s j => s = server ∧ j = job
  | _ => False

def JobOp.Unregisters (server job : Id) : JobOp β → Prop
  | .unregister s j => s = server ∧ j = job
  | _ => False

theorem Registration.isFor_iff {job : Id} {r : Registration} :
    r.isFor server job = true ↔ r.server = server ∧ r.job = job := by
  simp [Registration.isFor]

/-- A job that is registered was so before, and has not been taken off; or it has just been
registered. -/
theorem mem_running_step (op : JobOp β) (a : Answer) (h : r ∈ (op.step a w).2.running) :
    (∃ r₀ ∈ w.running, r₀.server = r.server ∧ r₀.job = r.job ∧ ¬op.Unregisters r.server r.job) ∨
      op.Registers r.server r.job := by
  have hsame : r ∈ w.running → ¬op.Unregisters r.server r.job →
      (∃ r₀ ∈ w.running, r₀.server = r.server ∧ r₀.job = r.job ∧ ¬op.Unregisters r.server r.job) ∨
        op.Registers r.server r.job := fun hr hop => .inl ⟨r, hr, rfl, rfl, hop⟩
  cases op with
  | write | create =>
    dsimp only [JobOp.step] at h
    split at h
    · exact hsame h id
    · exact hsame h id
  | register server job =>
    rcases List.mem_cons.mp h with rfl | h
    · exact .inr ⟨rfl, rfl⟩
    · exact hsame (List.mem_filter.mp h).1 id
  | unregister server job =>
    obtain ⟨hr, hnot⟩ := List.mem_filter.mp h
    refine hsame hr fun hop => ?_
    rw [Registration.isFor_iff.mpr ⟨hop.1.symm, hop.2.symm⟩] at hnot
    cases hnot
  | cancelRunning server job =>
    obtain ⟨r₀, hr₀, rfl⟩ := List.mem_map.mp h
    unfold Registration.cancelFor
    split
    · exact .inl ⟨r₀, hr₀, rfl, rfl, id⟩
    · exact .inl ⟨r₀, hr₀, rfl, rfl, id⟩
  | _ => exact hsame h id

namespace LeaseStage

theorem allows_endsLease (hallows : (typestate i).allows m op) (h : op.EndsLease job server) :
    i = .pass server job := by
  cases op with
  | write s =>
    cases s with
    | releaseLease j s =>
      cases i with
      | pass server' job' =>
        obtain ⟨rfl, rfl, -⟩ := hallows
        rw [h.1, h.2]
      | cancel | completed | event => exact hallows.elim
    | _ => exact h.elim
  | _ => exact h.elim

theorem allows_registers {op : JobOp β} (hallows : (typestate i).allows m op)
    (h : op.Registers server job) (v : β) :
    i = .pass server job ∧ (typestate i).next m op v = .registered := by
  cases op with
  | register s j =>
    cases i with
    | pass server' job' =>
      obtain ⟨rfl, rfl, -⟩ := hallows
      exact ⟨by rw [h.1, h.2], rfl⟩
    | cancel | completed | event => exact hallows.elim
  | _ => exact h.elim

/-- A pass stays registered until it takes its job off. -/
theorem next_registered {op : JobOp β} (hallows : passAllows server job .registered op)
    (h : ¬op.Unregisters server job) (v : β) :
    next .registered op v = .registered := by
  cases op with
  | write s =>
    cases s with
    | claimLease | releaseLease => exact absurd hallows.2.2 (by decide)
    | _ => rfl
  | unregister s j => exact absurd ⟨hallows.1, hallows.2.1⟩ h
  | register => exact absurd hallows.2.2 (by decide)
  | _ => rfl

theorem leaseOf_next (op : JobOp β) (a : Answer) (hallows : passAllows server job m op)
    (hheld : m ≠ .none → w.leaseOf job = some server) (hnext : next m op (op.step a w).1 ≠ .none) :
    (op.step a w).2.leaseOf job = some server := by
  have hkept : m ≠ .none → ¬op.EndsLease job server →
      (op.step a w).2.leaseOf job = some server := fun hm => leaseOf_step op a (hheld hm)
  cases op with
  | write s =>
    cases s with
    | claimLease j s =>
      obtain ⟨rfl, rfl, rfl⟩ := hallows
      cases hv : ((JobOp.write (.claimLease j s)).step a w).1 with
      | ok row => exact leaseOf_claim hv
      | error e =>
        rw [hv] at hnext
        exact absurd rfl hnext
    | releaseLease => exact absurd rfl hnext
    | _ => exact hkept hnext id
  | register | unregister => exact hkept (by rw [hallows.2.2]; decide) id
  | _ => exact hkept hnext id

end LeaseStage

/-! ## Any interleaving -/

structure LeaseSound (M : CiActor → LeaseStage) (w : CiWorld) : Prop where
  held : ∀ server job, M (.pass server job) ≠ .none → w.leaseOf job = some server
  registered : ∀ r ∈ w.running, M (.pass r.server r.job) = .registered

theorem LeaseSound.call {op : JobOp β} (a : Answer) (h : LeaseSound M w)
    (hallows : (LeaseStage.typestate i).allows (M i) op) :
    LeaseSound (Function.update M i ((LeaseStage.typestate i).next (M i) op (op.step a w).1))
      (op.step a w).2 where
  held server job hne := by
    by_cases hi : i = .pass server job
    · subst hi
      rw [Function.update_self] at hne
      exact LeaseStage.leaseOf_next op a hallows (h.held server job) hne
    · rw [Function.update_of_ne (.symm hi)] at hne
      exact leaseOf_step op a (h.held server job hne) fun hend =>
        hi (LeaseStage.allows_endsLease hallows hend)
  registered r hr := by
    rcases mem_running_step op a hr with ⟨r₀, hr₀, hserver, hjob, hnot⟩ | hreg
    · have hM := h.registered r₀ hr₀
      rw [hserver, hjob] at hM
      by_cases hi : i = .pass r.server r.job
      · subst hi
        rw [Function.update_self, hM]
        exact LeaseStage.next_registered (hM ▸ hallows) hnot _
      · rw [Function.update_of_ne (.symm hi), hM]
    · obtain ⟨rfl, hnext⟩ := LeaseStage.allows_registers hallows hreg (op.step a w).1
      rw [Function.update_self, hnext]

theorem leases_kept : Team.Keeps ciStarts ciCrash (fun _ _ => Prog.unguarded) LeaseStage.typestate
    (fun _ m => m = .none) LeaseSound where
  starts := fun i p hp => by
    have := LeaseStage.starts_follow i p hp
    cases i <;> exact this
  rest i := by cases i <;> rfl
  call M i log w β op as _ hallows _ hI := by
    refine ⟨?_, hI.call (as.headD default) hallows⟩
    have := op.returnsRow_step (as.headD default) w
    cases i <;> exact this
  start M i w hrest hI := by
    have hsame : Function.update M i (LeaseStage.typestate i).start = M := by
      refine Function.update_eq_self_iff.mpr ?_
      cases i <;> exact hrest.symm
    rw [hsame]
    exact hI
  crash M i w hI := by
    have hrequest : (∀ server job, .pass server job ≠ i) →
        LeaseSound (Function.update M i .none) w := fun hi =>
      ⟨fun server job hne => hI.held server job (by rwa [Function.update_of_ne (hi server job)] at hne),
        fun r hr => by rw [Function.update_of_ne (hi _ _)]; exact hI.registered r hr⟩
    cases i with
    | cancel | completed | event => exact hrequest fun _ _ h => by cases h
    | pass server job =>
      refine ⟨fun server' job' hne => ?_, fun r hr => ?_⟩
      · by_cases heq : CiActor.pass server' job' = .pass server job
        · rw [heq, Function.update_self] at hne
          exact absurd rfl hne
        · exact hI.held server' job' (by rwa [Function.update_of_ne heq] at hne)
      · obtain ⟨hr, hnot⟩ := List.mem_filter.mp hr
        rw [Function.update_of_ne]
        · exact hI.registered r hr
        · intro heq
          cases heq
          simp [Registration.isFor] at hnot

/-- What the pass of a server over a job has done so far, as far as its lease is concerned. -/
def CiTeam.stage (c : CiTeam) (server job : Id) : LeaseStage :=
  (LeaseStage.typestate (.pass server job)).after (c.log (.pass server job))

def queuedJobWorld : CiWorld where
  jobs := .single { id := 7, projectId := 1, inputArchivePath := "/ci/7.tar.gz" }

/-- Servers 5 and 6 both find the job queued; 5 claims it and begins to run it, 6 does not get it. -/
def racingServers : CiTeam :=
  (((Team.idle (.ok ()) queuedJobWorld).begin (.pass 5 7) (JobService.reconcile ⟨5, none, true⟩ 7)).begin
    (.pass 6 7) (JobService.reconcile ⟨6, none, true⟩ 7)).turns
    [(.pass 5 7, []), (.pass 6 7, []), (.pass 5 7, []), (.pass 6 7, []), (.pass 5 7, []),
      (.pass 5 7, []), (.pass 5 7, [])]

theorem racingServers_run : Team.Run ciStarts ciCrash (fun _ _ => Prog.unguarded)
    (.idle (.ok ()) queuedJobWorld) racingServers :=
  (Team.Run.begin (.pass 5 7) _ rfl ⟨⟨5, none, true⟩, rfl, rfl⟩).trans
    ((Team.Run.begin (.pass 6 7) _ rfl ⟨⟨6, none, true⟩, rfl, rfl⟩).trans
      (Team.Run.turns (Team.turnsMeet_unguarded _ _)))

end Kindling
