import Kindling.Webhook.Polling

/-!
# What polling creates

A sweep creates a deployment for the head of a repository unless the latest successful deployment of the
service is for that commit. It does not look for deployments that are still building, that have failed, or
that another sweep is about to create.
-/

namespace Kindling

open Fallible

-- Comparisons of texts are not to be computed when a program is taken apart.
attribute [local irreducible] trimSpace lower trimPrefix stableHostname

/-- The head of the repository a sweep is at, and the service and the commit it is about to deploy. -/
structure SweepSight where
  head : String := ""
  pending : Option (Id × String) := none
  deriving DecidableEq, Repr

def sweepNeeds (head : String) (service : Id) : Except Err Deployment → Option (Id × String)
  | .error e => if e.isNoRows then some (service, head) else none
  | .ok latest => if latest.githubCommit == head then none else some (service, head)

/-- A sweep creates what its last look-up has led to. -/
@[simps] def sweepSight : Typestate HookOp SweepSight where
  start := {}
  allows
    | m, .sweepCreate dep => ∃ service, dep.serviceId = some service ∧
        m.pending = some (service, dep.githubCommit)
    | _, _ => True
  possible _ _ _ := True
  next
    | m, .resolveCommit _, .ok sha => { m with head := trimSpace sha }
    | m, .query (.deploymentLatestSuccessfulForProject _ service), r =>
      { m with pending := sweepNeeds m.head service r }
    | m, .sweepCreate _, _ => { m with pending := none }
    | m, _, _ => m

def SweepSight.Idle (m : SweepSight) : Prop := m.pending = none

section sweeps
variable {m : SweepSight} {proj : Project} {headSHA : String} {svc : Service}

attribute [local simp] SweepSight.Idle Yields hookQuery hookNewUUID discard

theorem sweepDeploy_follows (h : m = ⟨headSHA, some (svc.id, headSHA)⟩) :
    sweepSight.Follows (sweepDeploy proj headSHA svc) (fun _ m' => m' = ⟨headSHA, none⟩) m := by
  simp [sweepDeploy, h]

theorem pollService_follows (h : m = ⟨headSHA, none⟩) :
    sweepSight.Follows (pollService proj headSHA svc) (fun _ m' => m' = ⟨headSHA, none⟩) m := by
  simp +contextual [pollService, sweepNeeds, sweepDeploy_follows, h]

theorem resolveHead_follows (h : m.Idle) : sweepSight.Follows (resolveHead repo)
    (Yields (fun head m' => m' = ⟨head, none⟩) SweepSight.Idle) m := by
  cases m
  simp_all [resolveHead]

theorem pollProject_follows (h : m.Idle) :
    sweepSight.Follows (pollProject proj) (fun _ m' => m'.Idle) m := by
  unfold pollProject
  dsimp only
  split
  · exact .pure h
  refine (resolveHead_follows h).attempt_bind fun r m' hm => ?_
  cases r with
  | error e => exact .pure hm
  | ok headSHA =>
    have hsweep services : sweepSight.Follows (forEach services (pollService proj headSHA))
        (fun _ m' => m'.Idle) ⟨headSHA, none⟩ :=
      .mono (.forEach (fun _ _ _ => pollService_follows) rfl) (by simp)
    simp_all

theorem runWebhookPollingOnce_follows (h : m.Idle) :
    sweepSight.Follows runWebhookPollingOnce (fun _ m' => m'.Idle) m := by
  have hsweep projects : sweepSight.Follows (forEach projects pollProject) (fun _ m' => m'.Idle) m :=
    .forEach (fun _ _ _ => pollProject_follows) h
  simp_all [runWebhookPollingOnce]

end sweeps

section webhooks

attribute [local simp] HookOp.Unsweeping hookQuery previewStmt hookNewUUID orInternal query Reads.read
  Option.forall

@[simp] theorem orThrow_unsweeping : Uses HookOp.Unsweeping (orThrow e a) := by
  cases a <;> simp [orThrow]

@[simp] theorem webhookSecret_unsweeping :
    Uses HookOp.Unsweeping (webhookSecret h event body project) := by
  simp [webhookSecret, resolveWorkflowJobSecret]
  intros
  split <;> simp

@[simp] theorem authenticate_unsweeping : Uses HookOp.Unsweeping (authenticate h r) := by
  simp [authenticate]

@[simp] theorem createForServices_unsweeping :
    Uses HookOp.Unsweeping (createForServices project push branch services) := by
  induction services with
  | nil => exact .pure
  | cons service rest ih => simp [createForServices, ih]

@[simp] theorem handlePush_unsweeping : Uses HookOp.Unsweeping (handlePush h body project) := by
  simp [handlePush]

@[simp] theorem previewRetentionSeconds_unsweeping :
    Uses HookOp.Unsweeping previewRetentionSeconds := by
  simp [previewRetentionSeconds]
  intros
  split <;> simp

@[simp] theorem handlePullRequestClosed_unsweeping :
    Uses HookOp.Unsweeping (handlePullRequestClosed project prNumber) := by
  simp [handlePullRequestClosed, handlePullRequestClosed.orInternalUnlessNoRows,
    stopEnvironmentDeployments]

@[simp] theorem handlePullRequestSync_unsweeping :
    Uses HookOp.Unsweeping (handlePullRequestSync project payload baseDomain) := by
  simp [handlePullRequestSync, previewEnvironment, pointStableDomain]

@[simp] theorem handlePullRequest_unsweeping :
    Uses HookOp.Unsweeping (handlePullRequest h body project) := by
  simp [handlePullRequest, previewBaseDomain]

@[simp] theorem handleWorkflowJob_unsweeping :
    Uses HookOp.Unsweeping (handleWorkflowJob h body) := by
  unfold handleWorkflowJob
  split
  · exact .throw
  refine .bind orThrow_unsweeping fun event => .bind (.mapError ?_) fun result => .ite .pure .pure
  exact .interp (.of_forall (fun _ _ => trivial) _) fun _ _ _ => ⟨trivial, fun _ => trivial⟩

theorem serveHTTP_unsweeping : Uses HookOp.Unsweeping (serveHTTP h r) := by
  simp [serveHTTP, dispatchEvent]

end webhooks

/-! ## Runs -/

def pollSight : PollActor → Typestate HookOp SweepSight
  | .sweep _ => sweepSight
  | .webhook _ | .other _ =>
    { start := {}, allows := fun _ op => op.Unsweeping _, possible := fun _ _ _ => True
      next := fun m _ _ => m }

def PollActor.Sweeps : PollActor → Prop
  | .sweep _ => True
  | .webhook _ | .other _ => False

def HookWorld.runs (w : HookWorld) (projectId serviceId : Id) (commit : String) : Bool :=
  (w.db.latestRunning fun d => d.projectId == projectId && d.serviceId == some serviceId).any
    (·.githubCommit == commit)

/-- When a sweep looks a service up for whose head a deployment has been created by a sweep, the service
runs the head, unless the look-up fails. -/
def LooksUpDeployed : PollActor → List (Call HookOp) → Prog.Guard HookOp Answer HookWorld
  | .sweep _, log, _, .query (.deploymentLatestSuccessfulForProject project service), as, w =>
    (service, (sweepSight.after log).head) ∈ w.swept → (as.headD default).fail = true ∨
      w.runs project service (sweepSight.after log).head = true
  | _, _, _, _, _, _ => True

/-- Runs in which sweeps run one at a time and find what they have deployed. -/
abbrev PollTeam.RunInTurn (c c' : PollTeam) : Prop :=
  Team.RunApart PollActor.Sweeps pollStarts (fun _ => id) LooksUpDeployed c c'

/-- What a sweep is about to create has not been created, and nothing has been created twice. -/
structure SweptOnce (M : PollActor → SweepSight) (w : HookWorld) : Prop where
  once : w.swept.Nodup
  fresh : ∀ i, ∀ pair ∈ (M i).pending, pair ∉ w.swept
  others : ∀ i, ¬i.Sweeps → (M i).Idle

/-- A look-up that is in time does not lead to a deployment that exists. -/
theorem sweepNeeds_fresh (h : (service, head) ∈ w.swept → w.runs project service head = true) :
    ∀ pair ∈ sweepNeeds head service
      (HookQuery.eval w (.deploymentLatestSuccessfulForProject project service)), pair ∉ w.swept := by
  intro pair hpair hswept
  simp only [HookQuery.eval] at hpair
  cases hlatest : w.db.latestRunning fun d => d.projectId == project && d.serviceId == some service with
  | none =>
    rw [hlatest] at hpair
    cases hpair
    have hruns := h hswept
    rw [HookWorld.runs, hlatest] at hruns
    cases hruns
  | some latest =>
    rw [hlatest] at hpair
    change pair ∈ if latest.githubCommit == head then none else some (service, head) at hpair
    split at hpair
    · cases hpair
    · next hcommit =>
      cases hpair
      have hruns := h hswept
      rw [HookWorld.runs, hlatest] at hruns
      exact hcommit hruns

section steps
variable {M : PollActor → SweepSight} {i : PollActor} {w w' : HookWorld} {m : SweepSight}

theorem SweptOnce.update (h : SweptOnce M w) (hswept : w'.swept = w.swept)
    (hm : ∀ pair ∈ m.pending, pair ∉ w.swept) (hothers : ¬i.Sweeps → m.Idle) :
    SweptOnce (Function.update M i m) w' := by
  refine ⟨hswept ▸ h.once, fun j pair hpair => ?_, fun j hj => ?_⟩
  · rw [hswept]
    by_cases hji : j = i
    · subst hji
      rw [Function.update_self] at hpair
      exact hm pair hpair
    · rw [Function.update_of_ne hji] at hpair
      exact h.fresh j pair hpair
  · by_cases hji : j = i
    · subst hji
      rw [Function.update_self]
      exact hothers hj
    · rw [Function.update_of_ne hji]
      exact h.others j hj

/-- A creation, while nothing is pending elsewhere. -/
theorem SweptOnce.create (h : SweptOnce M w) (hswept : w'.swept = pair :: w.swept)
    (hfresh : pair ∉ w.swept) (hm : m.Idle) (hothers : ∀ j, i ≠ j → (M j).Idle) :
    SweptOnce (Function.update M i m) w' := by
  have hidle : ∀ j, (Function.update M i m j).Idle := by
    intro j
    by_cases hji : j = i
    · subst hji
      rw [Function.update_self]
      exact hm
    · rw [Function.update_of_ne hji]
      exact hothers j (.symm hji)
  refine ⟨hswept ▸ List.nodup_cons.mpr ⟨hfresh, h.once⟩, fun j pair hpair => ?_, fun j _ => hidle j⟩
  rw [hidle j] at hpair
  cases hpair

end steps

theorem HookOp.swept_exec {op : HookOp β} (hop : op.Unsweeping) (as : List Answer) (w : HookWorld) :
    (op.exec as w).state.swept = w.swept := by
  cases op with
  | sweepCreate => exact hop.elim
  | previews s =>
    simp only [HookOp.exec]
    split <;> rfl
  | _ => rfl

theorem sweepCreate_swept (hservice : dep.serviceId = some service) :
    (HookOp.exec (.sweepCreate dep) as w).state.swept = w.swept ∨
      (HookOp.exec (.sweepCreate dep) as w).state.swept = (service, dep.githubCommit) :: w.swept := by
  simp only [HookOp.exec, hservice]
  split
  · next hs =>
    cases hs
    exact .inr rfl
  · exact .inl rfl

theorem polling_kept : Team.KeepsApart PollActor.Sweeps pollStarts (fun _ => id) LooksUpDeployed
    pollSight (fun _ m => m.Idle) SweptOnce where
  starts i p hp := by
    cases i with
    | sweep n =>
      cases hp
      exact .bind (runWebhookPollingOnce_follows rfl) fun _ _ hm => hm
    | webhook n =>
      obtain ⟨h, r, rfl⟩ := hp
      have huses : Prog.Uses HookOp.Unsweeping (quietly (serveHTTP h r)) :=
        .bind serveHTTP_unsweeping fun _ => trivial
      exact .keeping (huses.mono fun _ _ hop m hm => ⟨hop, fun _ _ => hm⟩) rfl
    | other n =>
      exact .keeping (hp.mono fun _ _ hop m hm => ⟨hop, fun _ _ => hm⟩) rfl
  rest i := by cases i <;> rfl
  call M i log w β op as hM hallows hguard hapart hI := by
    cases i with
    | webhook n =>
      exact ⟨trivial, hI.update (HookOp.swept_exec hallows as w) (hI.fresh _) (hI.others _)⟩
    | other n =>
      exact ⟨trivial, hI.update (HookOp.swept_exec hallows as w) (hI.fresh _) (hI.others _)⟩
    | sweep n =>
      refine ⟨trivial, ?_⟩
      cases op with
      | sweepCreate dep =>
        obtain ⟨service, hservice, hpending⟩ := hallows
        rcases sweepCreate_swept hservice with hswept | hswept
        · exact hI.update hswept nofun fun h => (h trivial).elim
        · refine hI.create hswept (hI.fresh _ _ hpending) rfl fun j hj => ?_
          by_cases hsweeps : j.Sweeps
          · exact hapart j trivial hsweeps hj
          · exact hI.others j hsweeps
      | query q =>
        have hsame := @HookOp.swept_exec _ (.query q) trivial as w
        cases q with
        | deploymentLatestSuccessfulForProject project service =>
          refine hI.update hsame ?_ fun h => (h trivial).elim
          change ∀ pair ∈ sweepNeeds (M (.sweep n)).head service
            (if (as.headD default).fail then .error (.of .unavailable) else _), pair ∉ w.swept
          split
          · exact nofun
          · next hfail =>
            rw [hM]
            exact sweepNeeds_fresh fun hmem => (hguard hmem).resolve_left hfail
        | _ => exact hI.update hsame (hI.fresh _) fun h => (h trivial).elim
      | resolveCommit repo =>
        refine hI.update rfl ?_ fun h => (h trivial).elim
        change ∀ pair ∈ (sweepSight.next (M (.sweep n)) (.resolveCommit repo)
          (if (as.headD default).fail then .error (.of .unavailable) else .ok _)).pending, pair ∉ w.swept
        split <;> exact hI.fresh (.sweep n)
      | _ =>
        refine hI.update (HookOp.swept_exec ?_ as w) (hI.fresh _) fun h => (h trivial).elim
        trivial
  start M i w hidle hI := by
    refine hI.update rfl ?_ ?_
    · cases i <;> exact nofun
    · cases i <;> exact fun _ => rfl
  crash M i w hI := by
    refine hI.update rfl ?_ ?_
    · cases i <;> exact nofun
    · cases i <;> exact fun _ => rfl

/-- **Polling creates at most one deployment for a service and a commit.** Let sweeps of any servers,
webhooks and any other programs interleave, with any answers and crashes. In every run in which sweeps run
one at a time, and a sweep that looks a service up finds it running its head if a sweep has created a
deployment for that before, no two deployments that sweeps have created have the same service and
commit. -/
theorem sweeps_create_once (w : HookWorld) (c : PollTeam) (hw : w.swept = [])
    (hc : PollTeam.RunInTurn (Team.idle () w) c) :
    c.state.swept.Nodup := by
  refine (polling_kept.run (Team.apart_idle _ _ w) (fun i => by cases i <;> rfl) ?_ hc).2.once
  refine ⟨?_, fun i pair hpair => ?_, fun i _ => ?_⟩
  · change w.swept.Nodup
    rw [hw]
    exact List.nodup_nil
  · cases i <;> cases hpair
  · cases i <;> rfl

/-- Project 3 of the repository `acme/app`, with a service that runs nothing. -/
def pollSampleWorld : HookWorld where
  db := { projects := .single { id := 3, githubRepository := "acme/app" }
          services := .single { id := 4, projectId := 3 } }

/-- The calls of a sweep: it finds the project, the head, the service and what the service runs, and
creates a deployment with the given identifier. -/
def sweepTurns (n : Nat) (deployment : Id) : List (PollActor × List Answer) :=
  [(.sweep n, []), (.sweep n, [{ text := "c1" }]), (.sweep n, []), (.sweep n, []),
    (.sweep n, [{ uuids := fun _ => deployment }]), (.sweep n, [])]

def firstSweep : PollTeam :=
  ((Team.idle () pollSampleWorld).begin (.sweep 0) (quietly runWebhookPollingOnce)).turns
    (sweepTurns 0 10)

def secondSweep (c : PollTeam) : PollTeam :=
  (c.begin (.sweep 0) (quietly runWebhookPollingOnce)).turns (sweepTurns 0 11)

/-- The second sweep comes after the first, while the first deployment is still being built. -/
theorem two_sweeps_deploy_twice : ∃ c : PollTeam,
    Team.Run pollStarts (fun _ => id) (fun _ _ => Prog.unguarded) (Team.idle () pollSampleWorld) c ∧
    c.state.swept = [(4, "c1"), (4, "c1")] ∧
    c.state.db.deployments.rows.map (fun d => (d.id, d.serviceId, d.githubCommit, d.kind)) =
      [(10, some 4, "c1", .production), (11, some 4, "c1", .production)] := by
  have hfirst : Team.Run pollStarts (fun _ => id) (fun _ _ => Prog.unguarded)
      (Team.idle () pollSampleWorld) firstSweep :=
    (Team.Run.begin (.sweep 0) _ rfl rfl).trans (Team.Run.turns (Team.turnsMeet_unguarded _ _))
  obtain ⟨r, hr⟩ : firstSweep.AtRest (.sweep 0) := Team.atRest_of_resting (by decide +kernel)
  refine ⟨secondSweep firstSweep, hfirst.trans ((Team.Run.begin (.sweep 0) _ hr rfl).trans
    (Team.Run.turns (Team.turnsMeet_unguarded _ _))), ?_, ?_⟩ <;> decide +kernel

instance : Decidable (LooksUpDeployed i log β op as w) := by
  cases i with
  | sweep => induction op using HookOp.casesOn with
    | query q =>
      induction q using HookQuery.casesOn <;>
        first | exact instDecidableTrue | exact inferInstanceAs (Decidable (_ → _ ∨ _))
    | _ => exact instDecidableTrue
  | _ => exact instDecidableTrue

/-- The first deployment comes to run. -/
def markRunningProgram : Prog HookOp Unit :=
  quietly (ofCall (.api (.op (.db (.deployments (.markRunning 10))))) : Go HookOp Unit)

def deployedFirst : PollTeam :=
  (firstSweep.begin (.other 0) markRunningProgram).turns [(.other 0, [{ now := 9 }])]

/-- A step of the run that the sweeps below make: a program begins, and makes its calls. -/
theorem PollTeam.runInTurn_next (hc : c.OnlyRuns PollActor.Sweeps (.sweep 0)) (i : PollActor)
    (p : Prog HookOp Unit) (schedule : List (PollActor × List Answer)) (hrest : c.resting i = true)
    (hp : pollStarts i p) (hi : i.Sweeps → i = .sweep 0)
    (hmeets : Team.TurnsMeet LooksUpDeployed (c.begin i p) schedule) :
    PollTeam.RunInTurn c ((c.begin i p).turns schedule) ∧
      ((c.begin i p).turns schedule).OnlyRuns PollActor.Sweeps (.sweep 0) := by
  obtain ⟨hbegin, honly⟩ : PollTeam.RunInTurn c (c.begin i p) ∧
      (c.begin i p).OnlyRuns PollActor.Sweeps (.sweep 0) :=
    Team.RunApart.begin i p (Team.atRest_of_resting hrest) hp hi hc
  obtain ⟨hturns, honly⟩ : PollTeam.RunInTurn (c.begin i p) ((c.begin i p).turns schedule) ∧
      ((c.begin i p).turns schedule).OnlyRuns PollActor.Sweeps (.sweep 0) :=
    Team.RunApart.turns hmeets honly
  exact ⟨hbegin.trans hturns, honly⟩

/-- The second sweep comes once the first deployment runs. -/
theorem second_sweep_skips : (secondSweep deployedFirst).state.swept.Nodup := by
  have hmark : pollStarts (.other 0) markRunningProgram :=
    Prog.Uses.bind (Fallible.Uses.ofCall trivial) fun _ => trivial
  obtain ⟨hfirst, honly⟩ := PollTeam.runInTurn_next (c := Team.idle () pollSampleWorld)
    (fun _ _ _ => ⟨(), rfl⟩) (.sweep 0) (quietly runWebhookPollingOnce) (sweepTurns 0 10) rfl rfl
    (fun _ => rfl) (by decide +kernel)
  obtain ⟨hdeployed, honly⟩ := PollTeam.runInTurn_next honly (.other 0) markRunningProgram
    [(.other 0, [{ now := 9 }])] (by decide +kernel) hmark nofun (by decide +kernel)
  obtain ⟨hsecond, -⟩ := PollTeam.runInTurn_next honly (.sweep 0) (quietly runWebhookPollingOnce)
    (sweepTurns 0 11) (by decide +kernel) rfl (fun _ => rfl) (by decide +kernel)
  exact sweeps_create_once pollSampleWorld _ rfl (hfirst.trans (hdeployed.trans hsecond))

end Kindling
