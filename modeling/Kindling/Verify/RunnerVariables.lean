import Kindling.CI.Runner
import Kindling.Lib.Typestate

/-!
# The variables of a step

A run keeps the variables of the last agent step for the jobs after it, and with them those of the
job and of the step itself.
-/

namespace Kindling
open Fallible

variable {f : RunnerErr → RunnerErr} {jobEnv stepEnv : Vars} {st : RunState}

/-- The job at work, the last agent step it ran, and the earlier jobs that ran one, each with the last
one it ran. -/
structure EnvTrace where
  job : Option CompiledJob := none
  agent : Option CompiledStep := none
  earlier : List (CompiledJob × CompiledStep) := []

def EnvTrace.agents (m : EnvTrace) : List (CompiledJob × CompiledStep) :=
  match m.job, m.agent with
  | some job, some step => m.earlier ++ [(job, step)]
  | _, _ => m.earlier

def EnvTrace.next : EnvTrace → RunOp β → β → EnvTrace
  | m, .beginJob job, _ => { job := some job, earlier := m.agents }
  | m, .runStep _ _ step _ _ _, .ok _ =>
    if step.kind = .sshAgent then { m with agent := some step } else m
  | m, _, _ => m

structure ExecutedStep where
  job : Option CompiledJob
  step : CompiledStep
  env : Vars
  earlier : List (CompiledJob × CompiledStep)

def executedStep (m : EnvTrace) : RunOp β → List ExecutedStep
  | .runStep _ _ step env _ _ => [⟨m.job, step, env, m.earlier⟩]
  | _ => []

def executedSteps : EnvTrace → List (Call RunOp) → List ExecutedStep
  | _, [] => []
  | m, c :: cs => executedStep m c.op ++ executedSteps (m.next c.op c.value) cs

/-- The variables that a step may have: of the host and the overrides, its job and itself, and the
agent. -/
def ExecutedStep.Own (base : Vars) (e : ExecutedStep) (x : String) : Prop :=
  x ∈ base ∨ (∃ job ∈ e.job, x ∈ job.env) ∨ x ∈ e.step.env ∨ x ∈ agentVars

instance (e : ExecutedStep) : Decidable (e.Own base x) := inferInstanceAs (Decidable (_ ∨ _))

def SetBy (agents : List (CompiledJob × CompiledStep)) (x : String) : Prop :=
  ∃ a ∈ agents, x ∈ a.1.env ∨ x ∈ a.2.env

def Leaves (base : Vars) (agents : List (CompiledJob × CompiledStep)) (sshEnv : Vars) : Prop :=
  ∀ x, x ∈ sshEnv ↔ agents ≠ [] ∧ (x ∈ base ∨ x ∈ agentVars ∨ SetBy agents x)

def Gets (base : Vars) (m : EnvTrace) (step : CompiledStep) (env : Vars) : Prop :=
  ∀ x, x ∈ env ↔ x ∈ base ∨ (∃ job ∈ m.job, x ∈ job.env) ∨ x ∈ step.env ∨
    m.earlier ≠ [] ∧ (x ∈ agentVars ∨ SetBy m.earlier x)

def stepVariables (pairs : List String) (base : Vars) : Typestate RunOp EnvTrace where
  start := {}
  allows m op := match op with
    | .runStep _ _ step env _ _ => Gets base m step env
    | _ => True
  possible _ op v := match op, v with
    | .environ, v => v = pairs
    | .host (.rangeOrder keys), v => ∀ k ∈ v, k ∈ keys
    | .runStep _ _ step env _ _, .ok out =>
      ∀ x, x ∈ out.env ↔ x ∈ env ∨ step.kind = .sshAgent ∧ x ∈ agentVars
    | _, _ => True
  next m op v := m.next op v

section evaluation
variable {pairs : List String} {base : Vars} {m : EnvTrace} {fuel : Nat} {ev : EvalContext}

/-- The account at the level of the runner's calls, none of which is a step. -/
abbrev hostVariables (pairs : List String) (base : Vars) : Typestate RunnerOp EnvTrace :=
  (stepVariables pairs base).comap fun _ => RunOp.host

theorem eval_follows : (hostVariables pairs base).Follows p (fun _ m' => m' = m) m :=
  .of_uses (.of_forall (fun _ op => ⟨trivial, fun _ _ => by cases op <;> rfl⟩) p)

theorem interpolateKeys_follows (hkeys : ∀ k ∈ keys, k ∈ env) :
    (hostVariables pairs base).Follows (interpolateKeys fuel ev keys env)
      (Yields (fun r m' => m' = m ∧ ∀ x, x ∈ r.1 ↔ x ∈ env) (· = m)) m := by
  induction keys generalizing env with
  | nil => exact .pure ⟨rfl, fun _ => .rfl⟩
  | cons key keys ih =>
    refine .attempt_bind eval_follows ?_
    rintro r _ rfl
    cases r with
    | error e => exact .pure ⟨rfl, fun _ => .rfl⟩
    | ok value =>
      have hsame : ∀ x, x ∈ env.insert key value ↔ x ∈ env := fun x => by
        rw [Std.ExtTreeMap.mem_insert]
        refine or_iff_right_of_imp fun hx => ?_
        rw [← Std.LawfulEqCmp.eq_of_compare hx]
        exact hkeys key List.mem_cons_self
      refine (ih fun k hk => (hsame k).mpr (hkeys k (List.mem_cons_of_mem key hk))).mono ?_
      rintro (_ | r) m' hr
      · exact hr
      · exact ⟨hr.1, fun x => (hr.2 x).trans (hsame x)⟩

theorem interpolateEnv_follows :
    (hostVariables pairs base).Follows (interpolateEnv fuel env ev)
      (Yields (fun r m' => m' = m ∧ ∀ x, x ∈ r.1 ↔ x ∈ env) (· = m)) m :=
  .ofTotal_bind trivial fun _ hkeys =>
    interpolateKeys_follows fun k hk => Std.ExtTreeMap.mem_keys.mp (hkeys k hk)

theorem mem_mergeIntoClone (h : mergeIntoClone dst src = .ok out) (x : String) :
    x ∈ out ↔ x ∈ dst ∨ x ∈ src := by
  unfold mergeIntoClone at h
  split at h
  · cases h
  · cases h
    exact Std.ExtTreeMap.mem_union_iff

theorem buildProcessEnv_follows :
    (hostVariables pairs base).Follows (buildProcessEnv fuel base extra sshEnv ev)
      (Yields (fun env m' => m' = m ∧ ∀ x, x ∈ env ↔ x ∈ base ∨ x ∈ sshEnv ∨ x ∈ extra) (· = m)) m := by
  refine .bind (Q := fun r m' => m' = m ∧ r = mergeIntoClone base sshEnv) (.ofResult ⟨rfl, rfl⟩) ?_
    fun _ _ hr => hr.1
  rintro out₁ _ ⟨rfl, h₁⟩
  refine .bind (Q := fun r m'' => m'' = _ ∧ r = mergeIntoClone out₁ extra) (.ofResult ⟨rfl, rfl⟩) ?_
    fun _ _ hr => hr.1
  rintro out₂ _ ⟨rfl, h₂⟩
  refine .bind_yields interpolateEnv_follows ?_ fun _ _ hr => hr
  rintro ⟨env, err⟩ _ ⟨rfl, henv⟩
  have hmem : ∀ x, x ∈ env ↔ x ∈ base ∨ x ∈ sshEnv ∨ x ∈ extra := fun x => by
    rw [henv, mem_mergeIntoClone h₂.symm, mem_mergeIntoClone h₁.symm, or_assoc]
  split
  · exact .throw rfl
  · next heq =>
    cases heq
    exact .pure ⟨rfl, hmem⟩

end evaluation

/-! ## Jobs -/

section jobs
variable {pairs : List String} {base : Vars} {m : EnvTrace} {tools : RunnerTools} {fuel : Nat}
  {plan : ExecutionPlan} {job : CompiledJob}

theorem evaluating_follows (h : (hostVariables pairs base).Follows p (Yields Q R) m) :
    (stepVariables pairs base).Follows (evaluating f p) (Yields Q R) m := by
  unfold evaluating
  exact (Typestate.Follows.hoist h).mapError_yields

theorem evaluating_same :
    (stepVariables pairs base).Follows (evaluating f p) (Yields (fun _ m' => m' = m) (· = m)) m := by
  refine evaluating_follows (eval_follows.mono fun r _ hr => ?_)
  cases r <;> exact hr

theorem evaluating_result :
    (stepVariables pairs base).Follows (evaluating f (ofResult r))
      (Yields (fun a m' => m' = m ∧ r = .ok a) (· = m)) m := by
  refine evaluating_follows (.ofResult ?_)
  cases r with
  | error e => exact rfl
  | ok a => exact ⟨rfl, rfl⟩

theorem setBy_append {agents : List (CompiledJob × CompiledStep)} {step : CompiledStep} :
    SetBy (agents ++ [(job, step)]) x ↔ SetBy agents x ∨ x ∈ job.env ∨ x ∈ step.env := by
  simp [SetBy]

theorem SetBy.ne_nil {agents : List (CompiledJob × CompiledStep)} (h : SetBy agents x) :
    agents ≠ [] := by
  obtain ⟨a, ha, -⟩ := h
  exact List.ne_nil_of_mem ha

/-- The variables of a job at work. -/
def JobGets (base : Vars) (job : CompiledJob) (m : EnvTrace) (jobEnv : Vars) : Prop :=
  ∀ x, x ∈ jobEnv ↔ x ∈ base ∨ x ∈ job.env ∨ m.earlier ≠ [] ∧ (x ∈ agentVars ∨ SetBy m.earlier x)

theorem JobGets.step {step : CompiledStep} (h : JobGets base job m jobEnv) (hjob : m.job = some job)
    (hstep : ∀ x, x ∈ stepEnv ↔ x ∈ jobEnv ∨ x ∈ step.env) :
    Gets base m step stepEnv := by
  intro x
  rw [hstep, h x, hjob]
  simp only [Option.mem_some, exists_eq_left']
  tauto

theorem Gets.leaves {step : CompiledStep} (h : Gets base m step stepEnv) (hjob : m.job = some job)
    (hout : ∀ x, x ∈ out ↔ x ∈ stepEnv ∨ x ∈ agentVars) :
    Leaves base (m.earlier ++ [(job, step)]) out := by
  intro x
  have hne : SetBy m.earlier x → m.earlier ≠ [] := SetBy.ne_nil
  rw [hout, h x, hjob, setBy_append]
  simp only [Option.mem_some, exists_eq_left', ne_eq, List.append_eq_nil_iff]
  tauto

theorem runStep_next {step : CompiledStep} (hjob : m.job = some job)
    (henv : JobGets base job m jobEnv) (hst : Leaves base m.agents sshEnv)
    (hgets : Gets base m step stepEnv)
    (hout : ∀ x, x ∈ out.env ↔ x ∈ stepEnv ∨ step.kind = .sshAgent ∧ x ∈ agentVars)
    (hm' : m' = m.next (.runStep tools fuel step stepEnv ev stores) (.ok out)) :
    Leaves base m'.agents (if step.kind = .sshAgent then out.env else sshEnv) ∧
      m'.job = some job ∧ JobGets base job m' jobEnv := by
  change m' = if step.kind = .sshAgent then { m with agent := some step } else m at hm'
  by_cases hkind : step.kind = .sshAgent
  · rw [if_pos hkind] at hm' ⊢
    subst hm'
    rw [hjob]
    exact ⟨hgets.leaves hjob fun x => by simpa [hkind] using hout x, rfl, henv⟩
  · rw [if_neg hkind] at hm' ⊢
    subst hm'
    exact ⟨hst, hjob, henv⟩

theorem runSteps_follows (hjob : m.job = some job) (henv : JobGets base job m jobEnv)
    (hst : Leaves base m.agents st.sshEnv) :
    (stepVariables pairs base).Follows (runSteps tools fuel plan job jobEnv steps st outputs)
      (Yields (fun r m' => Leaves base m'.agents r.1.sshEnv) fun _ => True) m := by
  induction steps generalizing st outputs m with
  | nil => exact .pure hst
  | cons step rest ih =>
    unfold runSteps
    refine .andThen_yields evaluating_same ?_
    rintro skip m rfl
    cases skip with
    | true => exact ih hjob henv hst
    | false =>
      refine .andThen_yields evaluating_result ?_
      rintro stepEnv₀ m ⟨rfl, hmerge⟩
      refine .andThen_yields (evaluating_follows interpolateEnv_follows) ?_
      rintro ⟨stepEnv, err⟩ m ⟨rfl, hkeys⟩
      cases err with
      | some e => exact .throw trivial
      | none =>
        have hgets : Gets base m step stepEnv :=
          henv.step hjob fun x => (hkeys x).trans (mem_mergeIntoClone hmerge x)
        refine .andThen_yields (Q := fun out m' => Leaves base m'.agents
            (if step.kind = .sshAgent then out.env else st.sshEnv) ∧ m'.job = some job ∧
            JobGets base job m' jobEnv) (R := fun _ => True)
          (.mapError_yields (.ofCall_yields hgets
            (fun out hout => runStep_next hjob henv hst hgets hout rfl) fun _ _ => trivial)) ?_
        rintro out m' ⟨hleaves, hjob', henv'⟩
        exact ih hjob' henv' hleaves

theorem saveEntries_follows :
    (stepVariables pairs base).Follows (saveEntries repoRoot cache) (fun _ m' => m' = m) m :=
  .of_uses (.forEach fun _ _ => .bind (.ofTotal ⟨trivial, fun _ _ => rfl⟩) fun _ => .pure)

theorem runJob_follows (hst : Leaves base m.agents st.sshEnv) :
    (stepVariables pairs base).Follows (runJob tools fuel plan base job st)
      (Yields (fun st' m' => Leaves base m'.agents st'.sshEnv) fun _ => True) m := by
  refine .andThen_yields evaluating_same ?_
  rintro skip m rfl
  cases skip with
  | true => exact .pure hst
  | false =>
    refine .ofTotal_bind trivial fun _ _ => ?_
    refine .andThen_yields (evaluating_follows buildProcessEnv_follows) ?_
    rintro jobEnv m' ⟨rfl, hkeys⟩
    have henv : JobGets base job { job := some job, earlier := m.agents } jobEnv := fun x => by
      rw [hkeys x, hst x]
      tauto
    refine .andThen_yields (runSteps_follows rfl henv hst) ?_
    rintro ⟨st', steps⟩ m' hst'
    refine .andThen_yields evaluating_same ?_
    rintro outputs m' rfl
    refine .bind saveEntries_follows ?_ fun _ _ _ => trivial
    rintro _ m' rfl
    exact .pure hst'

theorem runJobs_follows (hst : Leaves base m.agents st.sshEnv) :
    (stepVariables pairs base).Follows (runJobs tools fuel plan base jobs st) (fun _ _ => True) m := by
  induction jobs generalizing st m with
  | nil => exact .pure trivial
  | cons job jobs ih => exact .yields_andThen (runJob_follows hst) (fun _ _ hst' => ih hst')

theorem run_follows (pairs : List String) (tools : RunnerTools) (fuel : Nat) (plan : ExecutionPlan)
    (overrides : Vars) : (stepVariables pairs (buildBaseEnvFrom pairs overrides)).Follows
      (LocalWorkflowRunner.run tools fuel plan overrides) (fun _ _ => True) {} := by
  have hnone : Leaves (buildBaseEnvFrom pairs overrides) ({} : EnvTrace).agents ∅ := fun x => by
    simp [EnvTrace.agents]
  refine .yields_andThen evaluating_same ?_
  rintro stores m rfl
  refine .ofTotal_bind trivial fun v hv => ?_
  cases hv
  exact .andThen (runJobs_follows hnone) (fun _ _ _ => .pure trivial)

end jobs

section returns
variable {tools : RunnerTools} {fuel : Nat} {step : CompiledStep} {env : Vars} {ev : EvalContext}
  {stores : Stores}

theorem parseSSHAgentOutput_vars : ∀ x, x ∈ parseSSHAgentOutput lines → x ∈ agentVars := by
  refine List.foldlRecOn (motive := fun env : Vars => ∀ x, x ∈ env → x ∈ agentVars) lines
    parseSSHAgentLine (by simp) fun env henv line _ => ?_
  refine List.foldlRecOn (motive := fun env : Vars => ∀ x, x ∈ env → x ∈ agentVars) agentVars
    (parseSSHAgentVar line) henv fun env henv key hkey x hx => ?_
  unfold parseSSHAgentVar at hx
  split at hx
  · rcases Std.ExtTreeMap.mem_insert.mp hx with hkx | hx
    · rwa [← Std.LawfulEqCmp.eq_of_compare hkx]
    · exact henv x hx
  · exact henv x hx

theorem startSSHAgent_vars : Keeps (G := Prog.unguarded) (fun _ => True) (startSSHAgent key env)
      fun agentEnv => ∀ x, x ∈ agentEnv ↔ x ∈ agentVars := by
  unfold startSSHAgent
  refine .ite (fun _ => .throw) fun _ => .bind (.true _) fun lines _ => ?_
  refine .ite (fun _ => .throw) fun hall => .bind (.true _) fun _ _ => .pure fun x => ?_
  refine ⟨parseSSHAgentOutput_vars x, fun hx => ?_⟩
  -- a variable without a value would have been refused
  by_contra hmem
  refine hall (List.any_eq_true.mpr ⟨x, hx, ?_⟩)
  rw [Std.ExtTreeMap.getD_eq_fallback hmem]
  rfl

theorem runStep_vars : Keeps (G := Prog.unguarded) (fun _ => True)
    (runStep tools fuel step env ev stores)
    fun out => ∀ x, x ∈ out.env ↔ x ∈ env ∨ step.kind = .sshAgent ∧ x ∈ agentVars := by
  unfold runStep
  cases hkind : step.kind with
  | checkout => exact .pure (by simp)
  | setupGo => exact .bind (.true _) fun _ _ => .pure (by simp)
  | setupNode => exact .bind (.true _) fun _ _ => .bind (.true _) fun _ _ => .pure (by simp)
  | sshAgent =>
    refine .bind (.true _) fun _ _ => .bind startSSHAgent_vars fun agentEnv hagent =>
      .bind (.ofResult fun _ h => h) fun env' henv' => .pure fun x => ?_
    rw [mem_mergeIntoClone henv', hagent]
    simp
  | run => exact .bind (.true _) fun _ _ => .pure (by simp)
  | other name => exact .throw
  | _ =>
    exact .bind (.true _) fun _ _ => .bind (.true _) fun _ _ => .bind (.true _) fun _ _ =>
      .pure (by simp)

theorem Host.onFiles_env (h : Host) (a : HostAnswer) (p : Fallible RunnerErr FsOp β) :
    (h.onFiles a p).2.env = h.env := rfl

theorem RunnerOp.step_env (op : RunnerOp β) (a : HostAnswer) (h : Host) :
    (op.step a h).2.env = h.env := by
  cases op with
  | mkdirTemp =>
    rw [RunnerOp.step]
    split <;> rfl
  | mkdirAll | uploadArtifact | downloadArtifact | useCache | saveEntry => exact Host.onFiles_env ..
  | _ => rfl

theorem run_env (p : Prog RunnerOp α) (as : List HostAnswer) (h : Host) :
    (p.run as h).state.env = h.env :=
  Prog.Uses.run (.of_forall (fun _ _ => trivial) p)
    (fun _ op _ as h' hs => (op.step_env (as.headD default) h').trans hs) rfl

theorem mem_of_mem_rangeBy (h : k ∈ rangeBy order keys) : k ∈ keys := by
  rcases List.mem_append.mp h with h | h
  · exact List.contains_iff_mem.mp (List.mem_filter.mp h).2
  · exact (List.mem_filter.mp h).1

theorem possible_variables (e : HostEnv) (β : Type) (op : RunOp β) (as : List HostAnswer) (h : Host)
    (m : EnvTrace) (he : h.env = e) :
    (stepVariables e.environ base).possible m op (Effect.exec op as h).value ∧
      (Effect.exec op as h).state.env = e := by
  refine ⟨?_, (run_env _ as h).trans he⟩
  cases op with
  | environ => exact congrArg HostEnv.environ he
  | host op =>
    cases op with
    | rangeOrder keys => exact fun k hk => mem_of_mem_rangeBy hk
    | _ => trivial
  | beginJob job => trivial
  | runStep tools fuel step env ev stores =>
    change (stepVariables e.environ base).possible m (.runStep ..)
      ((runStep tools fuel step env ev stores).outcome as h).value
    cases hvalue : ((runStep tools fuel step env ev stores).outcome as h).value with
    | error err => trivial
    | ok out => exact (Keeps.outcome runStep_vars trivial (meets_unguarded _ as h)).2 out hvalue

end returns

theorem gets_of_obeys {calls : List (Call RunOp)} (h : (stepVariables pairs base).Obeys m calls) :
    ∀ e ∈ executedSteps m calls, ∀ x, x ∈ e.env ↔ x ∈ base ∨ (∃ job ∈ e.job, x ∈ job.env) ∨
      x ∈ e.step.env ∨ e.earlier ≠ [] ∧ (x ∈ agentVars ∨ SetBy e.earlier x) := by
  induction calls generalizing m with
  | nil => simp [executedSteps]
  | cons c cs ih =>
    intro e he
    rcases List.mem_append.mp he with he | he
    · obtain ⟨op, v⟩ := c
      cases op with
      | host op => cases he
      | environ => cases he
      | beginJob job => cases he
      | runStep tools fuel step env ev stores =>
        rw [List.mem_singleton.mp he]
        exact h.1
    · exact ih h.2 e he

/-- A job with a token runs an agent step, and another job runs after it. -/
def agentPlan : ExecutionPlan where
  repoRoot := "/w"
  jobs := [
    { id := "deploy", env := .ofList [("TOKEN", "t")],
      steps := [{ kind := .sshAgent, inputs := .ofList [("ssh-private-key", "k")] }] },
    { id := "test", steps := [{ kind := .run, run := "make test" }] }]

def sampleEnv : HostEnv where
  vars := .ofList [("HOME", "/h"), ("DATABASE_URL", "postgres")]
  proper := by
    intro k hk
    have hk : k = "HOME" ∨ k = "DATABASE_URL" := by simpa using hk
    rcases hk with rfl | rfl <;> decide

def sampleTools : RunnerTools where
  unmarshalFilters _ := none
  pathMatch _ _ := none

def agentAnswers : List HostAnswer :=
  List.replicate 6 default ++ [{ lines := ["SSH_AUTH_SOCK=/s; export", "SSH_AGENT_PID=7; export"] }]

end Kindling
