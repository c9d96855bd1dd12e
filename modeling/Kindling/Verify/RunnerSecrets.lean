import Kindling.CI.Runner

/-!
# What steps see of the host's variables

The runner copies a few variables of its host to the steps, but an expression may look up any, and
`git status` inherits all.
-/

namespace Kindling
open Fallible

/-- The hosts have the same files, and the same values for the allowed variables. -/
structure Agree (h₁ h₂ : Host) : Prop where
  vars : ∀ name ∈ hostEnvAllowlist, h₁.env.vars[name]? = h₂.env.vars[name]?
  files : h₁.files = h₂.files

theorem copyAllowed_pair (hne : k ≠ "") (hk : '=' ∉ k.toList) :
    copyAllowed out (k ++ "=" ++ v) = if k ∈ hostEnvAllowlist then out.insert k v else out := by
  have hcut : cut ['='] (k ++ "=" ++ v).toList = some (k.toList, v.toList) := by
    rw [String.toList_append, String.toList_append, List.append_assoc]
    exact cut_append hk
  have hne' : k.toList ≠ [] := by simpa using hne
  rw [copyAllowed, hcut]
  simp [hne']

/-- The variables copied from the host are its allowed ones. -/
theorem foldl_copyAllowed (env : HostEnv) :
    env.environ.foldl copyAllowed ∅ =
      (env.vars.filter fun k _ => decide (k ∈ hostEnvAllowlist)).toList.foldl
        (fun out p => out.insert p.1 p.2) ∅ := by
  rw [HostEnv.environ, List.foldl_map, Std.ExtTreeMap.toList_filter, List.foldl_filter]
  refine List.foldl_ext _ _ _ fun out ⟨k, v⟩ hp => ?_
  obtain ⟨hne, hk⟩ := env.proper k
    (Std.ExtTreeMap.mem_iff_isSome_getElem?.mpr (by simp [Std.ExtTreeMap.mem_toList_iff_getElem?_eq_some.mp hp]))
  simp [copyAllowed_pair hne hk]

theorem Agree.buildBaseEnvFrom (h : Agree h₁ h₂) (overrides : Vars) :
    buildBaseEnvFrom h₁.env.environ overrides = buildBaseEnvFrom h₂.env.environ overrides := by
  have hfilter : (h₁.env.vars.filter fun k _ => decide (k ∈ hostEnvAllowlist)) =
      h₂.env.vars.filter fun k _ => decide (k ∈ hostEnvAllowlist) := by
    refine Std.ExtTreeMap.ext_getElem? fun k => ?_
    rw [Std.ExtTreeMap.getElem?_filter', Std.ExtTreeMap.getElem?_filter']
    by_cases hk : k ∈ hostEnvAllowlist
    · rw [h.vars k hk]
    · simp [hk]
  rw [Kindling.buildBaseEnvFrom, Kindling.buildBaseEnvFrom, foldl_copyAllowed, foldl_copyAllowed,
    hfilter]

/-- The call looks up no variable but the allowed ones. -/
def Discreet : Prog.Guard RunnerOp HostAnswer Host := fun _ op _ _ => match op with
  | .getenv name => name ∈ hostEnvAllowlist
  | .environ => False
  | _ => True

instance : Decidable (Discreet β op as h) := by
  unfold Discreet
  split <;> infer_instance

/-- A call that looks up allowed variables only cannot tell the hosts apart. -/
theorem alike_of_discreet (β : Type) (op : RunnerOp β) (as : List HostAnswer) (h₁ h₂ : Host)
    (hagree : Agree h₁ h₂) (hop : Discreet β op as h₁) : Prog.Alike Agree op as h₁ h₂ := by
  obtain ⟨e₁, files⟩ := h₁
  obtain ⟨e₂, files'⟩ := h₂
  obtain ⟨hvars, rfl : files = files'⟩ := hagree
  have hsame : ∀ files', Agree ⟨e₁, files'⟩ ⟨e₂, files'⟩ := fun _ => ⟨hvars, rfl⟩
  cases op with
  | environ => exact hop.elim
  | getenv name =>
    refine ⟨?_, rfl, hsame _⟩
    change e₁.vars.getD name "" = e₂.vars.getD name ""
    rw [Std.ExtTreeMap.getD_eq_getD_getElem?, Std.ExtTreeMap.getD_eq_getD_getElem?, hvars name hop]
  | mkdirTemp =>
    refine ⟨?_, rfl, ?_⟩
    · change (RunnerOp.step .mkdirTemp _ _).1 = (RunnerOp.step .mkdirTemp _ _).1
      rw [RunnerOp.step, RunnerOp.step]
      split <;> rfl
    · change Agree (RunnerOp.step .mkdirTemp _ _).2 (RunnerOp.step .mkdirTemp _ _).2
      rw [RunnerOp.step, RunnerOp.step]
      split <;> exact hsame _
  | _ => exact ⟨rfl, rfl, hsame _⟩

/-! ## Runs -/

theorem run_prog (β : Type) (op : RunOp β) (as : List HostAnswer) (h : Host) :
    (RunOp.prog β op).run as h = Effect.exec op as h := rfl

def NotEnviron (β : Type) : RunOp β → Prop
  | .environ => False
  | _ => True

/-- A call of a run: the variables it looks up are allowed, but for the copy at the start. -/
def DiscreetRun : Prog.Guard RunOp HostAnswer Host := fun β op as h => match op with
  | .environ => True
  | op => (RunOp.prog β op).Meets Discreet as h

instance : Decidable (DiscreetRun β op as h) := by
  unfold DiscreetRun
  split <;> infer_instance

section parts
variable {tools : RunnerTools} {fuel : Nat} {plan : ExecutionPlan} {base : Vars}

theorem evaluating_notEnviron : Uses NotEnviron (evaluating f p) := by
  unfold evaluating
  exact .mapError (.interp
    (.of_forall (fun _ _ => trivial) p) fun _ _ _ => ⟨trivial, fun _ => trivial⟩)

theorem runSteps_notEnviron :
    Uses NotEnviron (runSteps tools fuel plan job jobEnv steps st outputs) := by
  induction steps generalizing st outputs with
  | nil => exact .pure
  | cons step rest ih =>
    refine .bind evaluating_notEnviron fun skip => ?_
    cases skip with
    | true => exact ih
    | false =>
      refine .bind evaluating_notEnviron fun _ => .bind evaluating_notEnviron fun r => ?_
      obtain ⟨stepEnv, err⟩ := r
      cases err with
      | some e => exact .throw
      | none => exact .bind (.mapError (.ofCall trivial)) fun _ => ih

theorem runJobs_notEnviron : Uses NotEnviron (runJobs tools fuel plan base jobs st) := by
  induction jobs generalizing st with
  | nil => exact .pure
  | cons job jobs ih =>
    refine .bind ?_ fun _ => ih
    refine .bind evaluating_notEnviron fun skip => ?_
    cases skip with
    | true => exact .pure
    | false =>
      refine .bind (.ofTotal trivial) fun _ => .bind evaluating_notEnviron fun _ =>
        .bind runSteps_notEnviron fun r => .bind evaluating_notEnviron fun _ =>
        .bind (.forEach fun _ _ => .bind (.ofTotal trivial) fun _ => .pure) fun _ => .pure

/-- A part of a run after which nothing tells the hosts apart: the requests of both levels are the
same, and so is the result. -/
theorem same_part {p : Prog RunOp α} (hp : p.Uses NotEnviron) (hmeets : p.Meets DiscreetRun as h₁)
    (hagree : Agree h₁ h₂) :
    p.requests as h₁ = p.requests as h₂ ∧
      (p.interp RunOp.prog).requests as h₁ = (p.interp RunOp.prog).requests as h₂ ∧
      (p.run as h₁).value = (p.run as h₂).value ∧ (p.run as h₁).rest = (p.run as h₂).rest ∧
      Agree (p.run as h₁).state (p.run as h₂).state := by
  have hlift : p.Meets (fun β op as h => (RunOp.prog β op).Meets Discreet as h) as h₁ := by
    refine (hmeets.and_uses hp).mono fun β op as h hop => ?_
    cases op with
    | environ => exact hop.1.elim
    | host | beginJob | runStep => exact hop.2
  have hlow := ((Prog.meets_interp RunOp.prog run_prog p as h₁).mpr hlift).same alike_of_discreet hagree
  refine ⟨(hlift.same (fun β op as h h' hh hop => ?_) hagree).1, hlow.1, ?_⟩
  · exact (hop.same alike_of_discreet hh).2
  · simpa only [Prog.run_interp RunOp.prog run_prog] using hlow.2

/-- What a run does once it has its stores and the variables of the host. -/
def runFrom (tools : RunnerTools) (fuel : Nat) (plan : ExecutionPlan) (stores : Stores) (base : Vars) :
    Prog RunOp (Except RunFailure RunResult) :=
  (do
    let st ← runJobs tools fuel plan base plan.jobs { stores }
    return st.finish : RunProg RunResult)

theorem runFrom_notEnviron : (runFrom tools fuel plan stores base).Uses NotEnviron :=
  Uses.bind runJobs_notEnviron fun _ => .pure

/-- The copy of the host's variables is the only call whose result differs, and what it leads to does
not. -/
theorem same_run {h₁ h₂ : Host} (hagree : Agree h₁ h₂)
    {r : Except RunFailure Stores} {p : Except RunFailure Stores → Prog RunOp (Except RunFailure RunResult)}
    (hp : ∀ stores, p (.ok stores) =
      .call .environ fun pairs => runFrom tools fuel plan stores (buildBaseEnvFrom pairs overrides))
    (herr : ∀ e, p (.error e) = .ret (.error e)) (hmeets : (p r).Meets DiscreetRun as h₁) :
    (p r).requests as h₁ = (p r).requests as h₂ ∧
      ((p r).interp RunOp.prog).requests as h₁ = ((p r).interp RunOp.prog).requests as h₂ := by
  cases r with
  | error e =>
    rw [herr]
    exact ⟨rfl, rfl⟩
  | ok stores =>
    rw [hp] at hmeets ⊢
    have hsame := same_part runFrom_notEnviron hmeets.2 hagree
    have hbase := hagree.buildBaseEnvFrom overrides
    have hhigh : (runFrom tools fuel plan stores (buildBaseEnvFrom h₁.env.environ overrides)).requests
        as.tail h₁ = (runFrom tools fuel plan stores (buildBaseEnvFrom h₂.env.environ overrides)).requests
        as.tail h₂ := by
      rw [← hbase]
      exact hsame.1
    have hlow : ((runFrom tools fuel plan stores (buildBaseEnvFrom h₁.env.environ overrides)).interp
        RunOp.prog).requests as.tail h₁ = ((runFrom tools fuel plan stores
        (buildBaseEnvFrom h₂.env.environ overrides)).interp RunOp.prog).requests as.tail h₂ := by
      rw [← hbase]
      exact hsame.2.1
    exact ⟨congrArg (List.cons (Prog.Request.mk RunOp.environ)) hhigh,
      congrArg (List.cons (Prog.Request.mk RunnerOp.environ)) hlow⟩

end parts

/-- **Host variables.** Take two hosts with the same files that agree on the allowed variables, and any
plan, overrides and answers. If every expression that a run on the first looks up as a secret or a
variable names an allowed one, and the run does not ask for the changed files of the workspace, then
the run on the second makes the same requests: it gives every step the same variables and values to
interpolate from, and every process the same text and environment. -/
theorem runs_on_agreeing_hosts_same (tools : RunnerTools) (fuel : Nat) (plan : ExecutionPlan)
    (overrides : Vars) (as : List HostAnswer) {h₁ h₂ : Host} (hagree : Agree h₁ h₂)
    (hmeets : Meets DiscreetRun (LocalWorkflowRunner.run tools fuel plan overrides) as h₁) :
    Prog.requests (LocalWorkflowRunner.run tools fuel plan overrides) as h₁ =
      Prog.requests (LocalWorkflowRunner.run tools fuel plan overrides) as h₂ ∧
    (Prog.interp RunOp.prog (LocalWorkflowRunner.run tools fuel plan overrides)).requests as h₁ =
      (Prog.interp RunOp.prog (LocalWorkflowRunner.run tools fuel plan overrides)).requests as h₂ := by
  have hrun : LocalWorkflowRunner.run tools fuel plan overrides =
      Prog.bind (evaluating id newStores) (ExceptT.bindCont fun stores => (do
        let pairs ← ofTotal .environ
        let st ← runJobs tools fuel plan (buildBaseEnvFrom pairs overrides) plan.jobs { stores }
        return st.finish : RunProg RunResult)) := rfl
  rw [hrun] at hmeets ⊢
  obtain ⟨hfirst, hrest⟩ := (Prog.meets_bind ..).mp hmeets
  obtain ⟨hhigh, hlow, hvalue, hanswers, hstate⟩ := same_part evaluating_notEnviron hfirst hagree
  have hsame := same_run hstate (fun _ => rfl) (fun _ => rfl) hrest
  rw [Prog.requests_bind, Prog.requests_bind, Prog.interp_bind, Prog.requests_bind,
    Prog.requests_bind, Prog.run_interp RunOp.prog run_prog, Prog.run_interp RunOp.prog run_prog,
    ← hvalue, ← hanswers, hhigh, hlow]
  exact ⟨congrArg _ hsame.1, congrArg _ hsame.2⟩

/-- What a process is given: its text or name, and its environment. -/
def passedTo : RunnerOp β → Option (String × List String)
  | .bash text _ env => some (text, env)
  | .gitStatus _ env => some ("git status --porcelain", env)
  | .sshAgent env => some ("ssh-agent -s", env)
  | .sshAdd key env => some (key, env)
  | _ => none

def passed (plan : ExecutionPlan) (h : Host) : List (String × List String) :=
  ((Prog.interp RunOp.prog (LocalWorkflowRunner.run ⟨fun _ => none, fun _ _ => none⟩ 4 plan ∅)).requests
    [] h).filterMap fun r => passedTo r.op

def hostWithSecret (secret : String) : Host where
  env.vars := .ofList [("HOME", "/h"), ("DATABASE_URL", secret)]
  env.proper := by
    intro k hk
    have hk : k = "HOME" ∨ k = "DATABASE_URL" := by simpa using hk
    rcases hk with rfl | rfl <;> decide
  files := ⟨[]⟩

theorem hostWithSecret_agree : Agree (hostWithSecret "postgres") (hostWithSecret "mysql") :=
  ⟨by decide +kernel, rfl⟩

def stepPlan (step : CompiledStep) : ExecutionPlan where
  repoRoot := "/w"
  jobs := [{ id := "build", steps := [step] }]

/-- An expression brings a variable of the host that is not allowed into the text of a step, and a
paths-filter step gives `git` the whole environment. -/
theorem secret_reaches_step :
    Agree (hostWithSecret "postgres") (hostWithSecret "mysql") ∧
    passed (stepPlan { kind := .run, run := "echo $\x7b\x7b secrets.DATABASE_URL \x7d\x7d" })
      (hostWithSecret "postgres") =
        [("echo postgres", ["HOME=/h", "GITHUB_OUTPUT=", "GITHUB_WORKSPACE=/w"])] ∧
    passed (stepPlan { kind := .run, run := "echo $\x7b\x7b secrets.DATABASE_URL \x7d\x7d" })
      (hostWithSecret "mysql") =
        [("echo mysql", ["HOME=/h", "GITHUB_OUTPUT=", "GITHUB_WORKSPACE=/w"])] ∧
    passed (stepPlan { kind := .pathsFilter }) (hostWithSecret "postgres") =
      [("git status --porcelain", ["DATABASE_URL=postgres", "HOME=/h"])] :=
  ⟨hostWithSecret_agree, by decide +kernel, by decide +kernel, by decide +kernel⟩

/-- A step that looks up an allowed variable. -/
theorem allowed_lookup_same :
    Prog.requests (LocalWorkflowRunner.run ⟨fun _ => none, fun _ _ => none⟩ 4
      (stepPlan { kind := .run, run := "ls $\x7b\x7b vars.HOME \x7d\x7d" }) ∅) []
        (hostWithSecret "postgres") =
    Prog.requests (LocalWorkflowRunner.run ⟨fun _ => none, fun _ _ => none⟩ 4
      (stepPlan { kind := .run, run := "ls $\x7b\x7b vars.HOME \x7d\x7d" }) ∅) []
        (hostWithSecret "mysql") :=
  (runs_on_agreeing_hosts_same _ _ _ _ _ hostWithSecret_agree (by decide +kernel)).1

end Kindling
