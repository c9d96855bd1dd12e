import Kindling.CI.Expressions

/-!
# The local runner

`LocalWorkflowRunner.Run` and `runStep` (`internal/ci/runner.go`, `adapters.go`). A step is one call of
a run (`RunOp.runStep`), and a program over the calls of the runner by itself (`runStep`).
-/

namespace Kindling
open Fallible

def hostEnvAllowlist : List String := ["PATH", "HOME", "LANG", "USER", "SHELL", "TERM", "TMPDIR"]

/-- Copy a pair of the host's environment, if its variable is allowed. -/
def copyAllowed (out : Vars) (kv : String) : Vars :=
  match cut ['='] kv.toList with
  | none => out
  | some (key, value) =>
    if key ≠ [] ∧ String.ofList key ∈ hostEnvAllowlist then
      out.insert (String.ofList key) (String.ofList value)
    else out

/-- `mergeEnv` into a map that is not nil. -/
def mergeEnv (dst src : Vars) : Vars := dst ∪ src

def buildBaseEnvFrom (hostPairs : List String) (overrides : Vars) : Vars :=
  mergeEnv (hostPairs.foldl copyAllowed ∅) overrides

/-- `mergeEnv` into a copy that `cloneMap` made: the copy of an empty map is nil, and a write to it
panics. -/
def mergeIntoClone (dst src : Vars) : Except RunnerErr Vars :=
  if dst.isEmpty && !src.isEmpty then .error .panic else .ok (mergeEnv dst src)

/-- Interpolate the variables in turn. The map holds what was resolved before a failure. -/
def interpolateKeys (fuel : Nat) (ev : EvalContext) : List String → Vars →
    Eval (Vars × Option RunnerErr)
  | [], env => pure (env, none)
  | key :: keys, env => do
    match ← attempt (interpolateValue fuel (env.getD key "") ev) with
    | .error e => return (env, some e)
    | .ok value => interpolateKeys fuel ev keys (env.insert key value)

def interpolateEnv (fuel : Nat) (env : Vars) (ev : EvalContext) : Eval (Vars × Option RunnerErr) := do
  let keys ← ofTotal (.rangeOrder env.keys)
  interpolateKeys fuel ev keys env

def buildProcessEnv (fuel : Nat) (base extra sshEnv : Vars) (ev : EvalContext) : Eval Vars := do
  let out ← ofResult (mergeIntoClone base sshEnv)
  let out ← ofResult (mergeIntoClone out extra)
  match ← interpolateEnv fuel out ev with
  -- an error is dropped, but not an evaluation that does not end
  | (_, some .diverged) => throw .diverged
  | (out, _) => return out

def mapToEnv (env : Vars) : List String := env.toList.map fun (k, v) => k ++ "=" ++ v

def evaluateOutputs (fuel : Nat) (ev : EvalContext) : List (String × String) → Vars → Eval Vars
  | [], resolved => pure resolved
  | (key, expr) :: rest, resolved => do
    let value ← interpolateValue fuel expr ev
    evaluateOutputs fuel ev rest (resolved.insert key value)

def evaluateJobOutputs (fuel : Nat) (outputs : Vars) (ev : EvalContext) : Eval Vars :=
  evaluateOutputs fuel ev outputs.toList ∅

/-- Functions from outside: the filters of a paths-filter step, and `filepath.Match`. -/
structure RunnerTools where
  unmarshalFilters : String → Option (List (String × List String))
  pathMatch : String → String → Option Bool

def matchesPattern (tools : RunnerTools) (pattern file : String) : Bool :=
  tools.pathMatch pattern file == some true || hasSuffix pattern "/**" &&
      let dir := trimPrefix "./" (trimSuffix "/**" pattern)
      hasPrefix file (dir ++ "/") || file == dir

def evaluatePathsFilter (tools : RunnerTools) (filtersYAML : String) (changedFiles : List String) :
    Except RunnerErr Vars :=
  match tools.unmarshalFilters filtersYAML with
  | none => .error .pathsFilterConfig
  | some parsed => .ok (.ofList (parsed.map fun (name, patterns) =>
      (name, toString (changedFiles.any fun file => patterns.any (matchesPattern tools · file)))))

/-- `gitChangedFiles`; the process inherits the whole environment of the host. -/
def gitChangedFiles (dir : AbsPath) : Eval (List String) := do
  let env ← ofTotal .environ
  let lines ← ofCall (.gitStatus dir env)
  return lines.filterMap fun line =>
    let path := trimSpace (String.ofList (line.toList.drop 3))
    if line.length < 4 || path == "" then none else some path

def agentVars : List String := ["SSH_AUTH_SOCK", "SSH_AGENT_PID"]

def parseSSHAgentVar (line : String) (env : Vars) (key : String) : Vars :=
  if hasPrefix line (key ++ "=") then
    let value := (trimPrefix (key ++ "=") line).toList
    env.insert key (String.ofList (value.takeWhile (· != ';')))
  else env

def parseSSHAgentLine (env : Vars) (line : String) : Vars :=
  agentVars.foldl (parseSSHAgentVar line) env

def parseSSHAgentOutput (lines : List String) : Vars := lines.foldl parseSSHAgentLine ∅

@[irreducible] def startSSHAgent (key : String) (env : Vars) : Eval Vars :=
  if trimSpace key == "" then throw .sshPrivateKeyRequired
  else do
    let agentEnv := parseSSHAgentOutput (← ofCall (.sshAgent (mapToEnv env)))
    if agentVars.any fun k => agentEnv.getD k "" == "" then throw .sshAgentOutput
    else do
      ofCall (.sshAdd key (mapToEnv env ++ agentVars.map fun k => k ++ "=" ++ agentEnv.getD k ""))
      return agentEnv

structure StepOutcome where
  outputs : Vars := ∅
  /-- The variables of the step, to which an agent step adds its own. -/
  env : Vars
  stores : Stores

def parseOutputLine (out : Vars) (line : String) : Vars :=
  match cut ['='] line.toList with
  | none => out
  | some (key, value) =>
    if key == [] then out else out.insert (String.ofList key) (String.ofList value)

def parseOutputFile (lines : List String) : Vars := lines.foldl parseOutputLine ∅

def workingDir (repoRoot : AbsPath) (step : CompiledStep) : AbsPath :=
  let dir := trimSpace step.workingDirectory
  if dir == "" then repoRoot else stepPath repoRoot dir

def runCommandStep (fuel : Nat) (step : CompiledStep) (env : Vars) (ev : EvalContext) : Eval Vars := do
  let commandText ← interpolateValue fuel step.run ev
  ofCall (.mkdirAll (workingDir ev.root step))
  let outputFile ← ofCall .createTemp
  let lines ← ofCall (.bash commandText (workingDir ev.root step)
    (mapToEnv env ++ ["GITHUB_OUTPUT=" ++ outputFile, "GITHUB_WORKSPACE=" ++ ev.repoRoot]))
  return parseOutputFile lines

def requireTool (tool : String) : Eval Unit := do
  if ← ofTotal (.lookPath tool) then pure () else throw (.notOnPath tool)

def runStep (tools : RunnerTools) (fuel : Nat) (step : CompiledStep) (env : Vars) (ev : EvalContext)
    (stores : Stores) : Eval StepOutcome :=
  match step.kind with
  | .checkout => pure { env, stores }
  | .setupGo => do
    requireTool "go"
    return { env, stores }
  | .setupNode => do
    requireTool "node"
    requireTool "npm"
    return { env, stores }
  | .uploadArtifact => do
    let name ← interpolateValue fuel (step.input "name") ev
    let path ← interpolateValue fuel (step.input "path") ev
    let artifacts ← ofCall (.uploadArtifact ev.root stores.artifacts name path)
    return { env, stores := { stores with artifacts } }
  | .downloadArtifact => do
    let name ← interpolateValue fuel (step.input "name") ev
    let target ← interpolateValue fuel (step.input "path") ev
    ofCall (.downloadArtifact ev.root stores.artifacts name target)
    return { env, stores }
  | .cache => do
    let path ← interpolateValue fuel (step.input "path") ev
    let key ← interpolateValue fuel (step.input "key") ev
    let cache ← ofCall (.useCache ev.root stores.cache path key)
    return { env, stores := { stores with cache } }
  | .pathsFilter => do
    let filters ← interpolateValue fuel (step.input "filters") ev
    let changed ← gitChangedFiles ev.root
    let outputs ← ofResult (evaluatePathsFilter tools filters changed)
    return { outputs, env, stores }
  | .sshAgent => do
    let key ← interpolateValue fuel (step.input "ssh-private-key") ev
    let agentEnv ← startSSHAgent key env
    let env ← ofResult (mergeIntoClone env agentEnv)
    return { env, stores }
  | .run => do
    let outputs ← runCommandStep fuel step env ev
    return { outputs, env, stores }
  | .other name => throw (.unsupportedStepKind name)

/-! ## Jobs -/

inductive RunOp : Type → Type 1
  | host {β : Type} (op : RunnerOp β) : RunOp β
  /-- `os.Environ` in `buildBaseEnv` -/
  | environ : RunOp (List String)
  /-- The line that announces a job. -/
  | beginJob (job : CompiledJob) : RunOp Unit
  | runStep (tools : RunnerTools) (fuel : Nat) (step : CompiledStep) (env : Vars) (ev : EvalContext)
      (stores : Stores) : RunOp (Except RunnerErr StepOutcome)

/-- Each call of a run as a program over the calls of the runner. -/
def RunOp.prog : (β : Type) → RunOp β → Prog RunnerOp β
  | _, host op => .lift op
  | _, environ => .lift .environ
  | _, beginJob _ => .ret ()
  | _, runStep tools fuel step env ev stores => Kindling.runStep tools fuel step env ev stores

instance : Effect RunOp HostAnswer Host where
  exec op as h := (RunOp.prog _ op).run as h

structure JobRunResult where
  id : String
  name : String
  result : JobResult
  outputs : Vars := ∅

structure RunResult where
  jobs : List JobRunResult := []
  artifacts : List (String × AbsPath) := []
  artifactRoot : Option AbsPath := none

/-- An error, and what a run returns with it. -/
structure RunFailure where
  result : RunResult := {}
  err : RunnerErr

abbrev RunProg := Fallible RunFailure RunOp

/-- An evaluation in a run; its error is returned without a result. -/
@[irreducible] def evaluating (f : RunnerErr → RunnerErr) (p : Eval α) : RunProg α :=
  (hoist (fun _ => RunOp.host) p).mapError fun e => { err := f e }

/-- What a run carries from job to job. -/
structure RunState where
  sshEnv : Vars := ∅
  needs : Std.ExtTreeMap String JobState := ∅
  results : List JobRunResult := []
  stores : Stores

def RunState.finish (st : RunState) : RunResult where
  jobs := st.results
  artifacts := st.stores.artifacts.info.toList
  artifactRoot := some st.stores.artifacts.root

def RunState.record (st : RunState) (job : CompiledJob) (result : JobResult) (outputs : Vars) :
    RunState :=
  { st with
    needs := st.needs.insert job.id ⟨result, outputs⟩
    results := st.results ++ [⟨job.id, job.name, result, outputs⟩] }

section run
variable (tools : RunnerTools) (fuel : Nat) (plan : ExecutionPlan) (base : Vars)

def jobContext (st : RunState) (steps : Std.ExtTreeMap String Vars) : EvalContext where
  repoRoot := plan.repoRoot
  plan := plan
  steps := steps
  needs := st.needs

def runSteps (job : CompiledJob) (jobEnv : Vars) :
    List CompiledStep → RunState → Std.ExtTreeMap String Vars →
      RunProg (RunState × Std.ExtTreeMap String Vars)
  | [], st, outputs => pure (st, outputs)
  | step :: rest, st, outputs => do
    let ctx := jobContext plan st outputs
    if ← evaluating (.stepIf job.id step.name) (shouldSkipExpr step.ifExpr ctx) then
      runSteps job jobEnv rest st outputs
    else do
      let stepEnv ← evaluating id (ofResult (mergeIntoClone jobEnv step.env))
      match ← evaluating id (interpolateEnv fuel stepEnv ctx) with
      | (_, some e) => throw { err := .stepEnv job.id step.name e }
      | (stepEnv, none) => do
        let out ← (ofCall (.runStep tools fuel step stepEnv ctx st.stores)).mapError fun e =>
          { result := (st.record job .failure ∅).finish, err := .jobStep job.id step.name e }
        let sshEnv := if step.kind = .sshAgent then out.env else st.sshEnv
        let outputs := if step.id == "" then outputs else outputs.insert step.id out.outputs
        runSteps job jobEnv rest { st with sshEnv, stores := out.stores } outputs

/-- `cache.save` for every tracked entry; errors are dropped. -/
def saveEntries (repoRoot : AbsPath) (cache : CacheStore) : RunProg Unit :=
  forEach cache.entries fun entry => do
    let _ ← ofTotal (.host (.saveEntry repoRoot cache entry))

def runJob (job : CompiledJob) (st : RunState) : RunProg RunState := do
  let ctx := jobContext plan st ∅
  if ← evaluating (.jobIf job.id) (shouldSkipExpr job.ifExpr ctx) then
    return st.record job .skipped ∅
  else do
    ofTotal (.beginJob job)
    let jobEnv ← evaluating id (buildProcessEnv fuel base job.env st.sshEnv ctx)
    let (st, steps) ← runSteps tools fuel plan job jobEnv job.steps st ∅
    let outputs ← evaluating (.jobOutputs job.id)
      (evaluateJobOutputs fuel job.outputs (jobContext plan st steps))
    saveEntries ctx.root st.stores.cache
    return st.record job .success outputs

def runJobs : List CompiledJob → RunState → RunProg RunState
  | [], st => pure st
  | job :: jobs, st => do
    let st ← runJob tools fuel plan base job st
    runJobs jobs st

end run

/-- `newArtifactStore` and `newCacheStore` -/
def newStores : Eval Stores := do
  let root ← ofCall .mkdirTemp
  let home ← ofTotal (.getenv "HOME")
  if home == "" then throw .homeDir
  else do
    let cacheRoot := (AbsPath.join [] home).join ".kindling/ci-cache"
    ofCall (.mkdirAll cacheRoot)
    return { artifacts := { root }, cache := { root := cacheRoot } }

/-- `overrides` is the environment in the options of the run. -/
def LocalWorkflowRunner.run (tools : RunnerTools) (fuel : Nat) (plan : ExecutionPlan) (overrides : Vars) :
    RunProg RunResult := do
  let stores ← evaluating id newStores
  let pairs ← ofTotal .environ
  let st ← runJobs tools fuel plan (buildBaseEnvFrom pairs overrides) plan.jobs { stores }
  return st.finish

end Kindling
