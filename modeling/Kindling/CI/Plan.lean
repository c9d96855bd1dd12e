import Mathlib
import Kindling.Lib.FileTree
import Kindling.Lib.Text

/-!
# Execution plans

The compiled workflows that a runner executes (`internal/ci/compile.go`), and the errors of a run.
A map of strings is an extensional map with sorted keys.
-/

namespace Kindling

/-- `map[string]string` -/
abbrev Vars := Std.ExtTreeMap String String

inductive StepKind
  | run | checkout | setupGo | setupNode | uploadArtifact | downloadArtifact | cache | pathsFilter
  | sshAgent
  /-- Any other string. -/
  | other (name : String)
  deriving DecidableEq, Repr

structure CompiledStep where
  id : String := ""
  name : String := ""
  ifExpr : String := ""
  kind : StepKind
  run : String := ""
  workingDirectory : String := ""
  env : Vars := ∅
  inputs : Vars := ∅
  deriving DecidableEq

def CompiledStep.input (s : CompiledStep) (key : String) : String := s.inputs.getD key ""

structure CompiledJob where
  id : String
  name : String := ""
  ifExpr : String := ""
  outputs : Vars := ∅
  env : Vars := ∅
  steps : List CompiledStep := []
  deriving DecidableEq

structure ExecutionPlan where
  workflowName : String := ""
  event : String := ""
  repoRoot : String
  inputs : Vars := ∅
  jobs : List CompiledJob := []
  deriving DecidableEq

inductive JobResult
  | success | failure | skipped
  deriving DecidableEq, Repr

def JobResult.text : JobResult → String
  | success => "success"
  | failure => "failure"
  | skipped => "skipped"

inductive RunnerErr
  | unterminatedExpression (input : String)
  | invalidHashFiles (expr : String)
  | hashFiles
  | unsupportedOperator (rest : String)
  | unterminatedString (expr : String)
  | unexpectedToken (text : String)
  | unexpectedEnd
  | missingParenthesis
  | alwaysMissingParenthesis
  | notOnPath (tool : String)
  | uploadRequiresNameAndPath
  | saveArtifact (name : String) (err : FsErr)
  | artifactNotFound (name : String)
  | restoreArtifact (name : String) (err : FsErr)
  | cacheRequiresPathAndKey
  | fs (err : FsErr)
  | pathsFilterConfig
  | gitStatus
  | sshPrivateKeyRequired
  | startSSHAgent
  | sshAgentOutput
  | sshAdd
  | command
  | unsupportedStepKind (name : String)
  | tempDir
  | homeDir
  /-- A write to a nil map. -/
  | panic
  /-- An evaluation that does not end. -/
  | diverged
  | jobIf (job : String) (err : RunnerErr)
  | stepIf (job step : String) (err : RunnerErr)
  | stepEnv (job step : String) (err : RunnerErr)
  | jobStep (job step : String) (err : RunnerErr)
  | jobOutputs (job : String) (err : RunnerErr)
  deriving DecidableEq

end Kindling
