import Kindling.CI.Stores

/-!
# Workflow expressions

The expressions of a workflow as the local runner evaluates them (`internal/ci/runner.go`): texts
with `${{ … }}` in them, which are replaced until none is left, and conditions. An evaluation may ask
the host for a variable or for a hash of files, so it is a program over the calls of the runner.
-/

namespace Kindling
open Fallible

/-! ## What the runner asks of its host -/

structure Stores where
  artifacts : ArtifactStore
  cache : CacheStore

inductive RunnerOp : Type → Type 1
  /-- `os.Environ` -/
  | environ : RunnerOp (List String)
  /-- `os.Getenv` -/
  | getenv (name : String) : RunnerOp String
  /-- The order in which a loop over a map takes its keys. -/
  | rangeOrder (keys : List String) : RunnerOp (List String)
  /-- The hash of the files that a pattern matches. -/
  | hashFiles (pattern : AbsPath) : RunnerOp (Except RunnerErr String)
  /-- `exec.LookPath` -/
  | lookPath (tool : String) : RunnerOp Bool
  /-- `git status --porcelain`, with the environment that the process gets. -/
  | gitStatus (dir : AbsPath) (env : List String) : RunnerOp (Except RunnerErr (List String))
  /-- `ssh-agent -s` -/
  | sshAgent (env : List String) : RunnerOp (Except RunnerErr (List String))
  /-- `ssh-add -` -/
  | sshAdd (key : String) (env : List String) : RunnerOp (Except RunnerErr Unit)
  /-- `bash -euo pipefail -c`, and the lines of its output file. -/
  | bash (text : String) (dir : AbsPath) (env : List String) : RunnerOp (Except RunnerErr (List String))
  | mkdirAll (dir : AbsPath) : RunnerOp (Except RunnerErr Unit)
  | createTemp : RunnerOp (Except RunnerErr String)
  | mkdirTemp : RunnerOp (Except RunnerErr AbsPath)
  | uploadArtifact (repoRoot : AbsPath) (artifacts : ArtifactStore) (name path : String) :
      RunnerOp (Except RunnerErr ArtifactStore)
  | downloadArtifact (repoRoot : AbsPath) (artifacts : ArtifactStore) (name path : String) :
      RunnerOp (Except RunnerErr Unit)
  | useCache (repoRoot : AbsPath) (cache : CacheStore) (path key : String) :
      RunnerOp (Except RunnerErr CacheStore)
  | saveEntry (repoRoot : AbsPath) (cache : CacheStore) (entry : CacheEntry) :
      RunnerOp (Except RunnerErr Unit)

/-- The environment of the host's process. -/
structure HostEnv where
  vars : Vars
  proper : ∀ k, k ∈ vars → k ≠ "" ∧ '=' ∉ k.toList

structure Host where
  env : HostEnv
  files : FileTree

/-- How the host answers a call. A process may leave the files in any state. -/
structure HostAnswer where
  fail : Bool := false
  text : String := ""
  lines : List String := []
  order : List String := []
  path : AbsPath := []
  files : Option FileTree := none
  fs : List FsAnswer := []
  deriving Inhabited

def HostEnv.getenv (env : HostEnv) (name : String) : String := env.vars.getD name ""

def HostEnv.environ (env : HostEnv) : List String := env.vars.toList.map fun (k, v) => k ++ "=" ++ v

/-- The keys in the order of the answer, and those it does not name after them. -/
def rangeBy (order keys : List String) : List String :=
  order.dedup.filter keys.contains ++ keys.filter fun k => !order.contains k

/-- A process that ends, with what it leaves behind. -/
def Host.process (h : Host) (a : HostAnswer) (err : RunnerErr) (r : β) : Except RunnerErr β × Host :=
  (if a.fail then .error err else .ok r, { h with files := a.files.getD h.files })

/-- A program on the files, as one call. -/
def Host.onFiles (h : Host) (a : HostAnswer) (p : Fallible RunnerErr FsOp β) :
    Except RunnerErr β × Host :=
  let o := p.outcome a.fs h.files
  (o.value, { h with files := o.state })

def RunnerOp.step : RunnerOp β → HostAnswer → Host → β × Host
  | environ, _, h => (h.env.environ, h)
  | getenv name, _, h => (h.env.getenv name, h)
  | rangeOrder keys, a, h => (rangeBy a.order keys, h)
  | hashFiles _, a, h => (if a.fail then .error .hashFiles else .ok a.text, h)
  | lookPath _, a, h => (!a.fail, h)
  | gitStatus _ _, a, h => h.process a .gitStatus a.lines
  | sshAgent _, a, h => h.process a .startSSHAgent a.lines
  | sshAdd _ _, a, h => h.process a .sshAdd ()
  | bash _ _ _, a, h => h.process a .command a.lines
  | mkdirAll dir, a, h => h.onFiles a ((ofCall (.mkdirAll dir)).mapError .fs)
  | createTemp, a, h => (if a.fail then .error .tempDir else .ok a.text, h)
  | mkdirTemp, a, h =>
    if a.fail then (.error .tempDir, h)
    else (.ok a.path, { h with files := h.files.set a.path .dir })
  | uploadArtifact repoRoot artifacts name path, a, h =>
    h.onFiles a (Kindling.uploadArtifact repoRoot artifacts name path)
  | downloadArtifact repoRoot artifacts name path, a, h =>
    h.onFiles a (Kindling.downloadArtifact repoRoot artifacts name path)
  | useCache repoRoot cache path key, a, h =>
    h.onFiles a (Kindling.useCache repoRoot cache path key)
  | saveEntry repoRoot cache entry, a, h =>
    h.onFiles a ((Kindling.saveEntry repoRoot cache entry).mapError .fs)

instance : Atomic RunnerOp HostAnswer Host where
  step := RunnerOp.step

abbrev Eval := Fallible RunnerErr RunnerOp

structure JobState where
  result : JobResult
  outputs : Vars

structure EvalContext where
  repoRoot : String
  plan : ExecutionPlan
  /-- The outputs of the steps of the job so far. -/
  steps : Std.ExtTreeMap String Vars := ∅
  needs : Std.ExtTreeMap String JobState := ∅

def EvalContext.root (ev : EvalContext) : AbsPath := .join [] ev.repoRoot

def splitDots (path : String) : List String := (path.toList.splitOn '.').map String.ofList

def lookupStep (ev : EvalContext) (path : String) : String :=
  match splitDots path with
  | [_, id, field, name] => if field == "outputs" then (ev.steps.getD id ∅).getD name "" else ""
  | _ => ""

def lookupNeed (ev : EvalContext) (path : String) : String :=
  match splitDots path with
  | _ :: job :: field :: rest =>
    match ev.needs[job]? with
    | none => ""
    | some state =>
      if field == "result" then state.result.text
      else if field == "outputs" then
        match rest with
        | [name] => state.outputs.getD name ""
        | _ => ""
      else ""
  | _ => ""

def lookupValue (path : String) (ev : EvalContext) : Eval String :=
  if path == "github.workspace" then pure ev.repoRoot
  else if path == "github.workflow" then pure ev.plan.workflowName
  else if path == "github.event_name" then pure ev.plan.event
  else if hasPrefix path "github.event.inputs." then
    pure (ev.plan.inputs.getD (trimPrefix "github.event.inputs." path) "")
  else if hasPrefix path "steps." then pure (lookupStep ev path)
  else if hasPrefix path "needs." then pure (lookupNeed ev path)
  else if hasPrefix path "secrets." then ofTotal (.getenv (trimPrefix "secrets." path))
  else if hasPrefix path "vars." then ofTotal (.getenv (trimPrefix "vars." path))
  else pure ""

def evalHashFiles (expr : String) (ev : EvalContext) : Eval String :=
  match (cut ['('] expr.toList).bind fun (_, after) => cutLast ')' after with
  | none => throw (.invalidHashFiles expr)
  | some (arg, _) =>
    let arg := trimSet ['\'', '"'] (trimSpace (String.ofList arg)).toList
    ofCall (.hashFiles (ev.root.join (String.ofList arg)))

def evalScalar (expr : String) (ev : EvalContext) : Eval String :=
  let expr := trimSpace expr
  if expr == "" then pure ""
  else if hasPrefix expr "'" && hasSuffix expr "'" then
    pure (String.ofList (trimChar '\'' expr.toList))
  else if hasPrefix expr "\"" && hasSuffix expr "\"" then
    pure (String.ofList (trimChar '"' expr.toList))
  else if hasPrefix expr "hashFiles(" then evalHashFiles expr ev
  else lookupValue expr ev

/-- The loop of `interpolateString`, for at most so many expressions. -/
def interpolateLoop (input : String) (eval : String → Eval String) : Nat → List Char → Eval String
  | 0, _ => throw .diverged
  | fuel + 1, out =>
    match cut ['$', '{', '{'] out with
    | none => pure (String.ofList out)
    | some (before, rest) =>
      match cut ['}', '}'] rest with
      | none => throw (.unterminatedExpression input)
      | some (expr, after) => do
        let value ← eval (trimSpace (String.ofList expr))
        interpolateLoop input eval fuel (before ++ value.toList ++ after)

def interpolateString (fuel : Nat) (input : String) (eval : String → Eval String) : Eval String :=
  interpolateLoop input eval fuel input.toList

@[irreducible] def interpolateValue (fuel : Nat) (value : String) (ev : EvalContext) : Eval String :=
  interpolateString fuel value fun expr => evalScalar (trimSpace expr) ev

/-! ## Conditions -/

inductive TokenKind
  | sym | op | string | ident
  deriving DecidableEq, Repr

structure Token where
  kind : TokenKind
  text : String
  deriving DecidableEq, Repr

def isDelimiter (c : Char) : Bool := [' ', '\t', '\r', '\n', '(', ')', '&', '|', '=', '!'].contains c

/-- `tokenize`, of which each round takes at least one character. -/
def tokenizeLoop (expr : String) : Nat → List Char → Except RunnerErr (List Token)
  | 0, _ | _, [] => .ok []
  | fuel + 1, c :: cs =>
    if [' ', '\t', '\n', '\r'].contains c then tokenizeLoop expr fuel cs
    else if c == '(' || c == ')' then
      (tokenizeLoop expr fuel cs).map (⟨.sym, String.ofList [c]⟩ :: ·)
    else if ['&', '|', '=', '!'].contains c then
      let op := String.ofList ((c :: cs).take 2)
      if ["&&", "||", "==", "!="].contains op then
        (tokenizeLoop expr fuel cs.tail).map (⟨.op, op⟩ :: ·)
      else .error (.unsupportedOperator (String.ofList (c :: cs)))
    else if c == '\'' || c == '"' then
      match cs.span (· != c) with
      | (_, []) => .error (.unterminatedString expr)
      | (text, _ :: rest) => (tokenizeLoop expr fuel rest).map (⟨.string, String.ofList text⟩ :: ·)
    else
      let (text, rest) := (c :: cs).span (!isDelimiter ·)
      (tokenizeLoop expr fuel rest).map (⟨.ident, trimSpace (String.ofList text)⟩ :: ·)

def tokenize (expr : String) : Except RunnerErr (List Token) :=
  tokenizeLoop expr expr.length expr.toList

def truthy (value : String) : Bool :=
  let v := trimSpace (lower value)
  v != "" && v != "false" && v != "0" && v != "null"

/-- `match`: the tokens after one with this text, if it comes next. -/
def matchToken (text : String) (ts : List Token) : Option (List Token) :=
  match ts with
  | t :: ts => if t.text == text then some ts else none
  | [] => none

def parseValue (ev : EvalContext) (ts : List Token) : Eval (String × List Token) :=
  match ts with
  | [] => throw .unexpectedEnd
  | t :: ts => match t.kind with
    | .string => pure (t.text, ts)
    | .ident => do
      let v ← evalScalar t.text ev
      return (v, ts)
    | .sym | .op => throw (.unexpectedToken t.text)

def parseComparison (ev : EvalContext) (ts : List Token) : Eval (Bool × List Token) := do
  let (left, ts) ← parseValue ev ts
  match matchToken "==" ts with
  | some ts => do
    let (right, ts) ← parseValue ev ts
    return (left == right, ts)
  | none =>
    match matchToken "!=" ts with
    | some ts => do
      let (right, ts) ← parseValue ev ts
      return (left != right, ts)
    | none => return (truthy left, ts)

def parseAlways (ts : List Token) : Eval (Bool × List Token) :=
  match matchToken "(" ts with
  | none => pure (true, ts)
  | some ts => match matchToken ")" ts with
    | none => throw .alwaysMissingParenthesis
    | some ts => pure (true, ts)

-- Every call goes to less fuel; a round of a loop and an opening parenthesis take a token each.
mutual

def parseOr (ev : EvalContext) : Nat → List Token → Eval (Bool × List Token)
  | 0, _ => throw .diverged
  | fuel + 1, ts => do
    let (left, ts) ← parseAnd ev fuel ts
    parseOrRest ev fuel left ts

def parseOrRest (ev : EvalContext) : Nat → Bool → List Token → Eval (Bool × List Token)
  | 0, _, _ => throw .diverged
  | fuel + 1, left, ts =>
    match matchToken "||" ts with
    | none => pure (left, ts)
    | some ts => do
      let (right, ts) ← parseAnd ev fuel ts
      parseOrRest ev fuel (left || right) ts

def parseAnd (ev : EvalContext) : Nat → List Token → Eval (Bool × List Token)
  | 0, _ => throw .diverged
  | fuel + 1, ts => do
    let (left, ts) ← parsePrimary ev fuel ts
    parseAndRest ev fuel left ts

def parseAndRest (ev : EvalContext) : Nat → Bool → List Token → Eval (Bool × List Token)
  | 0, _, _ => throw .diverged
  | fuel + 1, left, ts =>
    match matchToken "&&" ts with
    | none => pure (left, ts)
    | some ts => do
      let (right, ts) ← parsePrimary ev fuel ts
      parseAndRest ev fuel (left && right) ts

def parsePrimary (ev : EvalContext) : Nat → List Token → Eval (Bool × List Token)
  | 0, _ => throw .diverged
  | fuel + 1, ts =>
    match matchToken "(" ts with
    | some ts => do
      let (value, ts) ← parseOr ev fuel ts
      match matchToken ")" ts with
      | none => throw .missingParenthesis
      | some ts => return (value, ts)
    | none =>
      match matchToken "always" ts with
      | some ts => parseAlways ts
      | none => parseComparison ev ts

end

def evalBool (expr : String) (ev : EvalContext) : Eval Bool := do
  let tokens ← ofResult (tokenize expr)
  let (value, rest) ← parseOr ev (4 * tokens.length + 4) tokens
  match rest with
  | [] => return value
  | t :: _ => throw (.unexpectedToken t.text)

@[irreducible] def shouldSkipExpr (expr : String) (ev : EvalContext) : Eval Bool :=
  if trimSpace expr == "" then pure false
  else do
    let ok ← evalBool (trimSpace expr) ev
    return !ok

end Kindling
