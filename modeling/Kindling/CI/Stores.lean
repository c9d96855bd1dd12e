import Kindling.CI.Plan
import Kindling.Lib.Fallible

/-!
# Artifact and cache stores

The stores of the local runner (`internal/ci/runner.go` and `adapters.go`): the artifacts of a run
in a directory of its own, the cache of all runs of a server in one directory, and the copies
between them and the workspace. A copy of a directory walks it as `filepath.WalkDir` does.
-/

namespace Kindling
open Fallible

def copyFile (src dst : AbsPath) : Fallible FsErr FsOp Unit := do
  ofCall (.mkdirAll dst.dropLast)
  ofCall (.openFile src)
  ofCall (.createFile dst)
  ofCall (.copyContents src dst)
  match ← attempt (ofCall (.stat src)) with
  | .ok _ => do
    let _ ← attempt (ofCall (.chmod dst))
  | .error _ => pure ()

/-- How deep a path can be before its name is too long. -/
def maxDepth : Nat := 2048

/-- `filepath.WalkDir` with the function that `copyPath` gives it. -/
def walkDir : Nat → AbsPath → AbsPath → FileKind → Fallible FsErr FsOp Unit
  | 0, _, _, _ => throw .nameTooLong
  | depth + 1, path, target, kind =>
    match kind with
    | .dir => do
      ofCall (.mkdirAll target)
      let entries ← ofCall (.readDir path)
      forEach entries fun (name, kind) => walkDir depth (path ++ [name]) (target ++ [name]) kind
    | .file | .link => copyFile path target

def copyPath (src dst : AbsPath) : Fallible FsErr FsOp Unit := do
  match ← ofCall (.stat src) with
  | .dir => do
    let kind ← ofCall (.lstat src)
    walkDir maxDepth src dst kind
  | .file | .link => copyFile src dst

/-- Remove what is at the destination and copy, as every `Save`, `save` and `restore` ends. -/
def freshCopy (src dst : AbsPath) : Fallible FsErr FsOp Unit := do
  let _ ← attempt (ofCall (.removeAll dst))
  copyPath src dst

def copyArtifactContents (src dst : AbsPath) : Fallible FsErr FsOp Unit := do
  match ← ofCall (.stat src) with
  | .dir => do
    ofCall (.mkdirAll dst)
    let entries ← ofCall (.readDir src)
    forEach entries fun (name, _) => copyPath (src ++ [name]) (dst ++ [name])
  | .file | .link => do
    ofCall (.mkdirAll dst.dropLast)
    copyFile src dst

def sanitizeName (name : String) : String :=
  let name := replaceChar ' ' '_' (replaceChar '/' '_' (trimSpace name).toList)
  if name == [] then "artifact" else String.ofList name

/-- A path of a step, taken from the workspace unless it is absolute. -/
def stepPath (repoRoot : AbsPath) (path : String) : AbsPath :=
  if hasPrefix path "/" then AbsPath.join [] path else repoRoot.join path

structure ArtifactStore where
  root : AbsPath
  info : Std.ExtTreeMap String AbsPath := ∅

namespace ArtifactStore

def dir (s : ArtifactStore) (name : String) : AbsPath := s.root.join (sanitizeName name)

def path (s : ArtifactStore) (name : String) : Option AbsPath := s.info[name]?

def save (s : ArtifactStore) (name : String) (src : AbsPath) : Fallible FsErr FsOp ArtifactStore := do
  freshCopy src (s.dir name)
  return { s with info := s.info.insert name (s.dir name) }

end ArtifactStore

structure CacheEntry where
  key : String
  path : String
  deriving DecidableEq, Repr

structure CacheStore where
  root : AbsPath
  entries : List CacheEntry := []

namespace CacheStore

def dir (c : CacheStore) (key : String) : AbsPath := c.root.join (sanitizeName key)

/-- Replace what is at the destination by a copy of the source, if there is a source. -/
def copyIfPresent (src dst : AbsPath) : Fallible FsErr FsOp Unit := do
  match ← attempt (ofCall (.stat src)) with
  | .error .notExist => pure ()
  | .error e => throw e
  | .ok _ => freshCopy src dst

def restore (c : CacheStore) (key : String) (dst : AbsPath) : Fallible FsErr FsOp Unit :=
  copyIfPresent (c.dir key) dst

def track (c : CacheStore) (key path : String) : CacheStore :=
  { c with entries := c.entries ++ [⟨key, path⟩] }

def save (c : CacheStore) (key : String) (src : AbsPath) : Fallible FsErr FsOp Unit :=
  copyIfPresent src (c.dir key)

end CacheStore

/-- The case `StepKindUploadArtifact` of `runStep`. -/
def uploadArtifact (repoRoot : AbsPath) (artifacts : ArtifactStore) (name path : String) :
    Fallible RunnerErr FsOp ArtifactStore :=
  if trimSpace name == "" || trimSpace path == "" then throw .uploadRequiresNameAndPath
  else (artifacts.save name (stepPath repoRoot path)).mapError (.saveArtifact name)

/-- The case `StepKindDownloadArtifact` of `runStep`. -/
def downloadArtifact (repoRoot : AbsPath) (artifacts : ArtifactStore) (name target : String) :
    Fallible RunnerErr FsOp Unit :=
  let target := if trimSpace target == "" then "." else target
  match artifacts.path name with
  | none => throw (.artifactNotFound name)
  | some src => (copyArtifactContents src (stepPath repoRoot target)).mapError (.restoreArtifact name)

/-- The case `StepKindCache` of `runStep`. -/
def useCache (repoRoot : AbsPath) (cache : CacheStore) (path key : String) :
    Fallible RunnerErr FsOp CacheStore :=
  if trimSpace path == "" || trimSpace key == "" then throw .cacheRequiresPathAndKey
  else do
    (cache.restore key (repoRoot.join path)).mapError .fs
    return cache.track key path

/-- What `Run` does with each tracked entry at the end of a job. -/
def saveEntry (repoRoot : AbsPath) (cache : CacheStore) (entry : CacheEntry) : Fallible FsErr FsOp Unit :=
  cache.save entry.key (repoRoot.join entry.path)

end Kindling
