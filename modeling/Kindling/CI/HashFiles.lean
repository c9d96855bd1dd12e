import Mathlib

/-!
The hash of `evalHashFiles` (`internal/ci/runner.go`), for the matches that `filepath.Glob` has found
below the workspace. The path that goes into the hash begins with the directory of the workspace, and
nothing stands between a path and the contents.
-/

namespace Kindling

/-- What `os.Stat` and `os.ReadFile` find at a match. -/
inductive Found
  | missing
  | dir
  | unreadable
  | file (data : List Char)
  deriving DecidableEq

/-- A match of the pattern, by its path in the workspace. -/
structure GlobMatch where
  rel : List Char
  found : Found
  deriving DecidableEq

/-- SHA-256 in hexadecimal digits, taken as injective. -/
structure Digest where
  sum : List Char → String
  injective : Function.Injective sum

/-- What is written to the hash. -/
def hashInput (root : List Char) : List GlobMatch → Option (List Char)
  | [] => some []
  | m :: rest =>
    match m.found with
    | .missing | .dir => hashInput root rest
    | .unreadable => none
    | .file data => (hashInput root rest).map fun input => root ++ '/' :: m.rel ++ data ++ input

def hashFiles (digest : Digest) (root : List Char) (found : List GlobMatch) : Option String :=
  (hashInput root found).map digest.sum

/-- The files among the matches, with their contents. -/
def matchingFiles : List GlobMatch → List (List Char × List Char)
  | [] => []
  | m :: rest =>
    match m.found with
    | .file data => (m.rel, data) :: matchingFiles rest
    | _ => matchingFiles rest

/-- The hash is the same wherever the workspace is, and is not that of other files. -/
def HashIdentifies (digest : Digest) (found : List GlobMatch) : Prop :=
  (∀ root root', hashFiles digest root found = hashFiles digest root' found) ∧
  ∀ root other, (hashFiles digest root found).isSome = true →
    hashFiles digest root found = hashFiles digest root other → matchingFiles found = matchingFiles other

variable {root : List Char} {found : List GlobMatch}

/-- The files as they are written to the hash. -/
def joined (root : List Char) (files : List (List Char × List Char)) : List Char :=
  files.flatMap fun f => root ++ '/' :: f.1 ++ f.2

theorem hashInput_eq : hashInput root found =
    if ∃ m ∈ found, m.found = .unreadable then none else some (joined root (matchingFiles found)) := by
  induction found with
  | nil => simp [hashInput, matchingFiles, joined]
  | cons m rest ih =>
    cases hf : m.found <;> simp [hashInput, matchingFiles, hf, ih]
    split <;> simp [joined]

theorem joined_length (files : List (List Char × List Char)) : (joined root files).length =
    files.length * (root.length + 1) + (files.map fun f => f.1.length + f.2.length).sum := by
  induction files with
  | nil => simp [joined]
  | cons f files ih =>
    simp only [joined, List.flatMap_cons, List.length_append, List.length_cons, List.map_cons,
      List.sum_cons, Nat.add_mul] at ih ⊢
    omega

/-- A hash identifies what it is of only if there is no file, or if the files cannot be read. -/
theorem hash_identifies_iff (digest : Digest) (found : List GlobMatch) :
    HashIdentifies digest found ↔ matchingFiles found = [] ∨ ∃ m ∈ found, m.found = .unreadable := by
  by_cases hu : ∃ m ∈ found, m.found = .unreadable
  · simp [HashIdentifies, hashFiles, hashInput_eq, hu]
  simp only [hu, or_false]
  constructor
  · rintro ⟨hroot, -⟩
    -- one more character in front of every path makes the input longer
    have heq : joined [] (matchingFiles found) = joined ['/'] (matchingFiles found) := by
      simpa [hashFiles, hashInput_eq, hu, digest.injective.eq_iff] using hroot [] ['/']
    have hlength := congrArg List.length heq
    simp only [joined_length, List.length_nil, List.length_singleton] at hlength
    exact List.length_eq_zero_iff.mp (by omega)
  · intro hf
    refine ⟨fun root root' => by simp [hashFiles, hashInput_eq, hf, joined], fun root other hsome heq => ?_⟩
    simp only [hashFiles, hashInput_eq, hu, if_false, hf] at heq
    split at heq
    · cases heq
    · have hlength := congrArg List.length (digest.injective (Option.some.inj heq))
      simp only [joined_length, List.length_nil, List.map_nil, List.sum_nil, Nat.zero_mul, Nat.add_zero,
        eq_comm (a := 0), Nat.add_eq_zero_iff, Nat.mul_eq_zero, List.length_eq_zero_iff,
        Nat.succ_ne_zero, or_false] at hlength
      exact hf.trans hlength.1.symm

def plainDigest : Digest := ⟨String.ofList, fun _ _ h => String.ofList_injective h⟩

/-- One file has two hashes in two workspaces, and another file has its hash in its workspace. -/
theorem hash_confused :
    hashFiles plainDigest "/w1".toList [⟨"a".toList, .file "b".toList⟩] ≠
      hashFiles plainDigest "/w2".toList [⟨"a".toList, .file "b".toList⟩] ∧
    hashFiles plainDigest "/w1".toList [⟨"a".toList, .file "b".toList⟩] =
      hashFiles plainDigest "/w1".toList [⟨"ab".toList, .file []⟩] := by
  decide

end Kindling
