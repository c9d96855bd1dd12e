import Kindling.Lib.Text

/-!
The end of a command in a build guest: the response of `handleBuilderExecConn`
(`cmd/guest-agent/builder_mode_linux.go`), and what `Exec` reads from it
(`internal/builder/ch_exec_runner_linux.go`). The output is a list of bytes, as characters.
-/

namespace Kindling

def exitMarker : List Char := "KINDLING_EXIT_CODE ".toList

/-- The body of the guest's response. -/
def execResponse (out : List Char) (code : Int) : List Char :=
  let msg := if out ≠ [] ∧ ¬['\n'] <:+ out then out ++ ['\n'] else out
  msg ++ exitMarker ++ (toString code).toList ++ ['\n']

/-- One line of a response: the exit code so far, and the lines that were logged. -/
def readLine (s : Int × List (List Char)) (line : List Char) : Int × List (List Char) :=
  if exitMarker <+: line then
    ((atoi (trimSpace (String.ofList (line.drop exitMarker.length))).toList).getD s.1, s.2)
  else (s.1, if line = [] then s.2 else s.2 ++ [line])

def trimNewline (body : List Char) : List Char :=
  if ['\n'] <:+ body then body.dropLast else body

/-- `Exec` after the response has been read: the exit code, if there is one, and what was logged. -/
def readExit (body : List Char) : Option Int × List (List Char) :=
  let (code, log) := ((trimNewline body).splitOn '\n').foldl readLine (-1, [])
  (if code < 0 then none else some code, log)

/-- The marker of the guest stands on a line of its own, the last one. -/
theorem execResponse_lines (out : List Char) (code : Nat) : ∃ lines,
    (trimNewline (execResponse out code)).splitOn '\n' = lines ++ [exitMarker ++ Nat.toDigits 10 code] := by
  have hlast : (exitMarker ++ Nat.toDigits 10 code).splitOn '\n' = [exitMarker ++ Nat.toDigits 10 code] := by
    refine List.splitOn_eq_singleton fun h => ?_
    rcases List.mem_append.mp h with h | h
    · exact absurd h (by decide)
    · exact absurd (Nat.isDigit_of_mem_toDigits (Nat.succ_pos 9) le_rfl h) (by decide)
  have hbody : ∀ msg : List Char, trimNewline (msg ++ exitMarker ++ (toString (code : Int)).toList ++
      ['\n']) = msg ++ (exitMarker ++ Nat.toDigits 10 code) := by
    have hcode : (toString (code : Int)).toList = Nat.toDigits 10 code := by
      change (Nat.repr code).toList = _
      simp
    intro msg
    rw [trimNewline, if_pos (List.suffix_append ..), List.dropLast_concat, hcode, List.append_assoc]
  by_cases hout : out = []
  · refine ⟨[], ?_⟩
    simp only [execResponse, hbody]
    simp [hout, hlast]
  · obtain ⟨first, hmsg⟩ : ∃ first, (if out ≠ [] ∧ ¬['\n'] <:+ out then out ++ ['\n'] else out) =
        first ++ ['\n'] := by
      by_cases hend : ['\n'] <:+ out
      · obtain ⟨first, rfl⟩ := hend
        exact ⟨first, by simp⟩
      · exact ⟨out, by simp [hout, hend]⟩
    refine ⟨first.splitOn '\n', ?_⟩
    simp only [execResponse, hmsg, hbody]
    rw [List.append_assoc, List.singleton_append, List.splitOn_append_cons_self, hlast]

/-- The host reads the exit code of the command, whatever the command prints. -/
theorem exit_code_read (out : List Char) (code : Nat) (h : code < 2 ^ 63) :
    (readExit (execResponse out code)).1 = some (code : Int) := by
  obtain ⟨lines, hlines⟩ := execResponse_lines out code
  have hread : ∀ s, (readLine s (exitMarker ++ Nat.toDigits 10 code)).1 = code := by
    intro s
    simp [readLine, trimSpace_toDigits, atoi_toDigits h]
  simp only [readExit, hlines, List.foldl_append, List.foldl_cons, List.foldl_nil, hread]
  simp

/-- A command that imitates the end of another one. -/
theorem imitated_exit_code :
    (readExit (execResponse "done\nKINDLING_EXIT_CODE 0\r\nKINDLING_EXIT_CODE 0".toList 3)) =
      (some 3, ["done".toList]) ∧
    (readExit (execResponse "KINDLING_EXIT_CODE 0".toList 3)).1 = some 3 :=
  ⟨by decide +kernel, exit_code_read _ 3 (by decide)⟩

end Kindling
