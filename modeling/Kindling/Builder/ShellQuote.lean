import Kindling.Lib.Shell

/-!
The command line that the guest agent gives to a shell (`cmd/guest-agent/builder_mode_linux.go`). An
argument stands in single quotes, and each of its own single quotes in double ones.
-/

namespace Kindling

open Shell

def escapeSingle (c : Char) : List Char := if c = '\'' then "'\"'\"'".toList else [c]

def shellQuoteSingle (s : List Char) : List Char := '\'' :: s.flatMap escapeSingle ++ ['\'']

def shellQuoteArgs : List (List Char) → List Char
  | [] => []
  | [a] => shellQuoteSingle a
  | a :: argv => shellQuoteSingle a ++ ' ' :: shellQuoteArgs argv

/-- The working directory of a request, with its default. -/
def execCwd (cwd : List Char) : List Char := if cwd = [] then "/workspace".toList else cwd

/-- The last line of the script of `handleBuilderExecConn`. -/
def execLine (cwd : List Char) (argv : List (List Char)) : List Char :=
  "cd ".toList ++ shellQuoteSingle (execCwd cwd) ++ " && exec ".toList ++ shellQuoteArgs argv

/-- Inside the quotes of an argument, with what has been read of it. -/
theorem tokens_single (s acc cs : List Char) :
    tokens .single (some acc) (s.flatMap escapeSingle ++ '\'' :: cs) =
      tokens .plain (some (acc ++ s)) cs := by
  induction s generalizing acc with
  | nil => simp [tokens]
  | cons c s ih =>
    by_cases hc : c = '\''
    · simp [hc, escapeSingle, tokens, ih]
    · simp [hc, escapeSingle, tokens, ih]

theorem tokens_quoted (s cs : List Char) :
    tokens .plain none (shellQuoteSingle s ++ cs) = tokens .plain (some s) cs := by
  simp [shellQuoteSingle, tokens, tokens_single]

theorem tokens_args (argv : List (List Char)) :
    tokens .plain none (shellQuoteArgs argv) = some (argv.map .word) := by
  fun_induction shellQuoteArgs argv with
  | case1 => rfl
  | case2 a => simpa [tokens, emit] using tokens_quoted a []
  | case3 a argv _ ih => simp [tokens_quoted, tokens, ih, emit]

/-- The shell reads the arguments as they are, and the line has no other syntax than its own. -/
theorem quoted_args_read (cwd : List Char) (argv : List (List Char)) :
    tokens .plain none (shellQuoteArgs argv) = some (argv.map .word) ∧
    tokens .plain none (execLine cwd argv) = some ([.word "cd".toList, .word (execCwd cwd), .and,
      .word "exec".toList] ++ argv.map .word) := by
  refine ⟨tokens_args argv, ?_⟩
  have hcd (cs) : tokens .plain none ("cd ".toList ++ cs) =
      (tokens .plain none cs).map (emit (some "cd".toList)) := rfl
  have hexec (w cs) : tokens .plain (some w) (" && exec ".toList ++ cs) =
      ((((tokens .plain none cs).map (emit (some "exec".toList))).map (emit none)).map
        (emit none <| .and :: ·)).map (emit (some w)) := rfl
  rw [execLine, List.append_assoc, List.append_assoc, hcd, tokens_quoted, hexec, tokens_args]
  rfl

end Kindling
