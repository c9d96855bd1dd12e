import Mathlib.Data.List.Basic

/-!
Words and quotes of a POSIX shell. A line is taken apart into words and `&&`; a line with a character
that means anything else to the shell outside quotes, or with an expansion, is refused.
-/

namespace Kindling.Shell

inductive Token
  | word (text : List Char)
  | and
  deriving DecidableEq, Repr

inductive Mode
  | plain | single | double
  deriving DecidableEq, Repr

/-- Characters that are not themselves outside quotes. -/
def special : List Char := "|&;<>()$`\\\"' \t\n*?[]#~=%!\x7b\x7d".toList

/-- The word that ends here, if one has begun. -/
def emit (w : Option (List Char)) (ts : List Token) : List Token := (w.map .word).toList ++ ts

def tokens : Mode → Option (List Char) → List Char → Option (List Token)
  | .plain, w, [] => some (emit w [])
  | .plain, w, ' ' :: cs | .plain, w, '\t' :: cs => (tokens .plain none cs).map (emit w)
  | .plain, w, '\'' :: cs => tokens .single (some (w.getD [])) cs
  | .plain, w, '"' :: cs => tokens .double (some (w.getD [])) cs
  | .plain, w, '&' :: '&' :: cs => (tokens .plain none cs).map fun ts => emit w (.and :: ts)
  | .plain, w, c :: cs =>
    if c ∈ special then none else tokens .plain (some (w.getD [] ++ [c])) cs
  | .single, w, '\'' :: cs | .double, w, '"' :: cs => tokens .plain w cs
  | .single, w, c :: cs => tokens .single (w.map (· ++ [c])) cs
  -- an expansion in double quotes
  | .double, _, '$' :: _ | .double, _, '`' :: _ | .double, _, '\\' :: _ => none
  | .double, w, c :: cs => tokens .double (w.map (· ++ [c])) cs
  -- a quote that is not closed
  | .single, _, [] | .double, _, [] => none

end Kindling.Shell
