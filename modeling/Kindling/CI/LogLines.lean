import Mathlib.Data.List.DropRight

/-!
The log writer of a CI job (`lineLogWriter` of `internal/ci/service.go`): bytes come in pieces of any
size and leave as lines. The bytes of a character may stand in two pieces.
-/

namespace Kindling

/-- White space of one, two and three bytes in UTF-8. -/
def space1 (a : UInt8) : Bool := 9 ≤ a && a ≤ 13 || a == 32

def space2 (a b : UInt8) : Bool := a == 0xc2 && (b == 0x85 || b == 0xa0)

def space3 (a b c : UInt8) : Bool := a == 0xe1 && b == 0x9a && c == 0x80 ||
  a == 0xe2 && (b == 0x80 && (0x80 ≤ c && c ≤ 0x8a || c == 0xa8 || c == 0xa9 || c == 0xaf) ||
    b == 0x81 && c == 0x9f) ||
  a == 0xe3 && b == 0x80 && c == 0x80

/-- `strings.TrimSpace(s) == ""`. -/
def blankBytes : List UInt8 → Bool
  | [] => true
  | [a] => space1 a
  | [a, b] => if space1 a then space1 b else space2 a b
  | a :: b :: c :: s =>
    if space1 a then blankBytes (b :: c :: s)
    else if space2 a b then blankBytes (c :: s) else space3 a b c && blankBytes s

/-- `strings.TrimRight(s, "\r")`. -/
def trimReturns (s : List UInt8) : List UInt8 := s.rdropWhile (· == 13)

/-- The writer, with the lines it has given to `fn`. -/
structure LineLogWriter where
  buf : List UInt8 := []
  lines : List (List UInt8) := []

namespace LineLogWriter

def writeByte (w : LineLogWriter) (b : UInt8) : LineLogWriter :=
  if b = 10 then
    let line := trimReturns w.buf
    ⟨[], if blankBytes line then w.lines else w.lines ++ [line]⟩
  else { w with buf := w.buf ++ [b] }

def write (w : LineLogWriter) (p : List UInt8) : LineLogWriter := p.foldl writeByte w

def flush (w : LineLogWriter) : LineLogWriter :=
  ⟨[], if blankBytes w.buf then w.lines else w.lines ++ [trimReturns w.buf]⟩

end LineLogWriter

/-- The lines of a text that are not blank, without their carriage returns. -/
def logLines (s : List UInt8) : List (List UInt8) :=
  ((s.splitOn 10).map trimReturns).filter (!blankBytes ·)

-- a carriage return is white space, and no other white space ends in its byte
theorem blankBytes_return (s : List UInt8) : blankBytes (s ++ [13]) = blankBytes s := by
  have h1 : space1 13 = true := rfl
  have h2 (a) : space2 a 13 = false := by simp [space2]
  have h3 (a b) : space3 a b 13 = false := by simp [space3]
  fun_induction blankBytes s with
  | case1 => rfl
  | _ => simp_all [blankBytes]

theorem blankBytes_trimReturns (s : List UInt8) : blankBytes (trimReturns s) = blankBytes s := by
  induction s using List.reverseRecOn with
  | nil => rfl
  | append_singleton s b ih =>
    by_cases hb : b = 13
    · simpa [trimReturns, hb, blankBytes_return] using ih
    · simp [trimReturns, hb]

open LineLogWriter

/-- What is held back is the piece since the last newline. -/
theorem flush_foldl (s buf : List UInt8) (lines : List (List UInt8)) (hbuf : 10 ∉ buf) :
    (s.foldl writeByte ⟨buf, lines⟩).flush.lines = lines ++ logLines (buf ++ s) := by
  induction s generalizing buf lines with
  | nil =>
    have hone : buf.splitOn 10 = [buf] := List.splitOn_eq_singleton hbuf
    by_cases hb : blankBytes buf <;> simp [flush, logLines, hone, blankBytes_trimReturns, hb]
  | cons b s ih =>
    rw [List.foldl_cons, writeByte]
    by_cases hb : b = 10
    · have hcut : (buf ++ b :: s).splitOn 10 = buf :: s.splitOn 10 := by
        rw [hb, List.splitOn_append_cons_self, List.splitOn_eq_singleton hbuf, List.singleton_append]
      rw [if_pos hb, ih [] _ List.not_mem_nil, logLines, logLines, hcut]
      by_cases hl : blankBytes (trimReturns buf) <;> simp [hl]
    · have hbuf' : 10 ∉ buf ++ [b] := by simp [hbuf, Ne.symm hb]
      rw [if_neg hb, ih _ _ hbuf', List.append_assoc, List.singleton_append]

/-- The lines depend on the bytes alone, not on how they were cut into writes. -/
theorem lines_written (writes : List (List UInt8)) :
    (writes.foldl write {}).flush.lines = logLines writes.flatten := by
  have hwrite : write = List.foldl writeByte := rfl
  simpa [hwrite, List.foldl_flatten] using flush_foldl writes.flatten [] [] List.not_mem_nil

end Kindling
