import Mathlib.Algebra.Order.Ring.Int
import Mathlib.Data.List.DropRight
import Mathlib.Data.List.TakeDrop

/-!
# Text

The functions of Go's `strings`, `strconv` and `net` packages that the models use. Strings are handled as lists of
characters. Lower-casing maps ASCII letters, and the two other characters whose lower case is an
ASCII letter; any other non-ASCII character is kept.
-/

namespace Kindling

/-- `unicode.IsSpace` -/
def isSpace (c : Char) : Bool :=
  let n := c.toNat
  (9 ≤ n && n ≤ 13) || n == 0x20 || n == 0x85 || n == 0xa0 || n == 0x1680 ||
    (0x2000 ≤ n && n ≤ 0x200a) || n == 0x2028 || n == 0x2029 || n == 0x202f || n == 0x205f ||
    n == 0x3000

def trimSpace (s : String) : String :=
  String.ofList (((s.toList.dropWhile isSpace).reverse.dropWhile isSpace).reverse)

theorem trimSpace_trimSpace : trimSpace (trimSpace s) = trimSpace s := by
  have hleft (m : List Char) (h : m.dropWhile isSpace = m) :
      (m.rdropWhile isSpace).dropWhile isSpace = m.rdropWhile isSpace := by
    rw [List.dropWhile_eq_self_iff] at h ⊢
    intro hlen
    have hpre := List.rdropWhile_prefix isSpace m
    rw [hpre.getElem hlen]
    exact h (hlen.trans_le hpre.length_le)
  change .ofList (((trimSpace s).toList.dropWhile isSpace).rdropWhile isSpace) =
    String.ofList ((s.toList.dropWhile isSpace).rdropWhile isSpace)
  rw [show (trimSpace s).toList = (s.toList.dropWhile isSpace).rdropWhile isSpace from
    String.toList_ofList, hleft _ (List.dropWhile_idempotent ..), List.rdropWhile_idempotent]

def lowerChar (c : Char) : Char :=
  if c.toNat == 0x212a then 'k' else if c.toNat == 0x130 then 'i' else c.toLower

/-- `strings.ToLower` -/
def lower (s : String) : String := String.ofList (s.toList.map lowerChar)

def hasPrefix (s p : String) : Bool := p.toList.isPrefixOf s.toList

def hasSuffix (s p : String) : Bool := p.toList.isSuffixOf s.toList

def trimPrefix (p s : String) : String :=
  if p.toList.isPrefixOf s.toList then String.ofList (s.toList.drop p.length) else s

def trimSuffix (p s : String) : String :=
  if p.toList.isSuffixOf s.toList then String.ofList (s.toList.take (s.length - p.length)) else s

/-- `strings.TrimRight` for one character. -/
def trimRightChar (x : Char) (cs : List Char) : List Char := (cs.reverse.dropWhile (· == x)).reverse

/-- `strings.Trim` for one character. -/
def trimChar (x : Char) (cs : List Char) : List Char := trimRightChar x (cs.dropWhile (· == x))

/-- `strings.Trim` -/
def trimSet (cutset : List Char) (cs : List Char) : List Char :=
  ((cs.dropWhile cutset.contains).reverse.dropWhile cutset.contains).reverse

/-- What stands before and after the first occurrence of `sep` (`strings.Cut`). -/
def cut (sep : List Char) : List Char → Option (List Char × List Char)
  | [] => if sep == [] then some ([], []) else none
  | c :: cs =>
    if sep.isPrefixOf (c :: cs) then some ([], (c :: cs).drop sep.length)
    else (cut sep cs).map fun (before, after) => (c :: before, after)

theorem cut_eq_some (h : cut sep cs = some (before, after)) : cs = before ++ sep ++ after := by
  induction cs generalizing before with
  | nil =>
    obtain ⟨hsep, h⟩ := Option.ite_none_right_eq_some.mp h
    cases h
    simp_all
  | cons c cs ih =>
    rw [cut] at h
    split at h
    · next hpre =>
      cases h
      exact (List.prefix_iff_eq_append.mp (List.isPrefixOf_iff_prefix.mp hpre)).symm
    · obtain ⟨⟨b, a⟩, hcut, h⟩ := Option.map_eq_some_iff.mp h
      cases h
      rw [ih hcut, List.cons_append, List.cons_append]

theorem cut_eq_none (hsep : sep ≠ []) : cut sep cs = none ↔ ¬sep <:+: cs := by
  induction cs with
  | nil => simp [cut]
  | cons c cs ih =>
    rw [cut, List.infix_cons_iff]
    split <;> simp_all

theorem cut_append (hk : sep ∉ k) : cut [sep] (k ++ sep :: v) = some (k, v) := by
  induction k with
  | nil => simp [cut]
  | cons c k ih =>
    rw [List.mem_cons, not_or] at hk
    simp [cut, hk.1, ih hk.2]

/-- What stands before and after the last occurrence of a character. -/
def cutLast (x : Char) (cs : List Char) : Option (List Char × List Char) :=
  match cs.reverse.span (· != x) with
  | (_, []) => none
  | (after, _ :: before) => some (before.reverse, after.reverse)

theorem cutLast_append (hv : x ∉ v) : cutLast x (k ++ x :: v) = some (k, v) := by
  have hne : ∀ c ∈ v.reverse, (c != x) = true := fun c hc =>
    bne_iff_ne.mpr fun h => hv (h ▸ List.mem_reverse.mp hc)
  have hspan : (k ++ x :: v).reverse.span (· != x) = (v.reverse, x :: k.reverse) := by
    rw [List.span_eq_takeWhile_dropWhile, List.reverse_append, List.reverse_cons, List.append_assoc,
      List.takeWhile_append_of_pos hne, List.dropWhile_append_of_pos hne]
    simp
  rw [cutLast, hspan]
  simp

def atoi (s : List Char) : Option Int :=
  let (negative, digits) := match s with
    | '-' :: rest => (true, rest)
    | '+' :: rest => (false, rest)
    | _ => (false, s)
  if digits == [] || digits.any fun c => !c.isDigit then none
  else
    let n : Int := digits.foldl (fun n c => 10 * n + (c.toNat - '0'.toNat)) 0
    let n := if negative then -n else n
    if -(2 ^ 63) ≤ n && n < 2 ^ 63 then some n else none

theorem toNat_of_isDigit {c : Char} (h : c.isDigit = true) : 48 ≤ c.toNat ∧ c.toNat ≤ 57 := by
  simpa [Char.isDigit, UInt32.le_iff_toNat_le] using h

theorem trimSpace_toDigits :
    trimSpace (.ofList (Nat.toDigits 10 n)) = .ofList (Nat.toDigits 10 n) := by
  have hspace : ∀ c ∈ Nat.toDigits 10 n, ¬isSpace c = true := by
    intro c hc
    have := toNat_of_isDigit (Nat.isDigit_of_mem_toDigits (Nat.succ_pos 9) le_rfl hc)
    simp only [isSpace, Bool.or_eq_true, Bool.and_eq_true, decide_eq_true_eq, beq_iff_eq]
    omega
  have hdrop : ∀ l : List Char, (∀ c ∈ l, ¬isSpace c = true) → l.dropWhile isSpace = l := fun l hl =>
    List.dropWhile_eq_self_iff.mpr fun h => hl _ (List.getElem_mem h)
  rw [trimSpace, String.toList_ofList, hdrop _ hspace, hdrop _ (by simpa using hspace), List.reverse_reverse]

theorem atoi_toDigits (h : n < 2 ^ 63) : atoi (Nat.toDigits 10 n) = some (n : Int) := by
  have hdigit : ∀ c ∈ Nat.toDigits 10 n, c.isDigit = true := fun c =>
    Nat.isDigit_of_mem_toDigits (Nat.succ_pos 9) le_rfl
  have hfold : ∀ l k, (∀ c ∈ l, c.isDigit = true) →
      l.foldl (fun (n : Int) c => 10 * n + (c.toNat - '0'.toNat)) k = Nat.ofDigitChars 10 l k := by
    intro l k hl
    induction l generalizing k with
    | nil => rfl
    | cons c l ih =>
      have hc := toNat_of_isDigit (hl c List.mem_cons_self)
      have hcast : 10 * (k : Int) + (c.toNat - '0'.toNat) =
          ((10 * k + (c.toNat - '0'.toNat) : Nat) : Int) := by
        have h0 : '0'.toNat = 48 := rfl
        omega
      rw [List.foldl_cons, hcast, ih _ fun c hc => hl c (List.mem_cons_of_mem _ hc)]
      rfl
  rw [atoi]
  · have hall : (Nat.toDigits 10 n).any (fun c => !c.isDigit) = false := by simpa using hdigit
    have hvalue := hfold (Nat.toDigits 10 n) 0 hdigit
    rw [Nat.ofDigitChars_toDigits (by decide) le_rfl, Int.natCast_zero] at hvalue
    simp only [hall, hvalue, beq_iff_eq, Nat.toDigits_ne_nil, Bool.or_false, Bool.false_eq_true, if_false]
    rw [if_pos (by simp; omega)]
  all_goals
    intro rest hrest
    exact absurd (hdigit _ (hrest ▸ List.mem_cons_self)) (by decide)

/-- `strings.ReplaceAll` of one character by another. -/
def replaceChar (old new : Char) (cs : List Char) : List Char :=
  cs.map fun c => if c == old then new else c

/-- The errors of `net.SplitHostPort`. -/
inductive AddrError | missingPort | tooManyColons | missingBracket | unexpectedOpen | unexpectedClose
  deriving DecidableEq, Repr

def splitHostPort (hostPort : List Char) : Except AddrError (List Char × List Char) :=
  match cutLast ':' hostPort with
  | none => .error .missingPort
  | some (before, port) =>
    match hostPort with
    | '[' :: rest =>
      match cut [']'] rest with
      | none => .error .missingBracket
      | some (host, after) =>
        if after = [] then .error .missingPort
        else if after ≠ ':' :: port then
          .error (if after.head? = some ':' then .tooManyColons else .missingPort)
        else if '[' ∈ rest then .error .unexpectedOpen
        else if ']' ∈ after then .error .unexpectedClose
        else .ok (host, port)
    | _ =>
      if ':' ∈ before then .error .tooManyColons
      else if '[' ∈ hostPort then .error .unexpectedOpen
      else if ']' ∈ hostPort then .error .unexpectedClose
      else .ok (before, port)

def joinHostPort (host port : List Char) : List Char :=
  if ':' ∈ host then '[' :: host ++ ']' :: ':' :: port else host ++ ':' :: port

theorem splitHostPort_join (hhost : ∀ c ∈ host, c ≠ ':' ∧ c ≠ '[' ∧ c ≠ ']')
    (hport : ∀ c ∈ port, c ≠ ':' ∧ c ≠ '[' ∧ c ≠ ']') :
    splitHostPort (joinHostPort host port) = .ok (host, port) := by
  have hall : ∀ c ∈ host ++ ':' :: port, c ≠ '[' ∧ c ≠ ']' := by
    intro c hc
    rcases List.mem_append.mp hc with hc | hc
    · exact (hhost c hc).2
    · rcases List.mem_cons.mp hc with rfl | hc
      · decide
      · exact (hport c hc).2
  have hcolon : ':' ∉ host := fun h => (hhost _ h).1 rfl
  rw [joinHostPort, if_neg hcolon, splitHostPort, cutLast_append fun h => (hport _ h).1 rfl]
  dsimp only
  split
  · next h => exact absurd rfl (hall '[' (h ▸ List.mem_cons_self)).1
  · rw [if_neg hcolon, if_neg fun h => (hall _ h).1 rfl, if_neg fun h => (hall _ h).2 rfl]

example : splitHostPort (joinHostPort "fd00::1".toList "80".toList) =
    .ok ("fd00::1".toList, "80".toList) := by decide

end Kindling
