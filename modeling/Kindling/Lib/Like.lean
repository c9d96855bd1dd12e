import Mathlib.Data.List.Infix

/-!
# SQL patterns

The patterns of `LIKE`: a percent sign stands for any text, an underscore for one character, and a
backslash takes the next character as it is.
-/

namespace Kindling

inductive LikeToken
  | anyText
  | anyChar
  | char (c : Char)

/-- PostgreSQL refuses a pattern that ends in a backslash. -/
def likeTokens : List Char → List LikeToken
  | [] => []
  | '%' :: p => .anyText :: likeTokens p
  | '_' :: p => .anyChar :: likeTokens p
  | '\\' :: c :: p => .char c :: likeTokens p
  | c :: p => .char c :: likeTokens p

def LikeToken.matchAll : List LikeToken → List Char → Bool
  | [], s => s.isEmpty
  | .anyText :: ts, s => s.tails.any (matchAll ts)
  | .anyChar :: ts, s => s.tail?.any (matchAll ts)
  | .char c :: ts, s => s.head? == some c && matchAll ts s.tail

def like (s pattern : List Char) : Bool := LikeToken.matchAll (likeTokens pattern) s

def LikeToken.Plain (c : Char) : Prop := c ≠ '%' ∧ c ≠ '_' ∧ c ≠ '\\'

namespace LikeToken

/-- A text that a pattern matches. -/
def sample : List LikeToken → List Char
  | [] => []
  | .anyText :: ts => sample ts
  | .anyChar :: ts => 'a' :: sample ts
  | .char c :: ts => c :: sample ts

theorem matchAll_sample : matchAll ts (sample ts) = true := by
  induction ts with
  | nil => rfl
  | cons t ts ih =>
    cases t with
    | anyText => exact List.any_eq_true.mpr ⟨_, by simp [sample], ih⟩
    | anyChar => exact ih
    | char c => simpa [matchAll, sample] using ih

theorem likeTokens_plain (h : Plain c) : likeTokens (c :: p) = .char c :: likeTokens p := by
  obtain ⟨h₁, h₂, h₃⟩ := h
  rw [likeTokens] <;> simp_all

/-- Without special characters, the pattern matches what starts with the text. -/
theorem like_append_percent (h : ∀ c ∈ p, Plain c) : like s (p ++ ['%']) = true ↔ p <+: s := by
  induction p generalizing s with
  | nil =>
    simp only [List.nil_prefix, iff_true]
    exact List.any_eq_true.mpr ⟨[], by simp, rfl⟩
  | cons c p ih =>
    have hc := likeTokens_plain (p := p ++ ['%']) (h c List.mem_cons_self)
    have ih := @ih s.tail fun c hc => h c (List.mem_cons_of_mem _ hc)
    rw [like] at ih ⊢
    rw [List.cons_append, hc, matchAll, Bool.and_eq_true, ih]
    cases s with
    | nil => simp
    | cons x s => simp [eq_comm (a := x)]

theorem length_sample : (sample (likeTokens (p ++ ['%']))).length ≤ p.length := by
  fun_induction likeTokens p with
  | case1 => exact Nat.zero_le _
  | case2 p ih => exact Nat.le_succ_of_le ih
  | case3 p ih => exact Nat.succ_le_succ ih
  | case4 c p ih => exact Nat.succ_le_succ (Nat.le_succ_of_le ih)
  | case5 c p h₁ h₂ h₃ ih =>
    cases p with
    | nil => by_cases hc : c = '\\' <;> simp_all [likeTokens, sample]
    | cons d p =>
      rw [List.cons_append, likeTokens_plain ⟨h₁, h₂, fun hc => h₃ d p hc rfl⟩]
      exact Nat.succ_le_succ ih

/-- A special character makes the pattern match a text that does not start with it. -/
theorem plain_of_prefix_sample (h : p <+: sample (likeTokens (p ++ ['%']))) : ∀ c ∈ p, Plain c := by
  fun_induction likeTokens p with
  | case1 => simp
  | case2 p ih =>
    have hlen := h.length_le.trans (length_sample (p := p))
    exact absurd hlen (Nat.not_succ_le_self _)
  | case3 p ih => simp [likeTokens, sample] at h
  | case4 c p ih =>
    have hlen := h.length_le.trans (Nat.succ_le_succ (length_sample))
    exact absurd hlen (Nat.not_succ_le_self _)
  | case5 c p h₁ h₂ h₃ ih =>
    by_cases hc : c = '\\'
    · cases p with
      | nil => simp [hc, likeTokens, sample] at h
      | cons d p => exact absurd rfl (h₃ d p hc)
    rw [List.cons_append, likeTokens_plain ⟨h₁, h₂, hc⟩, sample, List.cons_prefix_cons] at h
    exact List.forall_mem_cons.mpr ⟨⟨h₁, h₂, hc⟩, ih h.2⟩

end LikeToken
end Kindling
