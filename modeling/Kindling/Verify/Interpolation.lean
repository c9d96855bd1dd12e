import Kindling.CI.Expressions

/-!
# Interpolation

`interpolateString` looks for the next expression in the text it has written, so an expression that
comes out of a value is evaluated like one of the template.
-/

namespace Kindling
open Fallible

/-- What begins an expression. -/
abbrev opener : List Char := ['$', '{', '{']

section
variable (input : String) (eval : String → Eval String)

def substituteLoop : Nat → List Char → Eval (List Char × Option RunnerErr)
  | 0, cs => pure (cs, none)
  | fuel + 1, cs =>
    match cut opener cs with
    | none => pure (cs, none)
    | some (before, rest) =>
      match cut ['}', '}'] rest with
      | none => pure (before, some (.unterminatedExpression input))
      | some (expr, after) => do
        match ← (eval (trimSpace (String.ofList expr))).attempt with
        | .error err => pure (before, some err)
        | .ok value => do
          let (text, err) ← substituteLoop fuel after
          pure (before ++ value.toList ++ text, err)

/-- The template with the value of each expression in its place, up to the first expression that is
not closed or has no value, and the error of that one. An expression has more than one character. -/
def substitute : Eval (List Char × Option RunnerErr) :=
  substituteLoop input eval input.length input.toList

end

def written (text : List Char) : Option RunnerErr → Except RunnerErr String
  | none => .ok (String.ofList text)
  | some err => .error err

/-! ## The loop on its own text -/

/-- Two openers do not overlap. -/
theorem cut_opener_append (h : ¬opener <:+: before) :
    cut opener (before ++ opener ++ rest) = some (before, rest) := by
  induction before with
  | nil => simp [cut]
  | cons c cs ih =>
    rw [List.infix_cons_iff, not_or] at h
    have hpre : ¬opener <+: c :: (cs ++ opener ++ rest) := by
      intro hpre
      rcases cs with _ | ⟨x, _ | ⟨y, cs⟩⟩
      · simp at hpre
      · simp at hpre
      · exact h.1 (by simpa using hpre)
    rw [List.cons_append, List.cons_append, cut, if_neg (by simpa using hpre), ih h.2]
    rfl

section
variable {input : String} {eval : String → Eval String}

theorem interpolateLoop_plain (h : ¬opener <:+: cs) :
    interpolateLoop input eval (fuel + 1) cs = pure (.ofList cs) := by
  rw [interpolateLoop, (cut_eq_none (by decide)).mpr h]

/-- A loop that has written `d` goes on as the single replacement does, as long as the text of
that has no opener in it. -/
theorem interpolateLoop_writes (hlen : cs.length ≤ fuel)
    (h : (substituteLoop input eval fuel cs).outcome as w = ⟨.ok (text, err), w', as'⟩)
    (hno : ¬opener <:+: d ++ text) :
    (interpolateLoop input eval (fuel + 1) (d ++ cs)).outcome as w =
      ⟨written (d ++ text) err, w', as'⟩ := by
  induction fuel generalizing cs d text as w with
  | zero =>
    cases h
    rw [interpolateLoop_plain hno]
    rfl
  | succ fuel ih =>
    rw [substituteLoop] at h
    cases hcut : cut opener cs with
    | none =>
      rw [hcut] at h
      cases h
      rw [interpolateLoop_plain hno]
      rfl
    | some parts =>
      obtain ⟨before, rest⟩ := parts
      obtain rfl := cut_eq_some hcut
      rw [hcut] at h
      dsimp only at h
      -- what has been written so far has no opener, so the next one is that of the template
      have hnext : ∀ more, text = before ++ more →
          cut opener (d ++ (before ++ opener ++ rest)) = some (d ++ before, rest) := by
        rintro more rfl
        rw [← List.append_assoc] at hno
        rw [← List.append_assoc, ← List.append_assoc]
        exact cut_opener_append fun hin => hno (hin.trans (List.prefix_append _ _).isInfix)
      rw [interpolateLoop]
      cases hclose : cut ['}', '}'] rest with
      | none =>
        rw [hclose] at h
        cases h
        simp only [hnext [] (List.append_nil _).symm, hclose]
        rfl
      | some parts =>
        obtain ⟨expr, after⟩ := parts
        rw [hclose] at h
        rw [outcome_bind, outcome_attempt] at h
        rcases heval : (eval (trimSpace (.ofList expr))).outcome as w with ⟨r, w₁, as₁⟩
        rw [heval] at h
        cases r with
        | error err =>
          cases h
          simp only [hnext [] (List.append_nil _).symm, hclose, outcome_bind, heval]
          rfl
        | ok value =>
          obtain ⟨⟨more, err'⟩, w₂, as₂, hmore, h⟩ := outcome_bind_ok h
          cases h
          have hafter : after.length ≤ fuel := by
            rw [cut_eq_some hclose] at hlen
            simp only [List.length_append, List.length_cons] at hlen
            omega
          simp only [hnext (value.toList ++ more) (List.append_assoc ..), hclose, outcome_bind, heval]
          simpa using ih (d := d ++ before ++ value.toList) hafter hmore (by simpa using hno)

theorem interpolateLoop_ok
    (h : ((interpolateLoop input eval fuel cs).outcome as w).value = .ok (.ofList text)) :
    ¬opener <:+: text := by
  induction fuel generalizing cs as w with
  | zero => cases h
  | succ fuel ih =>
    rw [interpolateLoop] at h
    split at h
    · next hcut =>
      cases String.ofList_injective (Except.ok.inj h)
      exact (cut_eq_none (by decide)).mp hcut
    · split at h
      · cases h
      · rw [outcome_bind] at h
        rcases heval : (eval (trimSpace (.ofList _))).outcome as w with ⟨_ | value, w₁, as₁⟩
        · rw [heval] at h
          cases h
        · rw [heval] at h
          exact ih h

end

/-- Where every expression of the template is closed and has a value, interpolation ends with the
template in which each has been replaced once, exactly when no expression begins in that text. Where
none begins in what comes before the first expression that fails, it ends with the error of that. -/
theorem interpolateString_substitutes
    (h : (substitute input eval).outcome as w = ⟨.ok (text, err), w', as'⟩) :
    (err = none → ((∃ fuel, (interpolateString fuel input eval).outcome as w =
      ⟨.ok (String.ofList text), w', as'⟩) ↔ ¬opener <:+: text)) ∧
    (¬opener <:+: text → ∃ fuel, (interpolateString fuel input eval).outcome as w =
      ⟨written text err, w', as'⟩) := by
  have hends : ¬opener <:+: text → ∃ fuel, (interpolateString fuel input eval).outcome as w =
      ⟨written text err, w', as'⟩ := fun hno =>
    ⟨_, interpolateLoop_writes (d := []) String.length_toList.le h hno⟩
  refine ⟨?_, hends⟩
  rintro rfl
  refine ⟨?_, hends⟩
  rintro ⟨fuel, hfuel⟩
  exact interpolateLoop_ok (congrArg Outcome.value hfuel)

/-- A value in which an expression stands. -/
def leakyEval : String → Eval String := fun expr =>
  pure (if expr == "inputs.name" then "$\x7b\x7b secrets.TOKEN \x7d\x7d" else "s3cret")

/-- The expression of the value is evaluated, and a value that stands for itself never ends. -/
theorem value_is_evaluated :
    interpolateString 3 "hello $\x7b\x7b inputs.name \x7d\x7d" leakyEval = pure "hello s3cret" ∧
    ∀ fuel, interpolateString fuel "$\x7b\x7b x \x7d\x7d"
      (fun _ => pure "$\x7b\x7b x \x7d\x7d") = throw .diverged := by
  refine ⟨rfl, fun fuel => ?_⟩
  induction fuel with
  | zero => rfl
  | succ fuel ih => exact ih

theorem plain_value_interpolated : ∃ w fuel,
    (interpolateString fuel "hello $\x7b\x7b secrets.TOKEN \x7d\x7d!" leakyEval).outcome [] w =
      ⟨.ok "hello s3cret!", w, []⟩ :=
  have hsub : (substitute "hello $\x7b\x7b secrets.TOKEN \x7d\x7d!" leakyEval).outcome []
      ⟨⟨∅, by simp⟩, ⟨[]⟩⟩ = ⟨.ok ("hello s3cret!".toList, none), _, []⟩ := rfl
  ⟨_, ((interpolateString_substitutes hsub).1 rfl).mpr (by decide)⟩

end Kindling
