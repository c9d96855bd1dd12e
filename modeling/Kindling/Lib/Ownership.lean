import Mathlib.Logic.Function.Basic

/-!
# Exclusive ownership

Holders refer to resources, at most one each. A resource is live or not, and known once it exists.
Ownership is sound when every live resource is held, by one holder only, apart from resources that
are exempt for the moment: those just created and not yet handed over, or about to be retired.
-/

namespace Kindling

structure Ownership (H R : Type) where
  held : H → Option R
  live : R → Prop
  known : R → Prop

namespace Ownership
variable {H R : Type} {o o' o'' : Ownership H R} {exempt : R → Prop} {S : H → Prop} {h : H} {r : R}

/-- Every live resource is held unless it is exempt, nothing is held twice, and only known resources
are held. -/
structure Sound (exempt : R → Prop) (o : Ownership H R) : Prop where
  held_of_live : ∀ r, o.live r → ¬exempt r → ∃ h, o.held h = some r
  unshared : ∀ h h' r, o.held h = some r → o.held h' = some r → h = h'
  known : ∀ h r, o.held h = some r → o.known r

/-- What the holder refers to, if anything, is not live. -/
def Free (o : Ownership H R) (h : H) : Prop := ∀ r, o.held h = some r → ¬o.live r

/-- Holders in `S` may have let go of their resources, and resources may have been retired. -/
structure Releases (S : H → Prop) (o o' : Ownership H R) : Prop where
  held : ∀ h, o'.held h = o.held h ∨ S h ∧ o'.held h = none
  live : ∀ r, o'.live r → o.live r
  known : ∀ r, o.known r → o'.known r

theorem Releases.refl : Releases S o o := ⟨fun _ => .inl rfl, fun _ => id, fun _ => id⟩

theorem Releases.trans (h₁ : Releases S o o') (h₂ : Releases S o' o'') : Releases S o o'' := by
  refine ⟨fun h => ?_, fun r hr => h₁.live r (h₂.live r hr), fun r hr => h₂.known r (h₁.known r hr)⟩
  rcases h₂.held h with heq | hdrop
  · rw [heq]
    exact h₁.held h
  · exact .inr hdrop

theorem Releases.held_some (hrel : Releases S o o') (h' : o'.held h = some r) : o.held h = some r := by
  rcases hrel.held h with heq | ⟨-, hnone⟩
  · exact heq ▸ h'
  · cases hnone.symm.trans h'

/-- Soundness survives when those who let go held nothing live. -/
theorem Sound.releases (ho : o.Sound exempt) (hrel : Releases S o o')
    (hS : ∀ h, S h → ∀ r, o.held h = some r → o'.live r → exempt r) : o'.Sound exempt where
  held_of_live r hr hex := by
    obtain ⟨h, hh⟩ := ho.held_of_live r (hrel.live r hr) hex
    rcases hrel.held h with heq | ⟨hs, -⟩
    · exact ⟨h, heq.trans hh⟩
    · exact absurd (hS h hs r hh hr) hex
  unshared h h' r hh hh' := ho.unshared h h' r (hrel.held_some hh) (hrel.held_some hh')
  known h r hh := hrel.known r (ho.known h r (hrel.held_some hh))

theorem Sound.releases_free (ho : o.Sound exempt) (hrel : Releases S o o')
    (hS : ∀ h, S h → o.Free h) : o'.Sound exempt :=
  ho.releases hrel fun h hs r hr hlive => absurd (hrel.live r hlive) (hS h hs r hr)

theorem Sound.mono (ho : o.Sound exempt) (h : ∀ r, o.live r → exempt r → exempt' r) :
    o.Sound exempt' where
  held_of_live r hr hex := ho.held_of_live r hr fun h' => hex (h r hr h')
  unshared := ho.unshared
  known := ho.known

theorem Sound.retired (ho : o.Sound fun x => x = r ∨ exempt x) (hr : ¬o.live r) : o.Sound exempt :=
  ho.mono fun _ hx hex => hex.resolve_left fun heq => hr (heq ▸ hx)

theorem Sound.create (ho : o.Sound exempt) (hheld : o'.held = o.held)
    (hlive : ∀ x, o'.live x → o.live x ∨ x = r) (hknown : ∀ x, o.known x → o'.known x) :
    o'.Sound fun x => x = r ∨ exempt x where
  held_of_live x hx hex := by
    rw [hheld]
    have hold := (hlive x hx).resolve_right fun heq => hex (.inl heq)
    exact ho.held_of_live x hold fun h => hex (.inr h)
  unshared := hheld ▸ ho.unshared
  known h x hx := hknown x (ho.known h x (hheld ▸ hx))

/-- A holder takes over a resource that nobody holds; what it held before is exempt from now on. -/
theorem Sound.acquire [DecidableEq H] (ho : o.Sound fun x => x = r ∨ exempt x)
    (hheld : o'.held = Function.update o.held h (some r)) (hlive : o'.live = o.live)
    (hknown : o'.known = o.known) (hr : o.known r) (hnobody : ∀ h', o.held h' ≠ some r)
    (hfree : ∀ x, o.held h = some x → o.live x → exempt x) : o'.Sound exempt where
  held_of_live x hx hex := by
    rw [hlive] at hx
    by_cases heq : x = r
    · exact ⟨h, by rw [hheld, heq, Function.update_self]⟩
    · obtain ⟨h', hh'⟩ := ho.held_of_live x hx fun hor => hor.elim heq hex
      have hne : h' ≠ h := by
        rintro rfl
        exact hex (hfree x hh' hx)
      exact ⟨h', by rw [hheld, Function.update_of_ne hne, hh']⟩
  unshared h₁ h₂ x hx₁ hx₂ := by
    rw [hheld, Function.update_apply] at hx₁ hx₂
    split at hx₁ <;> split at hx₂
    · next h₁eq h₂eq => rw [h₁eq, h₂eq]
    · cases hx₁
      exact absurd hx₂ (hnobody h₂)
    · cases hx₂
      exact absurd hx₁ (hnobody h₁)
    · exact ho.unshared h₁ h₂ x hx₁ hx₂
  known h' x hx := by
    rw [hheld, Function.update_apply] at hx
    rw [hknown]
    split at hx
    · cases hx
      exact hr
    · exact ho.known h' x hx

end Ownership
end Kindling
