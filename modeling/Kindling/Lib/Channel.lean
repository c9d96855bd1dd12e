import Mathlib.Data.List.Basic

/-!
# Channels

Buffered channels with an end that can be closed. A channel is known by its place in the list of all
channels. Sending on a closed channel and closing it again are panics; every other operation leaves
open channels open.
-/

namespace Kindling

inductive Panic
  | sendOnClosedChannel
  | closeOfClosedChannel
  deriving DecidableEq, Repr

structure Chan (α : Type) where
  capacity : Nat
  buffer : List α := []
  closed : Bool := false
  deriving DecidableEq, Repr

namespace Chan
variable {α : Type}

/-- A send that is dropped when the buffer is full. -/
def trySend (x : α) (c : Chan α) : Except Panic (Chan α) :=
  if c.closed then .error .sendOnClosedChannel
  else if c.buffer.length < c.capacity then .ok { c with buffer := c.buffer ++ [x] }
  else .ok c

def close (c : Chan α) : Except Panic (Chan α) :=
  if c.closed then .error .closeOfClosedChannel else .ok { c with closed := true }

def receive (c : Chan α) : Chan α := { c with buffer := c.buffer.tail }

theorem trySend_closed (h : trySend x c = .ok c') : c'.closed = c.closed := by
  unfold trySend at h
  split at h
  · cases h
  split at h
  · cases h
    rfl
  · cases h
    rfl

theorem trySend_of_open (h : c.closed = false) : ∃ c', trySend x c = .ok c' := by
  unfold trySend
  rw [if_neg (by rw [h]; decide)]
  split
  · exact ⟨_, rfl⟩
  · exact ⟨_, rfl⟩

/-- Change one of the channels, unless this panics. -/
def change (cs : List (Chan α)) (i : Nat) (f : Chan α → Except Panic (Chan α)) :
    Except Panic Unit × List (Chan α) :=
  match cs[i]? with
  | none => (.ok (), cs)
  | some c =>
    match f c with
    | .ok c' => (.ok (), cs.set i c')
    | .error e => (.error e, cs)

def IsOpen (cs : List (Chan α)) (i : Nat) : Prop := ∃ c, cs[i]? = some c ∧ c.closed = false

variable {cs : List (Chan α)} {f : Chan α → Except Panic (Chan α)} {i j : Nat}

theorem length_change : (change cs i f).2.length = cs.length := by
  unfold change
  split
  · rfl
  split
  · exact List.length_set
  · rfl

theorem change_ne_error (hf : ∀ c, f c ≠ .error p) : (change cs i f).1 ≠ .error p := by
  unfold change
  split
  · exact fun h => by cases h
  · next c _ =>
    cases hc : f c with
    | ok c' => exact fun h => by cases h
    | error e =>
      intro h
      cases h
      exact hf c hc

theorem IsOpen.lt (h : IsOpen cs i) : i < cs.length := by
  obtain ⟨c, hc, -⟩ := h
  exact (getElem?_eq_some_iff.mp hc).1

theorem IsOpen.append (h : IsOpen cs i) (c : Chan α) : IsOpen (cs ++ [c]) i := by
  obtain ⟨c', hc', hopen⟩ := h
  refine ⟨c', ?_, hopen⟩
  rw [List.getElem?_append_left (getElem?_eq_some_iff.mp hc').1]
  exact hc'

theorem IsOpen.change_ne (h : IsOpen cs j) (hij : i ≠ j) : IsOpen (change cs i f).2 j := by
  obtain ⟨c, hc, hopen⟩ := h
  refine ⟨c, ?_, hopen⟩
  unfold change
  split
  · exact hc
  split
  · rw [List.getElem?_set_ne hij]
    exact hc
  · exact hc

theorem IsOpen.change (h : IsOpen cs j) (hf : ∀ c c', f c = .ok c' → c'.closed = c.closed) :
    IsOpen (change cs i f).2 j := by
  by_cases hij : i = j
  · subst hij
    obtain ⟨c, hc, hopen⟩ := h
    unfold Chan.change
    rw [hc]
    dsimp only
    split
    · next c' hc' =>
      refine ⟨c', ?_, (hf c c' hc').trans hopen⟩
      exact List.getElem?_set_self (getElem?_eq_some_iff.mp hc).1
    · exact ⟨c, hc, hopen⟩
  · exact h.change_ne hij

theorem IsOpen.change_trySend (h : IsOpen cs i) (x : α) :
    (Chan.change cs i (trySend x)).1 = .ok () := by
  obtain ⟨c, hc, hopen⟩ := h
  obtain ⟨c', hc'⟩ := trySend_of_open hopen
  unfold Chan.change
  rw [hc]
  dsimp only
  rw [hc']

end Chan

end Kindling
