import Kindling.Runtime.NetworkSlots
import Mathlib.Data.Fintype.Basic

/-!
# Network slots are not shared

A slot counts as free until the interface of its owner has a route, and the counter does not keep it
from being given again: another reservation can set it back.
-/

namespace Kindling

variable {ι : Type} [DecidableEq ι] {u : SlotUser} {w w' : SlotHost ι}

/-- The slot that an owner has found, and has or is about to get. -/
def Reservation.slot? : Reservation → Option Nat
  | .found s | .reserved s | .connected s => some s
  | .idle | .scanning .. => none

def Reservation.scanned? : Reservation → Option Nat
  | .scanning start k => some (scannedSlot start k)
  | _ => none

/-- A slot that is looked at has no owner without an interface. -/
def SeesOwners (w : SlotHost ι) : SlotEvent ι → Prop
  | .scan i _ => ∀ s ∈ (w.owners i).scanned?, ∀ j, (w.owners j).slot? = some s →
      w.owners j = .connected s
  | _ => True

instance [Fintype ι] : Decidable (SeesOwners w e) := by
  unfold SeesOwners
  split <;> infer_instance

def SlotRun (G : SlotHost ι → SlotEvent ι → Prop) (u : SlotUser) : SlotHost ι → SlotHost ι → Prop :=
  Relation.ReflTransGen fun w w' => ∃ e, G w e ∧ w.step u e = some w'

structure SlotsApart (u : SlotUser) (w : SlotHost ι) : Prop where
  bound : ∀ i s, (w.owners i).slot? = some s → s < networkMaxSlots
  routed : ∀ i s, w.owners i = .connected s → u.network s ∈ w.routes
  apart : ∀ i j s, (w.owners i).slot? = some s → (w.owners j).slot? = some s → i = j

theorem SlotUser.network_eq (u : SlotUser) (s : Nat) : u.network s = u.base + s * 2 := by
  unfold network guestIP hostIP
  cases u <;> simp only [base] <;> omega

theorem SlotUser.network_inj (h : u.network s = u.network s') : s = s' := by
  rw [network_eq, network_eq] at h
  omega

/-- An owner gets, keeps or gives up a slot that nobody else has; the routes of the others stay. -/
theorem SlotsApart.put (h : SlotsApart u w) (i : ι) {r : Reservation} (hr : ∀ s, r.slot? = some s →
      s < networkMaxSlots ∧ ∀ j, (w.owners j).slot? = some s → j = i)
    (hconn : ∀ s, r = .connected s → u.network s ∈ routes)
    (hroutes : ∀ j s, j ≠ i → w.owners j = .connected s → u.network s ∈ routes) :
    SlotsApart u { w.put i r with routes, nextSlot := n } := by
  have hself : Function.update w.owners i r i = r := Function.update_self ..
  have hother : ∀ {j}, j ≠ i → Function.update w.owners i r j = w.owners j :=
    fun hj => Function.update_of_ne hj ..
  constructor <;> dsimp only [SlotHost.put]
  · intro j s hj
    by_cases hji : j = i
    · rw [hji, hself] at hj
      exact (hr s hj).1
    · exact h.bound j s (hother hji ▸ hj)
  · intro j s hj
    by_cases hji : j = i
    · rw [hji, hself] at hj
      exact hconn s hj
    · exact hroutes j s hji (hother hji ▸ hj)
  · intro j k s hj hk
    by_cases hji : j = i <;> by_cases hki : k = i
    · rw [hji, hki]
    · rw [hji, hself] at hj
      rw [hother hki] at hk
      exact hji.trans ((hr s hj).2 k hk).symm
    · rw [hki, hself] at hk
      rw [hother hji] at hj
      exact ((hr s hk).2 j hj).trans hki.symm
    · exact h.apart j k s (hother hji ▸ hj) (hother hki ▸ hk)

theorem SlotsApart.drop (h : SlotsApart u w) (i : ι) {r : Reservation} (hr : r.slot? = none) :
    SlotsApart u { w.put i r with nextSlot := n } :=
  h.put i (fun s hs => nomatch hr.symm.trans hs) (fun s hs => by rw [hs] at hr; cases hr)
    fun j s _ => h.routed j s

theorem SlotsApart.step (h : SlotsApart u w) (hG : SeesOwners w e) (hstep : w.step u e = some w') :
    SlotsApart u w' := by
  cases e with
  | others routes =>
    cases hstep
    exact ⟨h.bound, h.routed, h.apart⟩
  | add i =>
    dsimp only [SlotHost.step] at hstep
    split at hstep <;> cases hstep
    exact h.drop i rfl
  | store i =>
    dsimp only [SlotHost.step] at hstep
    split at hstep <;> cases hstep
    next s hi =>
    have hs : (w.owners i).slot? = some s := by rw [hi]; rfl
    refine h.put i ?_ nofun fun j s _ => h.routed j s
    rintro _ ⟨⟩
    exact ⟨h.bound i s hs, fun j hj => h.apart j i s hj hs⟩
  | connect i =>
    dsimp only [SlotHost.step] at hstep
    split at hstep <;> cases hstep
    next s hi =>
    have hs : (w.owners i).slot? = some s := by rw [hi]; rfl
    refine h.put i ?_ ?_ fun j s _ hj => List.mem_cons_of_mem _ (h.routed j s hj)
    · rintro _ ⟨⟩
      exact ⟨h.bound i s hs, fun j hj => h.apart j i s hj hs⟩
    · rintro _ ⟨⟩
      exact List.mem_cons_self
  | leave i =>
    dsimp only [SlotHost.step] at hstep
    split at hstep <;> cases hstep
    · next s hi =>
      -- the route that goes away is the owner's own
      refine h.put i nofun nofun fun j s' hji hj => ?_
      refine (List.mem_erase_of_ne fun hnet => hji ?_).mpr (h.routed j s' hj)
      exact h.apart j i s (by rw [hj, SlotUser.network_inj hnet]; rfl) (by rw [hi]; rfl)
    · exact h.drop i rfl
  | scan i fail =>
    dsimp only [SlotHost.step] at hstep
    split at hstep
    case h_2 => cases hstep
    next start k hi =>
    split at hstep
    · cases hstep
      exact h.drop i rfl
    split at hstep
    · next hfree =>
      cases hstep
      refine h.put i ?_ nofun fun j s _ => h.routed j s
      rintro _ ⟨⟩
      refine ⟨Nat.mod_lt _ (by decide), fun j hj => absurd (List.mem_append_left _ ?_) hfree⟩
      exact h.routed j _ (hG _ (by rw [hi]; rfl) j hj)
    · split at hstep <;> cases hstep <;> exact h.drop i rfl

theorem SlotRun.apart (hrun : SlotRun SeesOwners u {} w) : SlotsApart u w := by
  induction hrun with
  | refl => exact ⟨nofun, nofun, nofun⟩
  | tail _ hstep ih =>
    obtain ⟨e, hG, hstep⟩ := hstep
    exact ih.step hG hstep

/-- Two owners never have one slot, and both addresses of a slot are in the `/16` of the user, in every
run in which no slot is looked at between its reservation and its interface. -/
theorem reserved_slots_apart (u : SlotUser) (w : SlotHost ι) (hrun : SlotRun SeesOwners u {} w) :
    (∀ i j s, (w.owners i).slot? = some s → (w.owners j).slot? = some s → i = j) ∧
    ∀ i s, (w.owners i).slot? = some s →
      u.hostIP s / 2 ^ 16 = u.base / 2 ^ 16 ∧ u.guestIP s / 2 ^ 16 = u.base / 2 ^ 16 := by
  have h := hrun.apart
  refine ⟨h.apart, fun i s hs => ?_⟩
  have hbound := h.bound i s hs
  unfold networkMaxSlots at hbound
  cases u <;> simp only [SlotUser.guestIP, SlotUser.hostIP, SlotUser.base] <;> omega

theorem slotRun_of_run (es : List (SlotEvent ι)) {G : SlotHost ι → SlotEvent ι → Prop}
    [∀ w e, Decidable (G w e)]
    (h : Machine.run (fun w e => if G w e then w.step u e else none) w es = some w') :
    SlotRun G u w w' := by
  induction es generalizing w with
  | nil =>
    cases h
    exact .refl
  | cons e es ih =>
    obtain ⟨t, ht, hrest⟩ := Machine.run_cons_eq_some.mp h
    obtain ⟨hG, hstep⟩ := Option.ite_none_right_eq_some.mp ht
    exact .head ⟨e, hG, hstep⟩ (ih hrest)

/-- Two owners look for slots at the same time. The second has found slot 1 when the first sets the
counter to 1 again, and before the second has an interface a third is given slot 1. -/
theorem slot_reserved_twice : ∃ w : SlotHost (Fin 3), SlotRun (fun _ _ => True) .crun {} w ∧
    w.owners 1 = .reserved 1 ∧ w.owners 2 = .reserved 1 := by
  refine ⟨_, slotRun_of_run [.add 0, .add 1, .scan 1 false, .store 1, .scan 0 false, .store 0,
    .add 2, .scan 2 false, .store 2] rfl, ?_, ?_⟩ <;> decide

/-- With the interface of the second created in time, the third gets the next slot. -/
theorem slots_apart_in_time : ∃ w : SlotHost (Fin 3), SlotRun SeesOwners .crun {} w ∧
    w.owners 1 = .connected 1 ∧ w.owners 2 = .reserved 2 ∧
    ∀ i j s, (w.owners i).slot? = some s → (w.owners j).slot? = some s → i = j := by
  have hrun : SlotRun SeesOwners .crun {} _ := slotRun_of_run (ι := Fin 3) [.add 0, .add 1, .scan 1 false,
    .store 1, .scan 0 false, .store 0, .connect 1, .add 2, .scan 2 false, .scan 2 false, .store 2] rfl
  exact ⟨_, hrun, by decide, by decide, (reserved_slots_apart .crun _ hrun).1⟩

end Kindling
