import Kindling.Rpc.DashboardEvents

/-!
# Sends of the event broker

A publisher copies the subscriptions under the lock and sends to their channels after it has given the
lock back. In between, a subscription can be deleted and its channel closed, and the send panics.
-/

namespace Kindling

open Fallible

inductive BrokerFact
  /-- Only the subscription with the id can have the channel. -/
  | own (id : Int64) (ch : Nat)
  /-- No subscription has the channel. -/
  | gone (ch : Nat)
  deriving DecidableEq

namespace BrokerFact

/-- A channel is closed after its subscription has been deleted. -/
def allows (m : List BrokerFact) : BrokerOp β → Prop
  | .close ch => .gone ch ∈ m
  | _ => True

/-- The channels that only the subscription with the id can have. -/
def channelsOf (id : Int64) (m : List BrokerFact) : List Nat := m.filterMap fun
    | own id' ch => if id' = id then some ch else none
    | gone _ => none

def next (m : List BrokerFact) : BrokerOp β → β → List BrokerFact
  | .register _, r => own r.1 r.2 :: m
  | .unregister id, _ => (channelsOf id m).map gone ++ m
  | _, _ => m

theorem mem_channelsOf {id : Int64} : ch ∈ channelsOf id m ↔ own id ch ∈ m := by
  constructor
  · intro h
    obtain ⟨f, hf, hch⟩ := List.mem_filterMap.mp h
    cases f with
    | own id' ch' =>
      dsimp only at hch
      split at hch
      · next hid =>
        cases hch
        exact hid ▸ hf
      · cases hch
    | gone => cases hch
  · intro h
    exact List.mem_filterMap.mpr ⟨_, h, if_pos rfl⟩

def Holds (w : BrokerWorld) : BrokerFact → Prop
  | own id ch => ch < w.chans.length ∧ ∀ s ∈ w.subs, s.ch = ch → s.id = id
  | gone ch => ch < w.chans.length ∧ ∀ s ∈ w.subs, s.ch ≠ ch

end BrokerFact

def brokerSight : Typestate BrokerOp (List BrokerFact) :=
  ⟨[], BrokerFact.allows, fun _ _ _ => True, BrokerFact.next⟩

section programs
variable {m : List BrokerFact}

theorem publishMany_follows : brokerSight.Follows (publishMany topics) (fun _ _ => True) m := by
  refine .forEach (fun topic _ m _ => ?_) trivial
  unfold publish
  split
  · exact .pure trivial
  refine .ofTotal_bind trivial fun now _ => .ofTotal_bind trivial fun subs _ => ?_
  refine .forEach (fun s _ m _ => ?_) trivial
  split
  · exact .pure trivial
  · exact .call trivial

theorem subscribe_follows :
    brokerSight.Follows (subscribe letterOrDigit topics) (fun _ _ => True) m := by
  refine .ofTotal_bind trivial fun r _ => ?_
  obtain ⟨id, ch⟩ := r
  refine .ofTotal_bind trivial fun _ _ => .ofTotal_bind trivial fun _ _ => ?_
  refine .call ?_
  -- the subscription whose channel is closed is the one that has been deleted
  refine List.mem_append_left _ (List.mem_map.mpr ⟨ch, ?_, rfl⟩)
  exact BrokerFact.mem_channelsOf.mpr List.mem_cons_self

theorem brokerStarts_follow (i : BrokerActor) (p : Prog BrokerOp (Except Panic Unit))
    (hp : brokerStarts i p) : brokerSight.Admits p (fun _ _ => True) [] := by
  cases i with
  | publisher n =>
    obtain ⟨topics, rfl⟩ := hp
    exact publishMany_follows
  | subscriber n =>
    obtain ⟨letterOrDigit, topics, rfl⟩ := hp
    exact subscribe_follows
  | stream n =>
    obtain ⟨ch, n, rfl⟩ := hp
    exact Typestate.Follows.forEach (fun _ _ _ _ => .ofTotal trivial fun _ _ => trivial) trivial

end programs

/-! ## Calls -/

/-- A publisher sends to a subscription that has not been deleted since. -/
def SendsToSubscribers : Prog.Guard BrokerOp BrokerAnswer BrokerWorld := fun _ op _ w =>
  match op with
  | .send ch _ => ∃ s ∈ w.subs.rows, s.ch = ch
  | _ => True

instance : Decidable (SendsToSubscribers β op as w) := by
  unfold SendsToSubscribers
  split <;> infer_instance

structure SendsSafe (w : BrokerWorld) : Prop where
  subs : ∀ s ∈ w.subs, Chan.IsOpen w.chans s.ch
  panics : .sendOnClosedChannel ∉ w.panics

section calls
variable {w : BrokerWorld} {op : BrokerOp β} {m : List BrokerFact}

/-- No call makes a fact false. -/
theorem BrokerFact.holds_step {f : BrokerFact} (h : f.Holds w) (a : BrokerAnswer) :
    f.Holds (op.step a w).2 := by
  -- a new subscription has a new channel
  have hnew : ∀ topics, ∀ s ∈ (w.register topics).2.subs, s.ch < w.chans.length → s ∈ w.subs := by
    intro topics s hs hlt
    rcases Table.mem_put.mp hs with ⟨hold, -⟩ | rfl
    · exact hold
    · exact absurd hlt (lt_irrefl _)
  have hlength : ∀ ch g, (w.onChan ch g).2.chans.length = w.chans.length :=
    fun _ _ => Chan.length_change
  cases op with
  | now | subscriptions | done => exact h
  | send ch ev | close ch | receive ch =>
    cases f with
    | own => exact ⟨(hlength _ _).symm ▸ h.1, h.2⟩
    | gone => exact ⟨(hlength _ _).symm ▸ h.1, h.2⟩
  | register topics =>
    have hgrows : w.chans.length ≤ (w.register topics).2.chans.length := by
      simp [BrokerWorld.register]
    cases f with
    | own id ch =>
      exact ⟨h.1.trans_le hgrows, fun s hs hch => h.2 s (hnew topics s hs (hch ▸ h.1)) hch⟩
    | gone ch =>
      exact ⟨h.1.trans_le hgrows, fun s hs hch => h.2 s (hnew topics s hs (hch ▸ h.1)) hch⟩
  | unregister id' =>
    cases f with
    | own => exact ⟨h.1, fun s hs => h.2 s (Table.mem_keep.mp hs).1⟩
    | gone => exact ⟨h.1, fun s hs => h.2 s (Table.mem_keep.mp hs).1⟩

theorem BrokerFact.next_holds (hw : SendsSafe w) (hm : ∀ f ∈ m, f.Holds w) (a : BrokerAnswer)
    (hf : f ∈ BrokerFact.next m op (op.step a w).1) :
    f ∈ m ∨ f.Holds (op.step a w).2 := by
  cases op with
  | register topics =>
    rcases List.mem_cons.mp hf with rfl | hold
    · refine .inr ⟨?_, fun s hs hch => ?_⟩
      · change w.chans.length < (w.chans ++ [_]).length
        simp
      · rcases Table.mem_put.mp hs with ⟨hold, -⟩ | rfl
        · exact absurd hch (hw.subs s hold).lt.ne
        · rfl
    · exact .inl hold
  | unregister id =>
    rcases List.mem_append.mp hf with hnew | hold
    · obtain ⟨ch, hch, rfl⟩ := List.mem_map.mp hnew
      obtain ⟨hlt, hown⟩ := hm _ (mem_channelsOf.mp hch)
      refine .inr ⟨hlt, fun s hs hsch => ?_⟩
      obtain ⟨hs, hid⟩ := Table.mem_keep.mp hs
      exact absurd (hown s hs hsch) (by simpa using hid)
    · exact .inl hold
  | _ => exact .inl hf

theorem panics_onChan (hw : .sendOnClosedChannel ∉ w.panics)
    (hf : (Chan.change w.chans ch f).1 ≠ .error .sendOnClosedChannel) :
    .sendOnClosedChannel ∉ (w.onChan ch f).2.panics := by
  dsimp only [BrokerWorld.onChan]
  split
  · exact hw
  · next p hp =>
    intro hmem
    rcases List.mem_cons.mp hmem with rfl | hold
    · exact hf hp
    · exact hw hold

theorem SendsSafe.step (hw : SendsSafe w) (hm : ∀ f ∈ m, f.Holds w)
    (hallows : BrokerFact.allows m op) (as : List BrokerAnswer)
    (hguard : SendsToSubscribers β op as w) : SendsSafe (op.step (as.headD default) w).2 := by
  cases op with
  | now | subscriptions | done => exact hw
  | send ch ev =>
    obtain ⟨s, hs, rfl⟩ := hguard
    refine ⟨fun s' hs' => (hw.subs s' hs').change fun _ _ => Chan.trySend_closed, ?_⟩
    refine panics_onChan hw.panics ?_
    rw [(hw.subs s hs).change_trySend ev]
    exact fun h => by cases h
  | close ch =>
    obtain ⟨-, hgone⟩ := hm _ hallows
    refine ⟨fun s hs => (hw.subs s hs).change_ne (hgone s hs).symm, ?_⟩
    refine panics_onChan hw.panics (Chan.change_ne_error fun c => ?_)
    unfold Chan.close
    split
    · exact fun h => by cases h
    · exact fun h => by cases h
  | receive ch =>
    refine ⟨fun s hs => (hw.subs s hs).change fun c c' h => ?_, ?_⟩
    · cases h
      rfl
    · exact panics_onChan hw.panics (Chan.change_ne_error fun c h => by cases h)
  | register topics =>
    refine ⟨fun s hs => ?_, hw.panics⟩
    rcases Table.mem_put.mp hs with ⟨hold, -⟩ | rfl
    · exact (hw.subs s hold).append _
    · exact ⟨_, List.getElem?_concat_length, rfl⟩
  | unregister id => exact ⟨fun s hs => hw.subs s (Table.mem_keep.mp hs).1, hw.panics⟩

end calls

theorem sendsSafe_keeps : Team.Keeps brokerStarts (fun _ w => w) (fun _ _ => SendsToSubscribers)
    (fun _ => brokerSight) (fun _ _ => True)
    fun M w => SendsSafe w ∧ ∀ i, ∀ f ∈ M i, BrokerFact.Holds w f := by
  refine .of_facts brokerStarts_follow (fun _ => rfl) ?_ fun _ _ h => ⟨h, fun _ => id⟩
  intro i log w β op as hallows hguard hw hm
  exact ⟨trivial, hw.step hm hallows as hguard, fun _ hf => BrokerFact.holds_step hf _,
    fun _ hf => BrokerFact.next_holds hw hm _ hf⟩

/-- **Sends of publishers.** Let any number of publishers, subscriptions and streams interleave, each
section under the lock and each operation on a channel at a time, from a broker without subscriptions.
If publishers send only to subscriptions that have not been deleted since they were copied, nobody ever
sends on a closed channel. -/
theorem no_send_on_closed (c : BrokerTeam)
    (hc : Team.Run brokerStarts (fun _ w => w) (fun _ _ => SendsToSubscribers)
      (Team.idle (.ok ()) {}) c) : .sendOnClosedChannel ∉ c.state.panics := by
  have hstart : SendsSafe ({} : BrokerWorld) := ⟨fun _ => nofun, nofun⟩
  obtain ⟨-, hsafe, -⟩ := sendsSafe_keeps.run (sendsSafe_keeps.follow_idle _ _)
    ⟨hstart, fun _ _ => nofun⟩ hc
  exact hsafe.panics

def brokerTeam : BrokerTeam :=
  ((Team.idle (.ok ()) {}).begin (.subscriber 0) (subscribe Char.isAlphanum ["projects"])).begin
    (.publisher 0) (publishMany ["projects"])

theorem brokerTeam_run : Team.Run brokerStarts (fun _ w => w) G (.idle (.ok ()) {}) brokerTeam :=
  (Team.Run.begin (.subscriber 0) _ rfl ⟨_, _, rfl⟩).trans
    (Team.Run.begin (BrokerActor.publisher 0) _ rfl ⟨_, rfl⟩)

/-- The publication is over before the subscription ends. -/
def publishedFirst : BrokerTeam :=
  brokerTeam.turns ([(.subscriber 0, [])] ++ List.replicate 3 (.publisher 0, []) ++
    List.replicate 3 (.subscriber 0, []))

/-- The subscription ends after the publisher has copied it, and before the publisher sends. -/
def closedFirst : BrokerTeam :=
  brokerTeam.turns ([(.subscriber 0, []), (.publisher 0, []), (.publisher 0, [])] ++
    List.replicate 3 (.subscriber 0, []) ++ [(.publisher 0, [])])

theorem published_before_close : .sendOnClosedChannel ∉ publishedFirst.state.panics ∧
    publishedFirst.state.chans =
      [{ capacity := 64, buffer := [⟨"projects", 0⟩], closed := true }] :=
  ⟨no_send_on_closed publishedFirst (brokerTeam_run.trans (Team.Run.turns (by decide +kernel))),
    by decide +kernel⟩

/-- The publisher sends on a closed channel. -/
theorem send_on_closed :
    Team.Run brokerStarts (fun _ w => w) (fun _ _ => Prog.unguarded) (Team.idle (.ok ()) {})
      closedFirst ∧ .sendOnClosedChannel ∈ closedFirst.state.panics :=
  ⟨brokerTeam_run.trans (Team.Run.turns (Team.turnsMeet_unguarded _ _)), by decide +kernel⟩

end Kindling
