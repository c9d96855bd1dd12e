import Kindling.ServerReconcile.Drain
import Kindling.Deploy.Executions

/-!
# When a server is drained

A pass reads the status of a server and counts its instances and its active migrations, one statement
after the other, and sets the status without looking again.
-/

namespace Kindling

open Fallible

def World.serverStatus (w : World) (id : Id) : Option ServerStatus := (w.servers.find? id).map (·.status)

/-- What a pass has read of a server. -/
inductive ServerFact
  | status (id : Id) (st : ServerStatus)
  | instances (id : Id) (n : Nat)
  | migrations (id : Id) (n : Nat)
  deriving DecidableEq

def ServerFact.Holds (w : World) : ServerFact → Prop
  | status id st => w.serverStatus id = some st
  | instances id n => (w.instancesOn id).length = n
  | migrations id n => (w.activeMigrationsOn id).length = n

instance : (f : ServerFact) → Decidable (f.Holds w)
  | .status .. | .instances .. | .migrations .. => by unfold ServerFact.Holds; infer_instance

def ServerOp.Undraining (β : Type) (op : ServerOp β) : Prop := ∀ as w id,
  (Effect.exec op as w).state.serverStatus id = some .drained → w.serverStatus id = some .drained

/-- Passes over servers, requests of operators, and other programs: deployers place instances,
migrations are created, servers send heartbeats and are found dead. -/
inductive ServerProgram : Prog ServerOp Unit → Prop
  | pass (id : Id) : ServerProgram (reconcileServer id).quietly
  | drain (id : Option Id) : ServerProgram (postServerDrain id).quietly
  | activate (id : Option Id) : ServerProgram (postServerActivate id).quietly
  | other {p : Prog ServerOp Unit} (h : p.Uses ServerOp.Undraining) : ServerProgram p

theorem serverStatus_update {id : Id} :
    (Effect.exec (ServerOp.update u) as w).state.serverStatus id = (w.servers.find? id).map fun s =>
      if (as.headD default).fail = false ∧ id = u.target ∧ u.applies s = true then
        (u.change (as.headD default).now s).status
      else s.status := by
  dsimp only [Effect.exec, ServerOp.exec, answering, onTable, World.serverStatus]
  split
  · next hfail => simp only [hfail, Bool.true_eq_false, false_and, if_false]
  · next hfail =>
    rw [World.withServers_servers, ServerUpdate.exec, Table.find?_updateKey, Option.map_map]
    congr 1
    funext s
    simp only [Function.comp_apply, hfail, true_and, apply_ite Server.status]

theorem undraining_update (hu : ∀ id, u ≠ .setDrained id) : ServerOp.Undraining _ (.update u) := by
  intro as w id h
  rw [serverStatus_update, Option.map_eq_some_iff] at h
  obtain ⟨s, hs, hst⟩ := h
  refine Option.map_eq_some_iff.mpr ⟨s, hs, ?_⟩
  split at hst
  · cases u with
    | setDrained id => exact absurd rfl (hu id)
    | setDraining | setActive => cases hst
    | heartbeat =>
      dsimp only [ServerUpdate.change] at hst
      split at hst
      · exact hst
      · cases hst
  · exact hst

theorem requestedServer_undraining {id : Option Id} :
    Uses ServerOp.Undraining (requestedServer id) := by
  unfold requestedServer
  split
  · exact .throw
  · exact .wrap (.ofCall fun _ _ _ h => h)

theorem postServerDrain_undraining {id : Option Id} :
    Uses ServerOp.Undraining (postServerDrain id) := by
  refine .bind requestedServer_undraining fun srv => ?_
  split
  · exact .bind .throw fun _ => context_uses (.ofCall (undraining_update nofun))
  · exact context_uses (.ofCall (undraining_update nofun))

theorem postServerActivate_undraining {id : Option Id} :
    Uses ServerOp.Undraining (postServerActivate id) := by
  refine .bind requestedServer_undraining fun srv => ?_
  split
  · exact .bind .throw fun _ => context_uses (.ofCall (undraining_update nofun))
  · exact context_uses (.ofCall (undraining_update nofun))

/-- A server is drained by a pass that has found it draining and empty. -/
def serverSight : Typestate ServerOp (List ServerFact) where
  start := []
  allows m op := match op with
    | .update (.setDrained id) => .status id .draining ∈ m ∧ .instances id 0 ∈ m ∧ .migrations id 0 ∈ m
    | op => op.Undraining
  possible _ _ _ := True
  next m op v := match op, v with
    | .op (.op (.db (.query (.serverFindByID id)))), .ok srv => .status id srv.status :: m
    | .query (.deploymentInstanceCountByServerID id), .ok n => .instances id n :: m
    | .query (.instanceMigrationCountActiveByServerID id), .ok n => .migrations id n :: m
    | _, _ => m

section programs
variable {m : List ServerFact}

theorem ServerOp.Undraining.allows {op : ServerOp β} (h : op.Undraining) (m : List ServerFact) :
    serverSight.allows m op := by
  unfold serverSight
  dsimp only
  split
  · next id =>
    -- the statement drains a server that is active
    have hactive := h [] { servers := ⟨[{ id }], by simp⟩ } id (by
      simp [serverStatus_update, Table.find?, ServerUpdate.target, ServerUpdate.applies,
        ServerUpdate.change])
    simp [World.serverStatus, Table.find?] at hactive
  · exact h

theorem reading_follows {text : String} :
    serverSight.Follows (context text (serverQuery q))
      (Yields (fun v m' => m' = serverSight.next m (.query q) (.ok v)) fun _ => True) m :=
  .wrap_yields (.ofCall_yields (fun _ _ _ h => h) (fun _ _ => rfl) fun _ _ => trivial)

theorem reconcileServer_follows {id : Id} :
    serverSight.Follows (reconcileServer id) (fun _ _ => True) m := by
  refine .yields_andThen (R := fun _ => True)
    (.wrap_yields (.ofCall_yields (fun _ _ _ h => h) (fun _ _ => rfl) fun _ _ => trivial))
    fun srv m₁ h₁ => ?_
  split
  case isFalse => exact .pure trivial
  next hst =>
  refine .yields_andThen reading_follows fun depIDs m₂ h₂ => ?_
  refine .andThen (.forEach (fun _ _ m hm => .ofTotal (fun _ _ _ h => h) fun _ _ => hm)
    rfl) fun _ m₃ h₃ => ?_
  refine .yields_andThen reading_follows fun n m₄ h₄ => ?_
  refine .yields_andThen reading_follows fun migrations m₅ h₅ => ?_
  split
  case isFalse => exact .pure trivial
  next hempty =>
  obtain ⟨rfl, rfl⟩ := hempty
  subst h₅ h₄ h₃ h₂ h₁
  refine .wrapped (.call ⟨?_, ?_, ?_⟩)
  · exact .tail _ (.tail _ (hst ▸ List.mem_cons_self))
  · exact .tail _ List.mem_cons_self
  · exact List.mem_cons_self

theorem ServerProgram.admits (h : ServerProgram p) :
    serverSight.Admits p (fun _ _ => True) serverSight.start := by
  have hother : ∀ {p : Prog ServerOp Unit}, p.Uses ServerOp.Undraining →
      serverSight.Admits p (fun _ _ => True) serverSight.start :=
    fun hp => .of_uses (hp.mono fun _ _ hop m => hop.allows m) _
  cases h with
  | pass id => exact reconcileServer_follows.quietly
  | drain id => exact hother postServerDrain_undraining.quietly
  | activate id => exact hother postServerActivate_undraining.quietly
  | other h => exact hother h

end programs

/-- What a pass has read of a server still holds when it sets the status, unless the statement fails. -/
def SightHolds (log : List (Call ServerOp)) : Prog.Guard ServerOp Answer World := fun _ op as w =>
  match op with
  | .update (.setDrained _) =>
    (as.headD default).fail = true ∨ ∀ f ∈ serverSight.after log, f.Holds w
  | _ => True

instance : Decidable (SightHolds log β op as w) := by
  unfold SightHolds
  split <;> infer_instance

theorem serverSight_keeps : Team.Keeps (ι := Nat) (fun _ => ServerProgram) (fun _ w => w)
    (fun _ => SightHolds) (fun _ => serverSight) (fun _ _ => True) fun _ _ => True where
  starts _ _ h := h.admits
  rest _ := trivial
  call _ _ _ _ _ _ _ _ _ _ _ := ⟨trivial, trivial⟩
  start _ _ _ _ _ := trivial
  crash _ _ _ _ := trivial

/-- **Drained servers.** Let passes over servers interleave with requests that drain and activate them
and with programs that do anything but set a status to `drained`, so that what a pass has read still
holds when it sets the status. In every call of every such run, a server that becomes drained was
draining before the call, without instances and active migrations. -/
theorem drained_when_empty (w : World) (c : Team Nat ServerOp Unit World)
    (hrun : Team.Run (fun _ => ServerProgram) (fun _ w => w) (fun _ => SightHolds) (Team.idle () w) c)
    (i : Nat) (as : List Answer) (hturn : Team.TurnMeets (fun _ => SightHolds) c i as) (id : Id)
    (h : (c.turn i as).state.serverStatus id = some .drained) :
    c.state.serverStatus id = some .drained ∨ c.state.serverStatus id = some .draining ∧
      c.state.instancesOn id = [] ∧ c.state.activeMigrationsOn id = [] := by
  obtain ⟨hfollow, -⟩ := serverSight_keeps.run (serverSight_keeps.follow_idle () w) trivial hrun
  have hi := hfollow i
  unfold Team.TurnMeets at hturn
  unfold Team.turn at h
  cases hp : c.prog i with
  | ret r =>
    rw [hp] at h
    exact .inl h
  | call op k =>
    rw [hp] at h hturn hi
    obtain ⟨hallows, -⟩ := hi
    unfold serverSight at hallows
    dsimp only at hallows hturn h
    split at hallows
    · next id' =>
      rw [serverStatus_update, Option.map_eq_some_iff] at h
      obtain ⟨s, hs, hst⟩ := h
      split at hst
      · next happlies =>
        obtain ⟨hfail, rfl, -⟩ := happlies
        have hread := hturn.resolve_left (by rw [hfail]; exact Bool.false_ne_true)
        refine .inr ⟨hread _ hallows.1, ?_, ?_⟩
        · exact List.eq_nil_of_length_eq_zero (hread _ hallows.2.1)
        · exact List.eq_nil_of_length_eq_zero (hread _ hallows.2.2)
      · exact .inl (Option.map_eq_some_iff.mpr ⟨s, hs, hst⟩)
    · exact .inl (hallows as c.state id h)

def drainingServer : World := { servers := .single { id := 5, status := .draining } }

/-- A pass over the server, and a request to activate it. -/
def drainTeam : Team Nat ServerOp Unit World :=
  ((Team.idle () drainingServer).begin 0 (reconcileServer 5).quietly).begin 1
    (postServerActivate (some 5)).quietly

theorem drainTeam_run :
    Team.Run (fun _ => ServerProgram) (fun _ w => w) G (.idle () drainingServer) drainTeam :=
  (Team.Run.begin 0 _ rfl (.pass 5)).trans (Team.Run.begin 1 _ rfl (.activate (some 5)))

/-- The pass has counted when the server is activated, and sets the active server to `drained`. -/
theorem activation_overwritten : ∃ c, Team.Run (fun _ => ServerProgram) (fun _ w => w)
    (fun _ _ => Prog.unguarded) (Team.idle () drainingServer) c ∧
    c.state.serverStatus 5 = some .active ∧ (c.turn 0 []).state.serverStatus 5 = some .drained := by
  refine ⟨drainTeam.turns [(0, []), (0, []), (0, []), (0, []), (1, []), (1, [])],
    drainTeam_run.trans (Team.Run.turns (Team.turnsMeet_unguarded _ _)), ?_, ?_⟩ <;> decide +kernel

/-- Without the activation the server is drained when it is empty. -/
theorem empty_server_drained : ∃ c, Team.Run (fun _ => ServerProgram) (fun _ w => w)
    (fun _ => SightHolds) (Team.idle () drainingServer) c ∧
    (c.turn 0 []).state.serverStatus 5 = some .drained ∧ c.state.instancesOn 5 = [] := by
  have hrun : Team.Run (fun _ => ServerProgram) (fun _ w => w) (fun _ => SightHolds)
      (Team.idle () drainingServer) (drainTeam.turns [(0, []), (0, []), (0, []), (0, [])]) :=
    drainTeam_run.trans (Team.Run.turns (by decide +kernel))
  have hdrained : ((drainTeam.turns [(0, []), (0, []), (0, []), (0, [])]).turn 0
      []).state.serverStatus 5 = some .drained := by decide +kernel
  refine ⟨_, hrun, hdrained, ?_⟩
  rcases drained_when_empty _ _ hrun 0 [] (by decide +kernel) 5 hdrained with h | h
  · exact absurd h (by decide +kernel)
  · exact h.2.1

end Kindling
