import Kindling.Migration.Handler

/-!
# Draining servers

`Reconcile` of `internal/serverreconcile`, and the requests of `internal/rpc/servers` that drain and
activate a server; who may make them is left out, and so is the audit log. Instances are placed by the
deployers, and heartbeats also write the status.
-/

namespace Kindling

open Fallible

/-- The updates of one row of `servers`, besides `ServerUpdateStatus`. -/
inductive ServerUpdate
  | setDrained (id : Id)
  | setDraining (id : Id)
  | setActive (id : Id)
  | heartbeat (id : Id)
  deriving DecidableEq

namespace ServerUpdate

def target : ServerUpdate → Id
  | setDrained id | setDraining id | setActive id | heartbeat id => id

def applies : ServerUpdate → Server → Bool
  | setDrained _, _ | heartbeat _, _ => true
  | setDraining _, s => s.status == .active
  | setActive _, s => s.status == .draining || s.status == .drained

def change (now : Time) : ServerUpdate → Server → Server
  | setDrained _, s => { s with status := .drained }
  | setDraining _, s => { s with status := .draining }
  | setActive _, s => { s with status := .active }
  | heartbeat _, s => { s with
      lastHeartbeatAt := now
      status := if s.status == .draining || s.status == .drained then s.status else .active }

theorem change_id (u : ServerUpdate) (s : Server) : (u.change now s).id = s.id := by cases u <;> rfl

def exec (u : ServerUpdate) (now : Time) (t : Table Id Server (·.id)) :
    Except Err Unit × Table Id Server (·.id) :=
  (.ok (), (t.updateKey u.target u.applies (u.change now) u.change_id).2)

end ServerUpdate

namespace World

def instancesOn (w : World) (server : Id) : List DeploymentInstance :=
  w.instances.rows.filter fun i => i.serverId == some server && i.deletedAt.isNone

def activeMigrationsOn (w : World) (server : Id) : List InstanceMigration :=
  w.migrations.rows.filter fun m =>
    m.active && (m.sourceServerId == server || m.destinationServerId == server)

end World

inductive ServerQuery : Type → Type
  | deploymentIDsForInstancesOnServer (id : Id) : ServerQuery (List Id)
  | deploymentInstanceCountByServerID (id : Id) : ServerQuery Nat
  | instanceMigrationCountActiveByServerID (id : Id) : ServerQuery Nat

def ServerQuery.eval (w : World) : ServerQuery β → β
  | deploymentIDsForInstancesOnServer id => ((w.instancesOn id).map (·.deploymentId)).dedup
  | deploymentInstanceCountByServerID id => (w.instancesOn id).length
  | instanceMigrationCountActiveByServerID id => (w.activeMigrationsOn id).length

inductive ServerOp : Type → Type 1
  | op {β : Type} (o : MigrationOp β) : ServerOp β
  | query {β : Type} (q : ServerQuery β) : ServerOp (Except Err β)
  | update (u : ServerUpdate) : ServerOp (Except Err Unit)

def ServerOp.exec : ServerOp β → List Answer → World → Outcome β World Answer
  | op o, as, w => o.exec as w
  | query q, as, w => answering as fun a =>
    (if a.fail then .error (.of .unavailable) else .ok (q.eval w), w)
  | update u, as, w => answering as fun a => onTable a (u.exec a.now) World.servers World.withServers w

instance : Effect ServerOp Answer World where
  exec := ServerOp.exec

instance : Reads ServerOp := ⟨fun q => .op (.op (.db (.query q)))⟩

def serverQuery (q : ServerQuery β) : Go ServerOp β := ofCall (.query q)

def serverUpdate (u : ServerUpdate) : Go ServerOp Unit := ofCall (.update u)

def reconcileServer (serverID : Id) : Go ServerOp Unit := do
  let srv ← context "server find" (query (.serverFindByID serverID))
  if srv.status = .draining then
    let depIDs ← context "deployments on server"
      (serverQuery (.deploymentIDsForInstancesOnServer serverID))
    -- `ScheduleNow`
    forEach depIDs fun did => ofTotal (.op (.op (.scheduleRetry did 0)))
    let n ← context "instance count on server"
      (serverQuery (.deploymentInstanceCountByServerID serverID))
    let migrations ← context "active migrations on server"
      (serverQuery (.instanceMigrationCountActiveByServerID serverID))
    if n = 0 ∧ migrations = 0 then context "server set drained" (serverUpdate (.setDrained serverID))

/-- The server of a request; `none` is an identifier that does not parse. -/
def requestedServer : Option Id → Go ServerOp Server
  | none => throw (apiError "invalid_id" "invalid server id")
  | some id => wrap (fun _ => apiError "not_found" "server not found") (query (.serverFindByID id))

def postServerDrain (id : Option Id) : Go ServerOp Unit := do
  let srv ← requestedServer id
  if srv.status ≠ .active then
    throw (apiError "invalid_state" "only active servers can be drained")
  context "server_drain" (serverUpdate (.setDraining srv.id))

def postServerActivate (id : Option Id) : Go ServerOp Unit := do
  let srv ← requestedServer id
  if srv.status ≠ .draining ∧ srv.status ≠ .drained then
    throw (apiError "invalid_state" "only draining or drained servers can be reactivated")
  context "server_activate" (serverUpdate (.setActive srv.id))

end Kindling
