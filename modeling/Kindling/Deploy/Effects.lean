import Kindling.Lib.Fallible
import Kindling.Database.Statements
import Kindling.Deploy.Lifecycle

/-!
# What the reconcilers can do

The operations of a reconciler: statements against the database (on their own or in a
transaction), calls to the runtime of the server it runs on, health probes, the clock, fresh
identifiers, and requests to the schedulers. Every call may fail, as the environment's answer
says; a statement that fails changes nothing.
-/

namespace Kindling

inductive Stmt : Type → Type 1
  | query {β : Type} (q : Query β) : Stmt (Except Err β)
  | deployments {β : Type} (s : DeploymentStmt β) : Stmt (Except Err β)
  | instances {β : Type} (s : InstanceStmt β) : Stmt (Except Err β)
  | vms {β : Type} (s : VmStmt β) : Stmt (Except Err β)
  | volumes {β : Type} (s : VolumeStmt β) : Stmt (Except Err β)
  | domains {β : Type} (s : DomainStmt β) : Stmt (Except Err β)
  | builds {β : Type} (s : BuildStmt β) : Stmt (Except Err β)
  | servers {β : Type} (s : ServerStmt β) : Stmt (Except Err β)
  | migrations {β : Type} (s : MigrationStmt β) : Stmt (Except Err β)
  | newUUID : Stmt Id

/-- A statement against one table: the answer may make it fail, and then it changes nothing. -/
def onTable (a : Answer) (exec : τ → Except Err β × τ) (get : World → τ) (set : τ → World → World)
    (w : World) : Except Err β × World :=
  if a.fail then (.error (.of .unavailable), w)
  else ((exec (get w)).1, set (exec (get w)).2 w)

def Stmt.step : Stmt β → Answer → World → β × World
  | query q, a, w => (if a.fail then .error (.of .unavailable) else q.eval a.now w, w)
  | deployments s, a, w => onTable a (s.exec a.now) World.deployments World.withDeployments w
  | instances s, a, w => onTable a (s.exec a.now) World.instances World.withInstances w
  | vms s, a, w => onTable a (s.exec a.now) World.vms World.withVms w
  | volumes s, a, w => onTable a s.exec World.volumes World.withVolumes w
  | domains s, a, w => onTable a (s.exec a.now) World.domains World.withDomains w
  | builds s, a, w => onTable a s.exec World.builds World.withBuilds w
  | servers s, a, w => onTable a s.exec World.servers World.withServers w
  | migrations s, a, w => onTable a s.exec World.migrations World.withMigrations w
  | newUUID, a, w => (a.uuids 0, w)

instance : Atomic Stmt Answer World where
  step := Stmt.step

/-- An address published by a runtime, `none` when it does not parse. -/
abbrev Address := Option (Nat × Nat)

structure PersistentVolumeMount where
  id : Id
  createIfMissing : Bool := false
  deriving DecidableEq, Repr

structure RuntimeInstance where
  id : Id
  imageRef : String
  env : List String
  persistentVolume : Option PersistentVolumeMount

structure InstanceVMMetadata where
  runtime : RuntimeName
  snapshotRef : String := ""
  sharedRootfsRef : String := ""
  cloneSourceVmId : Option Id := none
  deriving DecidableEq, Repr

structure StartMetadata where
  snapshotRef : String := ""
  sharedRootfsRef : String := ""
  cloneSourceVmId : Option Id := none
  deriving DecidableEq, Repr

inductive RuntimeCall : Type → Type
  | start (inst : RuntimeInstance) : RuntimeCall (Except Err Address)
  | startClone (inst : RuntimeInstance) (templateRef : String) (source : Option Id) :
      RuntimeCall (Except Err (Address × StartMetadata))
  | resume (id : Id) : RuntimeCall (Except Err Address)
  | suspend (id : Id) : RuntimeCall (Except Err Unit)
  | createTemplate (id : Id) : RuntimeCall (Except Err String)
  | stop (id : Id) : RuntimeCall (Except Err Unit)
  | healthy (id : Id) : RuntimeCall Bool
  | migrationMetadata (id : Id) : RuntimeCall (Except Err String)
  | finalizeMigrationTarget (id : Id) : RuntimeCall (Except Err (Address × String))

def Guest.is (server inst : Id) (g : Guest) : Bool := g.server == server && g.inst == inst

def World.startGuest (w : World) (g : Guest) : World :=
  { w with running := g :: w.running.filter fun x => !x.is g.server g.inst }

def World.stopGuest (w : World) (server inst : Id) : World := { w with
    running := w.running.filter fun x => !x.is server inst
    suspended := w.suspended.filter fun x => !x.is server inst }

/-- The runtime of a server stops an instance and retains its state. -/
def World.suspendGuest (w : World) (g : Guest) : World := { w with
    running := w.running.filter fun x => !x.is g.server g.inst
    suspended := g :: w.suspended.filter fun x => !x.is g.server g.inst }

/-- How a failed call reports itself. -/
def Answer.runtimeErr (a : Answer) : Err :=
  .of (if a.notRunning then .instanceNotRunning else .runtime)

def RuntimeCall.step (server : Id) : RuntimeCall β → Answer → World → β × World
  | start i, a, w =>
    if a.fail then (.error (.of .runtime), w)
    else (.ok a.address, w.startGuest ⟨server, i.id, i.persistentVolume.map (·.id)⟩)
  | startClone i ref src, a, w =>
    if a.fail then (.error a.runtimeErr, w)
    else (.ok (a.address, ⟨ref, a.text, src⟩),
      w.startGuest ⟨server, i.id, i.persistentVolume.map (·.id)⟩)
  | resume id, a, w =>
    if a.fail then (.error a.runtimeErr, w)
    else match w.suspended.find? (·.is server id) with
      | none => (.error (.of .instanceNotRunning), w)
      | some g => (.ok a.address,
        { w.startGuest g with suspended := w.suspended.filter fun x => !x.is server id })
  | suspend id, a, w =>
    if a.fail then (.error (.of .runtime), w)
    else match w.running.find? (·.is server id) with
      | none => (.ok (), w)
      | some g => (.ok (), w.suspendGuest g)
  | createTemplate _, a, w => (if a.fail then .error (.of .runtime) else .ok a.text, w)
  | stop id, a, w => if a.fail then (.error (.of .runtime), w) else (.ok (), w.stopGuest server id)
  | healthy _, a, w => (a.ok, w)
  | migrationMetadata _, a, w => (if a.fail then .error (.of .runtime) else .ok a.text, w)
  | finalizeMigrationTarget id, a, w =>
    if a.fail then (.error (.of .runtime), w)
    else (.ok (a.address, a.text), w.startGuest ⟨server, id, none⟩)

/-- How a transaction ended. -/
inductive TxOutcome (β : Type)
  | committed (v : β)
  | rolledBack (e : Err)
  | commitFailed (e : Err)

def TxOutcome.result : TxOutcome β → Except Err β
  | committed v => .ok v
  | rolledBack e => .error e
  | commitFailed e => .error e

inductive Op : Type → Type 1
  | db {β : Type} (s : Stmt β) : Op β
  /-- A transaction: the statements take effect together, when the body returns a value and the
  commit succeeds. -/
  | tx {β : Type} (p : Prog Stmt (Except Err β)) : Op (TxOutcome β)
  | runtime {β : Type} (server : Id) (c : RuntimeCall β) : Op β
  /-- An HTTP probe of a workload. -/
  | healthCheck : Op Bool
  | now : Op Time
  | scheduleRetry (deployment : Id) (delay : Time) : Op Unit
  | scheduleServer (server : Id) : Op Unit

def Op.exec : Op β → List Answer → World → Outcome β World Answer
  | db s, as, w => Effect.exec s as w
  | tx p, as, w =>
    let o := p.run as w
    match o.value with
    | .error e => ⟨.rolledBack e, w, o.rest⟩
    | .ok v =>
      if (o.rest.headD default).fail then ⟨.commitFailed (.of .unavailable), w, o.rest.tail⟩
      else ⟨.committed v, o.state, o.rest.tail⟩
  | runtime server c, as, w =>
    let r := c.step server (as.headD default) w
    ⟨r.1, r.2, as.tail⟩
  | healthCheck, as, w => ⟨(as.headD default).ok, w, as.tail⟩
  | now, as, w => ⟨(as.headD default).now, w, as.tail⟩
  | scheduleRetry id delay, as, w => ⟨(), { w with retries := (id, delay) :: w.retries }, as⟩
  | scheduleServer id, as, w => ⟨(), { w with serverWakeups := id :: w.serverWakeups }, as⟩

instance : Effect Op Answer World where
  exec := Op.exec

/-- Signatures with the reads of the database. -/
class Reads (E : Type → Type 1) where
  read {β : Type} (q : Query β) : E (Except Err β)

/-- Signatures with the statements that change project volumes. -/
class WritesVolumes (E : Type → Type 1) where
  volumes {β : Type} (s : VolumeStmt β) : E (Except Err β)

instance : Reads Stmt := ⟨.query⟩
instance : Reads Op := ⟨fun q => .db (.query q)⟩
instance : WritesVolumes Op := ⟨fun s => .db (.volumes s)⟩

abbrev Go (E : Type → Type 1) := Fallible Err E

section calls
variable {E : Type → Type 1} {β : Type}

def query [Reads E] (q : Query β) : Go E β := .ofCall (Reads.read q)

def volumeStmt [WritesVolumes E] (s : VolumeStmt β) : Go E β := .ofCall (WritesVolumes.volumes s)

/-- `fmt.Errorf("context: %w", err)` around the error of a call. -/
def context (s : String) (p : Go E β) : Go E β := Fallible.wrap (Err.wrap s) p

/-- Run a call and ignore its result. -/
def discard (p : Go E β) : Go E Unit := do
  let _ ← Fallible.attempt p

end calls

theorem context_uses {E : Type → Type 1} {P : (β : Type) → E β → Prop} {c : String}
    {p : Go E β} (h : Fallible.Uses P p) : Fallible.Uses P (context c p) := .wrap h

theorem discard_uses {E : Type → Type 1} {P : (β : Type) → E β → Prop} {p : Go E β}
    (h : Fallible.Uses P p) : Fallible.Uses P (discard p) := .bind (.attempt h) fun _ => .pure

/-- What a deployer can ask of its runtime. -/
structure RuntimeInfo where
  name : RuntimeName := .crun
  suspendResume : Bool := false
  warmClone : Bool := false
  liveMigration : Bool := false
  deriving DecidableEq, Repr

/-- `Deployer`. The two loops without a bound of their own are given `loopBound` iterations. -/
structure Deployer where
  serverId : Id
  pool : Bool := true
  rt : Option RuntimeInfo := some {}
  secretDecoder : Option (String → Except String String) := none
  loopBound : Nat := 100

/-- `d.rt.Name()`; reached only when a runtime is configured. -/
def Deployer.rtName (d : Deployer) : RuntimeName := (d.rt.map (·.name)).getD .crun

end Kindling
