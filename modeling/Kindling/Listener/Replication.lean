import Kindling.Database.Statements

/-!
# The listener of the replication stream

`internal/listener`: the changes of the tables that drive reconciliation arrive as messages of
logical replication (`pgoutput`, version 2, with the streaming of transactions in progress), and each
insert and each update calls the handler of its table with the identifier of the row. Messages are
modelled as decoded; what the decoder makes of a message whose layout it mistakes is a parameter.
-/

namespace Kindling

abbrev Xid := Nat

structure WalRelation where
  relationId : Nat
  relationName : String
  columns : List String
  deriving DecidableEq, Repr

/-- The columns of a row as texts; a column without data is null or unchanged. -/
abbrev TupleData := List (Option String)

/-- The messages of `pgoutput`. Those that describe data have the identifier of their (sub)transaction
when they are sent in a chunk of a transaction in progress, and only then. -/
inductive WalMessage
  | relation (xid : Option Xid) (rel : WalRelation)
  | insert (xid : Option Xid) (relationId : Nat) (tuple : Option TupleData)
  | update (xid : Option Xid) (relationId : Nat) (newTuple : Option TupleData)
  | delete (xid : Option Xid) (relationId : Nat)
  | truncate (xid : Option Xid)
  | typeMessage (xid : Option Xid)
  | logicalMessage (xid : Option Xid)
  | origin
  | begin (xid : Xid)
  | commit
  | streamStart (xid : Xid)
  | streamStop
  | streamCommit (xid : Xid)
  | streamAbort (xid subXid : Xid)
  deriving DecidableEq, Repr

/-- The layout of the message is the one inside a chunk, or the one outside. -/
def WalMessage.laidOut (inStream : Bool) : WalMessage → Bool
  | relation xid _ | insert xid _ _ | update xid _ _ | delete xid _ | truncate xid
  | typeMessage xid | logicalMessage xid => xid.isSome == inStream
  | origin | begin _ | commit | streamStart _ | streamStop | streamCommit _ | streamAbort _ _ => true

/-- What is received: `CopyData` with a keep-alive or with data of the log. -/
inductive CopyData
  | keepalive (serverWALEnd : Nat)
  | xlogData (walStart : Nat) (walData : WalMessage)
  | other
  deriving DecidableEq, Repr

/-- Functions that come from outside. -/
structure WalTools where
  /-- `uuid.Parse` -/
  parseUUID : String → Except Err Id
  /-- What the decoder makes of a message with the other layout. -/
  misread : Bool → WalMessage → Except Err WalMessage

def parseV2 (tools : WalTools) (data : WalMessage) (inStream : Bool) : Except Err WalMessage :=
  if data.laidOut inStream then .ok data else tools.misread inStream data

inductive WatchedTable
  | deployments | deploymentInstances | projects | builds | ciJobs | vms | domains | servers
  | instanceMigrations | projectVolumeOperations
  deriving DecidableEq, Repr

/-- The tables of the publication have no handler of their own otherwise (`preview_environments`). -/
def WatchedTable.ofName : String → Option WatchedTable
  | "deployments" => some deployments
  | "deployment_instances" => some deploymentInstances
  | "projects" => some projects
  | "builds" => some builds
  | "ci_jobs" => some ciJobs
  | "vms" => some vms
  | "domains" => some domains
  | "servers" => some servers
  | "instance_migrations" => some instanceMigrations
  | "project_volume_operations" => some projectVolumeOperations
  | _ => none

/-- Which of the handlers of the configuration are set. -/
structure ListenerConfig where
  handles : WatchedTable → Bool

abbrev HandlerCall := WatchedTable × Id

structure Listener where
  relations : Nat → Option WalRelation := fun _ => none
  inStream : Bool := false
  clientLSN : Nat := 0

/-- The identifier in the column that is named `id`. -/
def extractID (tools : WalTools) (tuple : TupleData) (rel : WalRelation) : Except Err Id :=
  match rel.columns.findIdx? (· == "id") with
  | none => .error (.of (.message ("relation \"" ++ rel.relationName ++ "\" has no id column")))
  | some idColIdx =>
    match tuple[idColIdx]? with
    | none => .error (.of (.message
        ("tuple has fewer columns than relation \"" ++ rel.relationName ++ "\"")))
    | some none => .error (.of (.message "id column is null"))
    | some (some data) => tools.parseUUID data

/-- The calls of a changed row. A table without a handler is ignored. -/
def Listener.dispatch (tools : WalTools) (cfg : ListenerConfig) (l : Listener) (relationID : Nat)
    (tuple : Option TupleData) : Except Err (List HandlerCall) :=
  match l.relations relationID, tuple with
  | none, _ => .error (.of (.message ("unknown relation " ++ toString relationID)))
  | some _, none => .ok []
  | some rel, some tuple =>
    match extractID tools tuple rel with
    | .error e => .error (e.wrap ("extract ID from " ++ rel.relationName))
    | .ok id => .ok ((((WatchedTable.ofName rel.relationName).filter cfg.handles).map (·, id)).toList)

def Listener.processWALData (tools : WalTools) (cfg : ListenerConfig) (l : Listener)
    (data : WalMessage) : Except Err (List HandlerCall) × Listener :=
  match parseV2 tools data l.inStream with
  | .error e => (.error (e.wrap "parse logical message"), l)
  | .ok msg =>
    match msg with
    | .relation _ rel =>
      (.ok [], { l with relations := Function.update l.relations rel.relationId (some rel) })
    | .insert _ relationID tuple => (l.dispatch tools cfg relationID tuple, l)
    | .update _ relationID newTuple => (l.dispatch tools cfg relationID newTuple, l)
    | .streamStart _ => (.ok [], { l with inStream := true })
    | .streamStop => (.ok [], { l with inStream := false })
    | .streamCommit _ => (.ok [], l)
    | .begin _ | .commit | .delete _ _ => (.ok [], l)
    | .truncate _ | .typeMessage _ | .logicalMessage _ | .origin | .streamAbort _ _ => (.ok [], l)

def Listener.processCopyData (tools : WalTools) (cfg : ListenerConfig) (l : Listener) :
    CopyData → Except Err (List HandlerCall) × Listener
  | .keepalive serverWALEnd =>
    (.ok [], { l with clientLSN := if serverWALEnd > l.clientLSN then serverWALEnd else l.clientLSN })
  | .xlogData walStart walData =>
    match l.processWALData tools cfg walData with
    | (.error e, l) => (.error (e.wrap "process WAL data"), l)
    | (.ok calls, l) =>
      (.ok calls, { l with clientLSN := if walStart > l.clientLSN then walStart else l.clientLSN })
  | .other => (.ok [], l)

/-- One round of the loop. An error is logged, and the loop goes on. -/
def Listener.next (tools : WalTools) (cfg : ListenerConfig) (l : Listener) (msg : CopyData) : Listener :=
  (l.processCopyData tools cfg msg).2

def Listener.callsOf (tools : WalTools) (cfg : ListenerConfig) (l : Listener) (msg : CopyData) :
    List HandlerCall :=
  match (l.processCopyData tools cfg msg).1 with
  | .error _ => []
  | .ok calls => calls

def Listener.after (tools : WalTools) (cfg : ListenerConfig) (l : Listener) (ms : List CopyData) :
    Listener :=
  ms.foldl (·.next tools cfg) l

/-- The calls that a part of the stream causes, in their order. -/
def Listener.calls (tools : WalTools) (cfg : ListenerConfig) (l : Listener) :
    List CopyData → List HandlerCall
  | [] => []
  | m :: ms => l.callsOf tools cfg m ++ (l.next tools cfg m).calls tools cfg ms

end Kindling
