import Kindling.Database.Rows
import Kindling.Lib.Machine

/-!
# The route table of the edge proxy

`loadRoutes` and `refreshLoop` of `internal/edgeproxy/edgeproxy.go`. A load reads the active routes in
one step and installs the table built from them in a later one; only the installation holds the lock.
Loads are run by the refresh loop itself, at a tick, and by the goroutine of the timer that a change
notification arms.
-/

namespace Kindling.EdgeProxy

structure RouteFindActiveRow where
  domainName : String
  projectId : Option Id
  deploymentId : Option Id
  redirectTo : Option String
  redirectStatusCode : Option Int
  deploymentKind : String
  /-- `none` also for an address that is not valid. -/
  vmIp : Option String
  vmPort : Option Int
  serverId : Option Id
  vmId : Option Id

structure Backend where
  ip : String
  port : Int

structure Route where
  projectId : Option Id
  deploymentId : Option Id
  deploymentKind : String
  backends : List Backend := []
  redirectTo : String := ""
  redirectStatusCode : Int := 0

abbrev Routes := String → Option Route

/-- The maps that `loadRoutes` fills, each by domain. -/
structure RouteMaps where
  redirects : Routes := fun _ => none
  proxySeen : String → List Id := fun _ => []
  proxyBackends : String → List Backend := fun _ => []
  proxyProjectId : String → Option Id := fun _ => none
  proxyDeploymentId : String → Option Id := fun _ => none
  proxyDeploymentKind : String → String := fun _ => ""

namespace RouteMaps
open Function (update)

def addBackend (self : Option Id) (row : RouteFindActiveRow) (vmIp : String) (m : RouteMaps) :
    RouteMaps :=
  let d := row.domainName
  -- a VM of this server is reached over the loopback address
  let ip := if row.serverId.isSome && row.serverId == self then "127.0.0.1" else vmIp
  { m with
    proxyBackends := update m.proxyBackends d (m.proxyBackends d ++ [⟨ip, row.vmPort.getD 0⟩])
    proxyProjectId := update m.proxyProjectId d row.projectId
    proxyDeploymentId := update m.proxyDeploymentId d row.deploymentId
    proxyDeploymentKind :=
      if row.deploymentKind != "" then update m.proxyDeploymentKind d row.deploymentKind
      else m.proxyDeploymentKind }

def addRow (self : Option Id) (m : RouteMaps) (row : RouteFindActiveRow) : RouteMaps :=
  let d := row.domainName
  match row.redirectTo, row.vmIp, row.vmId with
  | some target, _, _ =>
    { m with redirects := update m.redirects d (some {
        projectId := row.projectId, deploymentId := row.deploymentId
        deploymentKind := row.deploymentKind, redirectTo := target
        redirectStatusCode := row.redirectStatusCode.getD 0 }) }
  | none, none, _ => m
  | none, some ip, none => m.addBackend self row ip
  | none, some ip, some vm =>
    if vm ∈ m.proxySeen d then m
    else addBackend self row ip { m with proxySeen := update m.proxySeen d (vm :: m.proxySeen d) }

/-- A domain with a redirect is redirected whatever backends it has. -/
def newRoutes (m : RouteMaps) : Routes := fun d =>
  m.redirects d <|> if m.proxyBackends d = [] then none else some {
    projectId := m.proxyProjectId d, deploymentId := m.proxyDeploymentId d
    deploymentKind := m.proxyDeploymentKind d, backends := m.proxyBackends d }

end RouteMaps

def buildRoutes (self : Option Id) (rows : List RouteFindActiveRow) : Routes :=
  (rows.foldl (RouteMaps.addRow self) {}).newRoutes

inductive Starter
  | timer
  | ticker
  deriving DecidableEq

/-- A load that runs, with the table it has built and the database state that it read for it. -/
structure Load where
  starter : Starter
  table : Option (Nat × Routes) := none

inductive Loop
  | selecting
  | loading
  | returned
  deriving DecidableEq

structure Service where
  serverId : Option Id
  /-- The state of the database: how many changes have been committed. -/
  changes : Nat := 0
  /-- What the query for the active routes finds in that state. -/
  active : List RouteFindActiveRow
  routes : Routes
  /-- The timer of the loop is armed. -/
  timer : Bool := false
  loop : Loop := .selecting
  loads : List Load := []

/-- `Start` runs a first load before the loop; `ok` says whether it could read the routes. -/
def Service.start (serverId : Option Id) (rows : List RouteFindActiveRow) (ok : Bool) : Service :=
  { serverId, active := rows, routes := if ok then buildRoutes serverId rows else fun _ => none }

inductive Event
  | change (rows : List RouteFindActiveRow)
  /-- The loop receives a notification; the timer of an earlier one is stopped. -/
  | notify
  | fire
  | tick
  | done
  | read (i : Nat) (ok : Bool)
  | install (i : Nat)

namespace Service

def startLoad (s : Service) (starter : Starter) : Service :=
  { s with loads := s.loads ++ [⟨starter, none⟩] }

/-- The load returns, and with the one of a tick the loop goes on. -/
def endLoad (s : Service) (i : Nat) (starter : Starter) : Service := { s with
    loads := s.loads.eraseIdx i
    loop := if starter = .ticker then .selecting else s.loop }

def step (s : Service) : Event → Option Service
  | .change rows => some { s with changes := s.changes + 1, active := rows }
  | .notify => if s.loop = .selecting then some { s with timer := true } else none
  | .fire => if s.timer then some { s.startLoad .timer with timer := false } else none
  | .tick => if s.loop = .selecting then some { s.startLoad .ticker with loop := .loading } else none
  | .done => if s.loop = .selecting then some { s with timer := false, loop := .returned } else none
  | .read i ok =>
    match s.loads[i]? with
    | some ⟨starter, none⟩ =>
      if ok then
        let table := (s.changes, buildRoutes s.serverId s.active)
        some { s with loads := s.loads.set i ⟨starter, some table⟩ }
      else some (s.endLoad i starter)
    | _ => none
  | .install i =>
    match s.loads[i]? with
    | some ⟨starter, some (_, newRoutes)⟩ => some { s.endLoad i starter with routes := newRoutes }
    | _ => none

/-- The database state that the table was read from which the event installs. -/
def installing (s : Service) : Event → Option Nat
  | .install i => (s.loads[i]?.bind (·.table)).map (·.1)
  | _ => none

end Service
end Kindling.EdgeProxy
