import Kindling.Network.Allocation

/-!
# Service endpoints and their addresses

The statements that create and delete services and service endpoints. The parts of one statement all
see the tables as they were before it; a statement that violates a constraint changes nothing.
-/

namespace Kindling

structure AddressedEndpoint extends ServiceEndpoint where
  targetPort : Int := 3000
  privateIp : Inet
  deriving DecidableEq, Repr

structure EndpointDB where
  projects : Table Id Project (·.id) := .empty
  services : Table Id Service (·.id) := .empty
  endpoints : Table Id AddressedEndpoint (·.id) := .empty
  orgNetworks : Table Id OrgNetwork (·.organizationId) := .empty

namespace EndpointDB

def orgOf (db : EndpointDB) (service : Id) : Option Id :=
  (db.services.find? service).bind fun s => (db.projects.find? s.projectId).map (·.orgId)

def endpointsOf (db : EndpointDB) (org : Id) : List AddressedEndpoint :=
  db.endpoints.rows.filter fun e => db.orgOf e.serviceId == some org

end EndpointDB

/-- `host(network(cidr))::INET` -/
def Cidr.host (c : Cidr) : Inet := { c.toInet with bits := 32, bits_le := le_rfl }

/-- `inet + bigint`, or the error. -/
def Inet.plus (a : Inet) (n : Nat) : Except Err Inet :=
  match a.add n with
  | some b => .ok b
  | none => .error (.of .outOfRange)

/-- `(COALESCE(MAX(se.private_ip), (host(network(n.cidr))::INET + 9)::INET) + 1)::INET` -/
def nextPrivateIp (db : EndpointDB) (org : Id) (cidr : Cidr) : Except Err Inet := do
  let last ← match Inet.max? ((db.endpointsOf org).map (·.privateIp)) with
    | some m => .ok m
    | none => cidr.host.plus 9
  last.plus 1

/-- The constraints on `service_endpoints`, but for the keys to other tables. -/
def insertEndpoint (e : AddressedEndpoint) (db : EndpointDB) : Except Err EndpointDB :=
  if e.targetPort ≤ 0 ∨ 65535 < e.targetPort then
    .error (.of (.message "new row violates check constraint"))
  else if db.endpoints.rows.any fun x =>
      x.privateIp == e.privateIp || (x.serviceId == e.serviceId && x.name == e.name) then
    .error (.of .uniqueViolation)
  else
    match db.endpoints.insert? e with
    | some endpoints => .ok { db with endpoints }
    | none => .error (.of .uniqueViolation)

/-- `UNIQUE (project_id, slug)` and one primary service for each project. -/
def EndpointDB.serviceTaken (db : EndpointDB) (s : Service) : Bool := db.services.rows.any fun x =>
    x.projectId == s.projectId && (x.slug == s.slug || (x.isPrimary && s.isPrimary))

def insertService (s : Service) (db : EndpointDB) : Except Err EndpointDB :=
  if db.serviceTaken s then .error (.of .uniqueViolation)
  else
    match db.services.insert? s with
    | some services => .ok { db with services }
    | none => .error (.of .uniqueViolation)

/-- The service is inserted with an endpoint, if the organization has a network. `endpointId` is the
value of `gen_random_uuid()`. -/
def serviceCreate (s : Service) (publicDefault : Bool) (endpointId : Id) (now : Time)
    (db : EndpointDB) : Except Err EndpointDB :=
  match db.projects.find? s.projectId with
  | none => .error (.of (.message "insert violates foreign key constraint"))
  | some p => do
    let db' ← insertService s db
    match db.orgNetworks.find? p.orgId with
    | none => .ok db'
    | some n =>
      let privateIp ← nextPrivateIp db p.orgId n.cidr
      insertEndpoint
        { id := endpointId, serviceId := s.id, name := "web", createdAt := now, privateIp
          visibility := if publicDefault then .publicOpen else .privateOnly } db'

/-- No row is inserted for a service that does not exist, or without a network. -/
def serviceEndpointCreate (service id : Id) (name : String) (protocol : Protocol) (targetPort : Int)
    (visibility : Visibility) (now : Time) (db : EndpointDB) : Except Err EndpointDB :=
  match db.orgOf service with
  | none => .error (.of .noRows)
  | some org =>
    match db.orgNetworks.find? org with
    | none => .error (.of .noRows)
    | some n => do
      let privateIp ← nextPrivateIp db org n.cidr
      insertEndpoint { id, serviceId := service, name, protocol, targetPort, visibility
                       createdAt := now, privateIp } db

def serviceEndpointDeleteByIDAndServiceID (id service : Id) (db : EndpointDB) : EndpointDB :=
  { db with endpoints := db.endpoints.keep fun e => !(e.id == id && e.serviceId == service) }

/-- The project with its primary service. The endpoint that the statement would insert is joined with
`projects`, which does not have the project yet, so there is none. -/
def projectCreate (project : Project) (serviceId : Id) (db : EndpointDB) : Except Err EndpointDB :=
  match db.projects.insert? project with
  | none => .error (.of .uniqueViolation)
  | some projects => insertService
      { id := serviceId, projectId := project.id, slug := "app", isPrimary := true
        rootDirectory := project.rootDirectory, dockerfilePath := project.dockerfilePath
        desiredInstanceCount := project.desiredInstanceCount } { db with projects }

/-- The services of the project and their endpoints are deleted with it. -/
def projectDeleteByIDAndOrg (id org : Id) (db : EndpointDB) : EndpointDB :=
  if (db.projects.find? id).any (·.orgId == org) then
    { db with
      projects := db.projects.keep (·.id != id)
      services := db.services.keep (·.projectId != id)
      endpoints := db.endpoints.keep fun e =>
        (db.services.find? e.serviceId).all (·.projectId != id) }
  else db

inductive EndpointEvent
  | serviceCreate (s : Service) (publicDefault : Bool) (endpointId : Id) (now : Time)
  | serviceEndpointCreate (service id : Id) (name : String) (protocol : Protocol)
      (targetPort : Int) (visibility : Visibility) (now : Time)
  | serviceEndpointDelete (id service : Id)
  | projectCreate (project : Project) (serviceId : Id)
  | projectDelete (id org : Id)

def EndpointEvent.next (db : EndpointDB) : EndpointEvent → EndpointDB
  | serviceCreate s publicDefault endpointId now =>
    (Kindling.serviceCreate s publicDefault endpointId now db).toOption.getD db
  | serviceEndpointCreate service id name protocol targetPort visibility now =>
    (Kindling.serviceEndpointCreate service id name protocol targetPort visibility now db).toOption.getD
      db
  | serviceEndpointDelete id service => serviceEndpointDeleteByIDAndServiceID id service db
  | projectCreate project serviceId => (Kindling.projectCreate project serviceId db).toOption.getD db
  | projectDelete id org => projectDeleteByIDAndOrg id org db

end Kindling
