import Kindling.Auth.Store
import Kindling.Lib.Inet

/-!
# Network blocks of servers and organizations

The registration of servers (`cmd/kindling/server_registration.go`) and the creation of
organizations, each of which takes a network block computed from the blocks that are given out. The
errors of a database that is out of reach are left out.
-/

namespace Kindling

structure RegisteredServer extends Server where
  ipRange : Cidr
  deriving DecidableEq, Repr

structure OrgNetwork where
  organizationId : Id
  cidr : Cidr
  deriving DecidableEq, Repr

structure NetworkDB where
  servers : Table Id RegisteredServer (·.id) := .empty
  organizations : Table Id Organization (·.id) := .empty
  orgNetworks : Table Id OrgNetwork (·.organizationId) := .empty

/-- `10.0.0.0/20` -/
def firstServerRange : Cidr := ⟨⟨10 * 2 ^ 24, 20, by decide, by decide⟩, by decide⟩

/-- `172.19.255.0/24` -/
def baseOrgNetwork : Cidr := ⟨⟨172 * 2 ^ 24 + 19 * 2 ^ 16 + 255 * 2 ^ 8, 24, by decide, by decide⟩, by decide⟩

/-- `(block + 1)::CIDR` -/
def nextBlock (c : Cidr) : Except Err Cidr :=
  match c.add 1 with
  | some a => .ok a.toCidr
  | none => .error (.of .outOfRange)

def serverAllocateIPRange (db : NetworkDB) : Except Err Cidr :=
  match Cidr.max? (db.servers.rows.map (·.ipRange)) with
  | none => .ok firstServerRange
  | some c => nextBlock c

/-- The columns that a conflict on the identifier updates; the range is not among them. -/
def RegisteredServer.refresh (hostname internalIp : String) (now : Time) (s : RegisteredServer) :
    RegisteredServer :=
  { s with
    hostname, internalIp, lastHeartbeatAt := now
    status := if s.status = .draining ∨ s.status = .drained then s.status else .active }

def serverRegister (id : Id) (hostname internalIp : String) (ipRange : Cidr) (now : Time)
    (db : NetworkDB) : Except Err RegisteredServer × NetworkDB :=
  let row : RegisteredServer :=
    { id, hostname, internalIp, ipRange, status := .active, lastHeartbeatAt := now }
  match db.servers.insert? row with
  | some t => (.ok row, { db with servers := t })
  | none =>
    let r := db.servers.updateKey id (fun _ => true) (·.refresh hostname internalIp now) fun _ => rfl
    (one r.1, { db with servers := r.2 })

/-- The block of a new organization. -/
def orgNetworkCidr (db : NetworkDB) : Except Err Cidr :=
  nextBlock ((Cidr.max? (db.orgNetworks.rows.map (·.cidr))).getD baseOrgNetwork)

/-- Identifier and slug are unique. -/
def NetworkDB.orgTaken (db : NetworkDB) (org : Organization) : Bool :=
  db.organizations.rows.any fun o => o.id == org.id || o.slug == org.slug

/-- The statement inserts the organization together with its network, or fails as a whole. -/
def organizationCreate (org : Organization) (db : NetworkDB) :
    Except Err Organization × NetworkDB :=
  if db.orgTaken org then (.error (.of .uniqueViolation), db)
  else match orgNetworkCidr db with
  | .error e => (.error e, db)
  | .ok cidr =>
    if db.orgNetworks.rows.any (·.cidr == cidr) then (.error (.of .uniqueViolation), db)
    else match db.organizations.insert? org, db.orgNetworks.insert? ⟨org.id, cidr⟩ with
    | some organizations, some orgNetworks => (.ok org, { db with organizations, orgNetworks })
    | _, _ => (.error (.of .uniqueViolation), db)

def allocateAndRegisterServer (id : Id) (hostname internalIp : String) (now : Time)
    (db : NetworkDB) : Except Err RegisteredServer × NetworkDB :=
  match serverAllocateIPRange db with
  | .error e => (.error (e.wrap "allocate IP range"), db)
  | .ok ipRange =>
    match serverRegister id hostname internalIp ipRange now db with
    | (.ok server, db') => (.ok server, db')
    | (.error e, _) => (.error (e.wrap "register server"), db)

/-- A registration is refused when there are other servers and the address is of the host itself;
`loopback` is `isLoopbackOrUnspecifiedIP`. -/
def refusesServer (loopback : String → Bool) (id : Id) (internalIp : String) (db : NetworkDB) : Bool :=
  db.servers.rows.any (·.id != id) && loopback internalIp

def registerServer (loopback : String → Bool) (id : Id) (hostname internalIp : String) (now : Time)
    (db : NetworkDB) : Except Err RegisteredServer × NetworkDB :=
  if refusesServer loopback id internalIp db then
    (.error (.of (.message ("multi-server registration requires a non-loopback internal IP; got \"" ++
      internalIp ++ "\""))), db)
  else match db.servers.find? id with
  | some existing =>
    let r := serverRegister id hostname internalIp existing.ipRange now db
    (r.1.mapError (·.wrap "re-register server"), r.2)
  | none =>
    let r := allocateAndRegisterServer id hostname internalIp now db
    (r.1.mapError (·.wrap "allocate and register server"), r.2)

def defaultOrganization : Organization := { id := 1, name := "Default", slug := "default" }

/-- What the migration leaves on an empty database: the default organization, with the block that
follows the base. -/
def migratedDB : NetworkDB where
  organizations := ⟨[defaultOrganization], by decide⟩
  orgNetworks := ⟨[⟨1, ((nextBlock baseOrgNetwork).toOption.getD baseOrgNetwork)⟩], by decide⟩

inductive NetworkEvent
  | registerServer (id : Id) (hostname internalIp : String) (now : Time)
  | organizationCreate (org : Organization)
  deriving DecidableEq, Repr

def NetworkEvent.next (loopback : String → Bool) (db : NetworkDB) : NetworkEvent → NetworkDB
  | registerServer id hostname internalIp now =>
    (Kindling.registerServer loopback id hostname internalIp now db).2
  | organizationCreate org => (Kindling.organizationCreate org db).2

end Kindling
