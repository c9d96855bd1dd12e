import Kindling.Auth.Store

/-!
# The DNS resolver of the workers

`internal/workerdns/resolver.go`: names of the form
`endpoint.service.project.environment.organization.kindling.internal` are answered with the addresses
of the running instances of a service, for callers that are told apart by their source address. The
lookups are queries on one state of the database; where a query leaves open which row it returns, the
environment picks one.
-/

namespace Kindling
open Fallible

/-! ## The tables, and the queries on them -/

structure DnsWorld extends World where
  organizations : Table Id Organization (·.id) := .empty

/-- The functions on characters that depend on the tables of Unicode, and the `LOWER` of the database. -/
structure NameTools where
  toLower : String → String
  sqlLower : String → String
  isLetter : Char → Bool
  isDigit : Char → Bool

structure EndpointCandidate where
  serviceId : Id
  projectId : Id
  organizationId : Id
  projectName : String
  deriving DecidableEq, Repr

inductive DnsQuery : Type → Type
  | vmFindByIPAddress (ip : Nat) : DnsQuery Vm
  | deploymentFindByVMID (vmId : Id) : DnsQuery Deployment
  | projectFirstByID (id : Id) : DnsQuery Project
  | organizationByID (id : Id) : DnsQuery Organization
  | previewEnvironmentByID (id : Id) : DnsQuery PreviewEnvironment
  | serviceEndpointDNSLookupCandidates (tools : NameTools) (endpoint service org : String) :
      DnsQuery (List EndpointCandidate)
  | previewEnvironmentsByProjectAndPRNumber (projectId : Id) (prNumber : Int) :
      DnsQuery (List PreviewEnvironment)
  | deploymentLatestRunningByServiceID (serviceId : Id) : DnsQuery Deployment
  | deploymentLatestRunningPreviewByServiceAndPreviewEnvironmentID (serviceId previewEnvironmentId : Id) :
      DnsQuery Deployment
  | deploymentRunningBackendIPs (deploymentId : Id) : DnsQuery (List Nat)

/-- Whether a query fails, and which of the rows that it may return it returns. -/
structure DnsAnswer where
  fail : Bool := false
  pick : Nat := 0
  deriving Inhabited

/-- The rows that come first in descending order. -/
def latest (ord : ρ → Nat) (rows : List ρ) : List ρ :=
  rows.filter fun r => rows.all fun r' => decide (ord r' ≤ ord r)

namespace DnsWorld

def deploymentsOfVM (db : DnsWorld) (vmId : Id) : List Deployment :=
  (db.instances.rows.filter fun i => i.vmId == some vmId && i.undeleted).filterMap fun i =>
    (db.deployments.find? i.deploymentId).filter (·.deletedAt.isNone)

/-- One row of the join; their order matters only where none of them is used. -/
def candidate (db : DnsWorld) (tools : NameTools) (endpoint service org : String)
    (e : ServiceEndpoint) : Option EndpointCandidate := do
  let s ← db.services.find? e.serviceId
  let p ← db.projects.find? s.projectId
  let o ← db.organizations.find? p.orgId
  if tools.sqlLower e.name == tools.sqlLower endpoint && s.slug == service && o.slug == org then
    some { serviceId := s.id, projectId := p.id, organizationId := o.id, projectName := p.name }
  else none

def runs (serviceId : Id) (d : Deployment) : Bool :=
  d.serviceId == some serviceId && d.runningAt.isSome && d.live

def backendIPs (db : DnsWorld) (deploymentId : Id) : List Nat :=
  ((db.instances.rows.filter fun i => i.deploymentId == deploymentId && i.undeleted &&
      i.role == .active && i.status == .running).filterMap fun i => do
    let vm ← db.vms.find? (← i.vmId)
    if vm.undeleted && vm.status == .running then some vm.ipAddress else none).dedup.insertionSort (· ≤ ·)

end DnsWorld

/-- A row of those that a `:one` query may return. -/
def pickRow (pick : Nat) (rows : List ρ) : Except Err ρ := one rows[pick % rows.length]?

def DnsQuery.eval (pick : Nat) (db : DnsWorld) : DnsQuery β → Except Err β
  | vmFindByIPAddress ip => pickRow pick (latest (·.createdAt)
      (db.vms.rows.filter fun v => v.ipAddress == ip && v.undeleted))
  | deploymentFindByVMID vmId => pickRow pick (db.deploymentsOfVM vmId)
  | projectFirstByID id => one (db.projects.find? id)
  | organizationByID id => one (db.organizations.find? id)
  | previewEnvironmentByID id => one (db.previewEnvironments.find? id)
  | serviceEndpointDNSLookupCandidates tools endpoint service org =>
    .ok (db.endpoints.rows.filterMap (db.candidate tools endpoint service org))
  | previewEnvironmentsByProjectAndPRNumber projectId prNumber =>
    .ok (db.previewEnvironments.rows.filter fun e => e.projectId == projectId && e.prNumber == prNumber)
  | deploymentLatestRunningByServiceID serviceId => pickRow pick (latest (·.runningAt.getD 0)
      (db.deployments.rows.filter fun d => DnsWorld.runs serviceId d && d.kind == .production))
  | deploymentLatestRunningPreviewByServiceAndPreviewEnvironmentID serviceId env =>
    pickRow pick (latest (·.runningAt.getD 0) (db.deployments.rows.filter fun d =>
      DnsWorld.runs serviceId d && d.kind == .preview && d.previewEnvironmentId == some env))
  | deploymentRunningBackendIPs id => .ok (db.backendIPs id)

inductive DnsOp : Type → Type 1
  | query {β : Type} (q : DnsQuery β) : DnsOp (Except Err β)

def DnsOp.step : DnsOp β → DnsAnswer → DnsWorld → β × DnsWorld
  | query q, a, db => (if a.fail then .error (.of .unavailable) else q.eval a.pick db, db)

instance : Atomic DnsOp DnsAnswer DnsWorld where
  step := DnsOp.step

abbrev Dns := Go DnsOp

def dnsQuery (q : DnsQuery β) : Dns β := ofCall (.query q)

/-- A query whose `ErrNoRows` is no error. -/
def ifAny (p : Dns α) : Dns (Option α) := do
  match ← attempt p with
  | .ok a => return some a
  | .error e => if e.isNoRows then return none else throw e

/-- The loop of `netnames.NormalizeLabel` over the characters left, with what it has written. -/
def normalizeChars (tools : NameTools) (written : List Char) (lastHyphen : Bool) : List Char → List Char
  | [] => written
  | c :: cs =>
    if tools.isLetter c || tools.isDigit c then normalizeChars tools (written ++ [c]) false cs
    else if c == '-' || c == '_' || isSpace c then
      if written == [] || lastHyphen then normalizeChars tools written lastHyphen cs
      else normalizeChars tools (written ++ ['-']) true cs
    else normalizeChars tools written lastHyphen cs

/-- `netnames.NormalizeLabel` -/
def normalizeLabel (tools : NameTools) (raw : String) : String :=
  String.ofList (trimChar '-' (normalizeChars tools [] false (trimSpace (tools.toLower raw)).toList))

/-- `dns.IsFqdn`: the name ends in a dot that is not escaped. -/
def isFqdn (s : List Char) : Bool :=
  match s.reverse with
  | '.' :: rest => (rest.takeWhile (· == '\\')).length % 2 == 0
  | _ => false

/-- `dns.Fqdn` -/
def fqdn (s : String) : String := if isFqdn s.toList then s else s ++ "."

structure InternalName where
  endpoint : String := ""
  service : String := ""
  project : String := ""
  environment : String := ""
  organization : String := ""
  deriving DecidableEq, Repr

/-- The labels of an internal name; a malformed one has empty labels. -/
def parseInternalName (tools : NameTools) (qname : String) : Option InternalName :=
  let name := fqdn (trimSpace (tools.toLower qname))
  if hasSuffix name "kindling.internal." then
    match ((trimSuffix "." name).toList.splitOn '.').map String.ofList with
    | [endpoint, service, project, environment, organization, _, _] =>
      if [endpoint, service, project, environment, organization].any fun part => trimSpace part == "" then
        some {}
      else some { endpoint, service, project, environment, organization }
    | _ => some {}
  else none

def selectEndpointCandidate (tools : NameTools) (candidates : List EndpointCandidate)
    (normalizedProject : String) : Option EndpointCandidate :=
  match candidates.filter fun c => normalizeLabel tools c.projectName == normalizedProject with
  | [c] => some c
  | _ => none

/-- The conversion of an `int` to an `int32`. -/
def int32 (n : Int) : Int := (n + 2 ^ 31) % 2 ^ 32 - 2 ^ 31

def parsePreviewEnvSlug (envSlug : String) : Option Int :=
  if hasPrefix envSlug "pr-" then
    match atoi (trimPrefix "pr-" envSlug).toList with
    | some n => if n ≤ 0 then none else some (int32 n)
    | none => none
  else none

/-! ## Resolving -/

structure CallerIdentity where
  organizationId : Id
  projectId : Id
  envSlug : String := "prod"
  /-- `PreviewEnvironmentID`, if `HasPreviewEnvironment`. -/
  previewEnvironmentId : Option Id := none
  deriving DecidableEq, Repr

def lookupCallerByIP (ip : Nat) : Dns (Option CallerIdentity) := do
  match ← ifAny (dnsQuery (.vmFindByIPAddress ip)) with
  | none => return none
  | some vm =>
    match ← ifAny (dnsQuery (.deploymentFindByVMID vm.id)) with
    | none => return none
    | some dep => do
      let project ← dnsQuery (.projectFirstByID dep.projectId)
      let org ← dnsQuery (.organizationByID project.orgId)
      match dep.kind with
      | .production => return some { organizationId := org.id, projectId := project.id }
      | .preview =>
        match dep.previewEnvironmentId with
        | none => return none
        | some id => do
          let env ← dnsQuery (.previewEnvironmentByID id)
          return some
            { organizationId := org.id, projectId := project.id, previewEnvironmentId := some env.id
              envSlug := if env.prNumber > 0 then "pr-" ++ toString env.prNumber else "preview" }

/-- `uuid.Nil` -/
def nilId : Id := 0

def Resolver.resolveDeployment (caller : CallerIdentity) (candidate : EndpointCandidate) (envSlug : String) :
    Dns (Option Deployment) :=
  if envSlug == "prod" then ifAny (dnsQuery (.deploymentLatestRunningByServiceID candidate.serviceId))
  else
    match parsePreviewEnvSlug envSlug, caller.previewEnvironmentId with
    | some prNumber, some own => do
      let envs ← context "lookup preview environments"
        (dnsQuery (.previewEnvironmentsByProjectAndPRNumber candidate.projectId prNumber))
      let previewEnvironmentId := ((envs.find? fun env => env.id == own).map (·.id)).getD nilId
      if previewEnvironmentId == nilId then return none
      else ifAny (dnsQuery (.deploymentLatestRunningPreviewByServiceAndPreviewEnvironmentID
        candidate.serviceId previewEnvironmentId))
    | _, _ => return none

inductive Rcode
  | success | serverFailure | nameError
  deriving DecidableEq, Repr

/-- An `A` record. -/
structure DnsRecord where
  name : String
  ttl : Nat
  address : Nat
  deriving DecidableEq, Repr

structure Resolution where
  handled : Bool := false
  rcode : Rcode := .success
  answers : List DnsRecord := []
  deriving DecidableEq, Repr

def Resolution.refused (rcode : Rcode) : Resolution where
  handled := true
  rcode := rcode

def answersForIPv4 (qname : String) (ips : List Nat) : List DnsRecord :=
  (ips.filter (· < 2 ^ 32)).map fun ip => { name := fqdn (trimSpace qname), ttl := 5, address := ip }

/-- The last part of `Resolve`, by the type of the query: `A` is 1, and `ANY` is 255. -/
def Resolver.answer (qname : String) (qtype : Nat) (ips : List Nat) : Resolution :=
  if ips == [] then .refused .serverFailure
  else if qtype == 1 || qtype == 255 then
    if answersForIPv4 qname ips == [] then .refused .serverFailure
    else { handled := true, answers := answersForIPv4 qname ips }
  else { handled := true }

@[irreducible] def Resolver.resolve (tools : NameTools) (sourceIP : Nat) (qname : String) (qtype : Nat) :
    Dns Resolution :=
  match parseInternalName tools qname with
  | none => return {}
  | some target => do
    match ← context "lookup caller" (lookupCallerByIP sourceIP) with
    | none => return .refused .nameError
    | some caller => do
      let candidates ← context "lookup endpoint candidates" (dnsQuery
        (.serviceEndpointDNSLookupCandidates tools target.endpoint target.service target.organization))
      match selectEndpointCandidate tools candidates target.project with
      | none => return .refused .nameError
      | some candidate =>
        if caller.organizationId ≠ candidate.organizationId then return .refused .nameError
        else if caller.envSlug ≠ target.environment then return .refused .nameError
        else do
          match ← resolveDeployment caller candidate target.environment with
          | none => return .refused .serverFailure
          | some dep => do
            let ips ← context "lookup backend ips" (dnsQuery (.deploymentRunningBackendIPs dep.id))
            return answer qname qtype ips

end Kindling
