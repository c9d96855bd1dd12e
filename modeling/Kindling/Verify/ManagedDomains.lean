import Kindling.Verify.DomainServices

/-!
# The managed domain of a service

The API and the deployer both keep the managed domain of a service up to date. Without a host name to
give, or without a running deployment, the API removes the domain and the deployer does not.
-/

namespace Kindling

open Fallible

variable {w : World} {service : Service} {proj : Project} {t : DomainTable} {s : Id} {x : Domain}
  {dep : Deployment} {host : String} {as : List Answer}

def managedName (s : Id) (t : DomainTable) : Option String :=
  (t.rows.find? (Domain.managedBy s)).map (·.domainName)

/-- The name is that of another row, or would be given to two. -/
def hostTaken (s : Id) (host : String) (t : DomainTable) : Bool :=
  t.rows.any (fun d => !d.managedBy s && d.domainName == host) ||
    decide (1 < t.rows.countP (Domain.managedBy s))

/-- What giving the name to the managed domain leaves. -/
def nameGiven (s : Id) (host : String) (t : DomainTable) : Option String :=
  if hostTaken s host t then managedName s t else some host

def World.hasPublicHTTP (w : World) (s : Id) : Bool :=
  (w.endpoints.selectBy (·.serviceId == s) (·.createdAt)).any
    fun e => e.protocol == .http && e.visibility == .publicOpen

/-- The host name that the base domain gives to the service. -/
def World.configuredHost (w : World) (service : Service) (proj : Project) : Option String :=
  ((w.settings.find? (·.1 == settingServiceBaseDomain)).map (·.2)).bind (managedHost service proj)

def World.hasRunning (w : World) (s : Id) : Bool := (w.latestRunning (·.serviceId == some s)).isSome

def World.deployerName (w : World) (service : Service) (proj : Project) : Option String :=
  if w.hasPublicHTTP service.id then
    match w.configuredHost service proj with
    | some host => nameGiven service.id host w.domains
    | none => managedName service.id w.domains
  else none

def World.apiName (w : World) (service : Service) (proj : Project) : Option String :=
  if w.hasPublicHTTP service.id && w.hasRunning service.id then
    (w.configuredHost service proj).bind (nameGiven service.id · w.domains)
  else none

theorem managedBy_ite [Decidable c] {d d' : Domain} (hs : d'.serviceId = d.serviceId)
    (hk : d'.kind = d.kind) : (if c then d' else d).managedBy s = d.managedBy s := by
  split <;> simp [Domain.managedBy, hs, hk]

theorem managedName_update (now : Time) (id : Id) (hx : t.rows.find? (Domain.managedBy s) = some x) :
    managedName s ((DomainStmt.updateManagedByServiceID s host id).exec now t).2 =
      nameGiven s host t := by
  dsimp only [DomainStmt.exec]
  rw [nameGiven, hostTaken]
  split
  · rfl
  · simp [managedName, returning, Table.updateWhere, Table.modify, Function.comp_def, managedBy_ite,
      hx, List.find?_some hx]

theorem managedName_create (now : Time) (hx : t.rows.find? (Domain.managedBy s) = none)
    (hid : t.find? x.id = none) (hs : x.managedBy s) :
    managedName s ((DomainStmt.create x).exec now t).2 = nameGiven s x.domainName t := by
  have hnone := List.find?_eq_none.mp hx
  have htaken : hostTaken s x.domainName t = t.rows.any (·.domainName == x.domainName) := by
    rw [hostTaken, List.countP_eq_zero.mpr hnone]
    grind
  dsimp only [DomainStmt.exec]
  rw [nameGiven, htaken]
  split
  · rfl
  · have hs' : Domain.managedBy s { x with verifiedAt := some now } := hs
    simp [managedName, inserting, Table.insert?, hid, hx, hs']

theorem deployerName_point (now : Time) (id : Id) (proj : Project) :
    (w.withDomains ((DomainStmt.updateDeploymentForService id service.id).exec now
      w.domains).2).deployerName service proj = w.deployerName service proj := by
  simp [World.deployerName, World.hasPublicHTTP, World.configuredHost, nameGiven, hostTaken,
    managedName, DomainStmt.exec, Table.updateWhere, Table.modify, Function.comp_def, managedBy_ite,
    apply_ite Domain.domainName]

/-! ## Executions -/

/-- No call fails, and every identifier is new. -/
def Calm (t : DomainTable) (as : List Answer) : Prop :=
  ∀ n, (as.getD n default).fail = false ∧ t.find? ((as.getD n default).uuids 0) = none

instance : LawfulReads ApiOp := ⟨fun _ _ _ => rfl⟩

theorem andThen_done [Effect E Answer World] (o : Outcome (Except Err α) World Answer) :
    (andThen o fun _ => (pure () : Go E Unit)).state = o.state := by
  rcases o with ⟨_ | _, _, _⟩ <;> rfl

theorem noRows_isNoRows : (Err.of .noRows).isNoRows = true := rfl

theorem managedName_delete (now : Time) :
    managedName s ((DomainStmt.deleteManagedByServiceID s).exec now t).2 = none := by
  simp [managedName, DomainStmt.exec, Table.keep]

attribute [local simp] outcome_bind outcome_attempt outcome_wrap outcome_ofCall outcome_ofTotal
  context query_outcome domainStmt routeStmt apiQuery Effect.exec Action.prog Prog.lift Prog.run
  ApiOp.exec Op.exec Stmt.step Atomic.step onTable andThen_done noRows_isNoRows managedName_delete
  one Query.eval ApiQuery.eval Except.mapError List.head?_eq_getElem? ensureServiceDomain
  publicHTTPEndpoint ensureManagedDomain serviceBaseDomain manageDomain setManagedDomain
  deleteManagedDomain

theorem ensureServiceDomain_name (hq : Calm w.domains as) :
    managedName service.id ((ensureServiceDomain dep proj service).outcome as w).state.domains =
      w.deployerName service proj := by
  simp only [Calm, List.getD_eq_getElem?_getD] at hq
  rw [World.deployerName, World.hasPublicHTTP, ← List.isSome_find?, World.configuredHost]
  cases hfind : (w.endpoints.selectBy (·.serviceId == service.id) (·.createdAt)).find?
      (fun e => e.protocol == .http && e.visibility == .publicOpen) with
  | none => simp [hq, hfind]
  | some e =>
    cases hset : w.settings.find? (·.1 == settingServiceBaseDomain) with
    | none => simp [hq, hfind, hset]
    | some base =>
      cases hhost : managedHost service proj base.2 with
      | none => simp [hq, hfind, hset, hhost]
      | some host =>
        cases hx : w.domains.rows.find? (Domain.managedBy service.id) with
        | some x => simpa [hq, hfind, hset, hhost, hx] using managedName_update _ _ hx
        | none =>
          simp [hq, hfind, hset, hhost, hx]
          exact managedName_create _ hx (hq 3).2 (by simp [Domain.managedBy])

theorem ensureProductionRoutes_name (hq : Calm w.domains as) :
    managedName service.id
      ((ensureProductionRoutes dep proj (some service)).outcome as w).state.domains =
      w.deployerName service proj := by
  have hpointed (now) : Calm (w.withDomains ((DomainStmt.updateDeploymentForService dep.id
      service.id).exec now w.domains).2).domains as.tail := fun n => by
    simpa [DomainStmt.exec] using hq (n + 1)
  rw [← deployerName_point (as.headD default).now dep.id, ← ensureServiceDomain_name (hpointed _)]
  simp only [Calm, List.getD_eq_getElem?_getD] at hq
  rw [ensureProductionRoutes]
  simp [hq, -ensureServiceDomain]
  rfl

theorem reconcileManagedServiceDomain_name (hproj : w.projects.find? service.projectId = some proj)
    (hq : Calm w.domains as) :
    managedName service.id
      ((reconcileManagedServiceDomain service).outcome as w).state.domains =
      w.apiName service proj := by
  have h0 : (as.headD default).fail = false := by simpa using (hq 0).1
  simp only [Calm, List.getD_eq_getElem?_getD] at hq
  rw [World.apiName, World.configuredHost, World.hasRunning, reconcileManagedServiceDomain,
    outcome_bind, context, outcome_wrap, query_outcome, h0]
  change managedName _ (outcome (if !w.hasPublicHTTP service.id then _ else _) _ w).state.domains = _
  cases w.hasPublicHTTP service.id with
  | false => simp [hq]
  | true =>
    cases hset : w.settings.find? (·.1 == settingServiceBaseDomain) with
    | none => simp [hq, hset, show isBlank "" by decide +kernel]
    | some base =>
      cases hb : isBlank base.2 with
      | true =>
        have hhost : managedHost service proj base.2 = none := by
          unfold isBlank at hb
          simp [managedHost, hb]
        simp [hq, hset, hb, hhost]
      | false =>
        cases hrun : w.latestRunning (·.serviceId == some service.id) with
        | none => simp [hq, hset, hb, hrun]
        | some d =>
          cases hhost : managedHost service proj base.2 with
          | none => simp [hq, hset, hb, hrun, hproj, hhost]
          | some host =>
            cases hx : w.domains.rows.find? (Domain.managedBy service.id) with
            | some x =>
              simpa [hq, hset, hb, hrun, hproj, hhost, hx] using managedName_update _ _ hx
            | none =>
              simp [hq, hset, hb, hrun, hproj, hhost, hx]
              exact managedName_create _ hx (hq 5).2 (by simp [Domain.managedBy])

/-- Both leave the same domain exactly if the service has no public endpoint, or there are a host
name and a running deployment, or there is no domain and none can be created. -/
theorem managed_domain_agrees_iff (hproj : w.projects.find? service.projectId = some proj)
    (hq : Calm w.domains as) (hq' : Calm w.domains as') :
    managedName service.id
        ((ensureProductionRoutes dep proj (some service)).outcome as w).state.domains =
      managedName service.id ((reconcileManagedServiceDomain service).outcome as' w).state.domains ↔
    w.hasPublicHTTP service.id = false ∨
    (w.configuredHost service proj).isSome ∧ w.hasRunning service.id ∨
    managedName service.id w.domains = none ∧
      ∀ host ∈ w.configuredHost service proj, hostTaken service.id host w.domains := by
  have hgiven (host) : nameGiven service.id host w.domains = none ↔
      managedName service.id w.domains = none ∧ hostTaken service.id host w.domains := by
    rw [nameGiven]
    split <;> simp [*]
  rw [ensureProductionRoutes_name hq, reconcileManagedServiceDomain_name hproj hq', World.apiName,
    World.deployerName]
  cases w.hasPublicHTTP service.id with
  | false => simp
  | true =>
    cases w.configuredHost service proj <;> cases w.hasRunning service.id <;> simp [hgiven]

def shopService : Service := { id := 3, projectId := 1 }

/-- A service whose domain was created when there was a base domain. -/
def unbasedWorld (visibility : Visibility) : World where
  projects := .single { id := 1 }
  endpoints := .single { id := 2, serviceId := 3, visibility }
  domains := .single { id := 4, projectId := 1, serviceId := some 3, domainName := "web.example"
                       kind := .serviceManaged }

theorem deployer_keeps_unbased_domain :
    managedName 3 ((ensureProductionRoutes { id := 5, projectId := 1 } { id := 1 }
      (some shopService)).outcome [] (unbasedWorld .publicOpen)).state.domains = some "web.example" ∧
    managedName 3 ((reconcileManagedServiceDomain shopService).outcome []
      (unbasedWorld .publicOpen)).state.domains = none := by decide +kernel

theorem both_remove_private_domain :
    managedName shopService.id ((ensureProductionRoutes { id := 5, projectId := 1 } { id := 1 }
      (some shopService)).outcome [] (unbasedWorld .privateOnly)).state.domains =
    managedName shopService.id ((reconcileManagedServiceDomain shopService).outcome []
      (unbasedWorld .privateOnly)).state.domains :=
  (managed_domain_agrees_iff rfl (fun _ => ⟨rfl, rfl⟩) fun _ => ⟨rfl, rfl⟩).mpr (.inl rfl)

end Kindling
