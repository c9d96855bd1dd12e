import Kindling.Rpc.Domains
import Kindling.Verify.Routing

/-!
# Domains and the services of their deployments

The verification of a domain of a project points every production domain of the project at the
project's latest running deployment, whichever service that deployment belongs to.
-/

namespace Kindling

open Fallible

variable {rc : ReconcileContext} {f : RouteFact} {d : Deployment}

/-- The deployment is there, and belongs to the service. -/
def World.serves (w : World) (dep : Id) (service : Option Id) : Bool :=
  (w.deployments.find? dep).map (·.serviceId) == some service

/-- Production and managed domains. -/
def Domain.routed (x : Domain) : Bool := x.kind == .production || x.kind == .serviceManaged

/-- Every production or managed domain that points to a deployment points to one of its own
service. -/
def World.RoutesToOwnService (w : World) : Prop :=
  ∀ x ∈ w.domains.rows, x.routed = true → ∀ dep ∈ x.deploymentId, w.serves dep x.serviceId = true

def World.ManagedVerified (w : World) : Prop :=
  ∀ x ∈ w.domains.rows, x.kind = .serviceManaged → x.verifiedAt.isSome = true

instance (w : World) : Decidable w.RoutesToOwnService := by
  unfold World.RoutesToOwnService
  infer_instance

instance (w : World) : Decidable w.ManagedVerified := by
  unfold World.ManagedVerified
  infer_instance

/-- The service of a deployment, and the kind and service of a domain that is not managed: neither
changes. Managed domains may be deleted. -/
inductive RouteFact
  | serves (deployment : Id) (service : Option Id)
  | domain (id : Id) (kind : DomainKind) (service : Option Id)
  deriving DecidableEq, Repr

def RouteFact.Holds (w : World) : RouteFact → Prop
  | serves dep service => w.serves dep service = true
  | domain id kind service => kind ≠ .serviceManaged ∧
    ∃ x, w.domains.find? id = some x ∧ x.kind = kind ∧ x.serviceId = service

def Domain.facts (x : Domain) : List RouteFact :=
  if x.kind = .serviceManaged then [] else [.domain x.id x.kind x.serviceId]

def Query.routeFacts : Query β → Except Err β → List RouteFact
  | .deploymentFirstByID _, .ok d => [.serves d.id d.serviceId]
  | .domainFindByPreviewEnvironmentAndKind .., .ok x => x.facts
  | _, _ => []

def ApiQuery.routeFacts : ApiQuery β → Except Err β → List RouteFact
  | .domainFirstByIDAndService .., .ok x => x.facts
  | .deploymentLatestRunningByServiceID _, .ok d => [.serves d.id d.serviceId]
  | _, _ => []

/-- What a row that a query returns has in common with the query. -/
def Query.Fits : Query β → Except Err β → Prop
  | .deploymentFirstByID id, .ok d => d.id = id
  | .serviceFirstByID id, .ok s => s.id = id
  | .domainFindByPreviewEnvironmentAndKind _ kind, .ok x => x.kind = kind
  | _, _ => True

def DeploymentStmt.Fits : DeploymentStmt β → Except Err β → Prop
  | .updateImage id _, .ok d => d.id = id
  | _, _ => True

def ApiQuery.Fits : ApiQuery β → Except Err β → Prop
  | .domainFirstByIDAndService id service, .ok x =>
    x.id = id ∧ x.serviceId = some service ∧ (x.verifiedAt = none → x.kind ≠ .serviceManaged)
  | .deploymentLatestRunningByServiceID service, .ok d => d.serviceId = some service
  | _, _ => True

/-- The program knows that the deployment the statement points domains to belongs to their service, or
that they are domains of previews. -/
def DomainStmt.Justified (m : List RouteFact) : DomainStmt β → Prop
  | .updateDeploymentForService dep service | .updateManagedByServiceID service _ dep =>
    .serves dep (some service) ∈ m
  | .deleteManagedByServiceID _ => True
  | .updateDeploymentForDomainID id dep => ∃ kind service,
    .domain id kind service ∈ m ∧ (kind = .production → .serves dep service ∈ m)
  | .create x => x.routed = true → ∀ dep ∈ x.deploymentId, .serves dep x.serviceId ∈ m

theorem DomainStmt.Justified.mono {s : DomainStmt β} (h : s.Justified m) (hm : m ⊆ m') :
    s.Justified m' := by
  cases s with
  | updateDeploymentForService | updateManagedByServiceID => exact hm h
  | deleteManagedByServiceID => trivial
  | updateDeploymentForDomainID =>
    obtain ⟨kind, service, hid, hdep⟩ := h
    exact ⟨kind, service, hm hid, fun hk => hm (hdep hk)⟩
  | create => exact fun hx dep hdep => hm (h hx dep hdep)

theorem DomainStmt.RoutesTo.justified {s id : Id} {stmt : DomainStmt β} (h : stmt.RoutesTo s id)
    (hm : .serves id (some s) ∈ m) : stmt.Justified m := by
  cases stmt with
  | updateDeploymentForService =>
    obtain ⟨rfl, rfl⟩ := h
    exact hm
  | updateManagedByServiceID =>
    obtain ⟨rfl, rfl⟩ := h
    exact hm
  | deleteManagedByServiceID => trivial
  | updateDeploymentForDomainID => exact h.elim
  | create x =>
    intro _ dep hdep
    obtain ⟨hs, hid⟩ := h
    have hservice : x.serviceId = some s := by
      simp only [Domain.ofService, Bool.and_eq_true, beq_iff_eq] at hs
      exact hs.1
    have hdep : dep = id := Option.some_inj.mp (hdep.symm.trans hid)
    rw [hservice, hdep]
    exact hm

@[simps] def passRoutes : Typestate Action (List RouteFact) where
  start := []
  allows m
    | .domains s => s.Justified m
    | _ => True
  possible _
    | .query q, r => q.Fits r
    | .deployments s, r => s.Fits r
    | _, _ => True
  next m
    | .query q, r => q.routeFacts r ++ m
    | _, _ => m

@[simps] def apiRoutes : Typestate ApiOp (List RouteFact) where
  start := []
  allows m
    | .op (.db (.domains s)) => s.Justified m
    | .op (.tx p) => p.Uses Stmt.SparesControl
    | .domains (.create x) => x.deploymentId = none ∧ x.kind = .production
    | _ => True
  possible _
    | .op (.db (.query q)), r => q.Fits r
    | .op (.db (.deployments s)), r => s.Fits r
    | .query q, r => q.Fits r
    | _, _ => True
  next m
    | .op (.db (.query q)), r => q.routeFacts r ++ m
    | .query q, r => q.routeFacts r ++ m
    | _, _ => m

/-! ## Passes -/

attribute [local simp] Query.Fits.eq_def Query.routeFacts.eq_def DeploymentStmt.Fits.eq_def
  ApiQuery.Fits.eq_def ApiQuery.routeFacts.eq_def DomainStmt.Justified Domain.facts Domain.routed
  Yields context Except.mapError query Kindling.Reads.read domainStmt deploymentStmt routeStmt buildStmt
  scheduleRetry

theorem follows_of_spares (h : Uses Action.SparesDomains p) :
    passRoutes.Follows p (fun _ m' => m ⊆ m') m := by
  refine .keeping (.mono h fun _ a ha m' hm => ?_) (.refl m)
  cases a with
  | domains => exact ha.elim
  | query q => exact ⟨trivial, fun r _ => List.Subset.trans hm (List.subset_append_right ..)⟩
  | _ => exact ⟨trivial, fun _ _ => hm⟩

theorem follows_of_keepsTraffic (h : Uses Action.KeepsTraffic p) (m : List RouteFact) :
    passRoutes.Follows p (fun _ m' => m ⊆ m') m := by
  refine follows_of_spares (h.mono fun _ a ha => ?_)
  cases a with
  | domains => exact ha.elim
  | _ => trivial

/-- The deployment of the pass is known to belong to the service of the pass. -/
def ReconcileContext.Served (m : List RouteFact) (rc : ReconcileContext) : Prop :=
  ∀ s, rc.service = some s → .serves rc.dep.id (some s.id) ∈ m

theorem ReconcileContext.Served.mono (h : rc.Served m) (hm : m ⊆ m') :
    rc.Served m' := fun s hs => hm (h s hs)

theorem fetchService_follows :
    passRoutes.Follows (fetchService dep) (Yields (fun service m' => m ⊆ m' ∧
      ∀ s, service = some s → dep.serviceId = some s.id) fun _ => True) m := by
  cases h : dep.serviceId <;> simp +contextual [fetchService, h]

theorem fetchContext_follows {id : Id} :
    passRoutes.Follows (fetchContext id) (Yields (fun r m' => r.1.Served m') fun _ => True) m := by
  refine .andThen_yields (Q := fun dep m' => .serves dep.id dep.serviceId ∈ m') (R := fun _ => True)
    (.wrap_yields (.ofCall_yields trivial (fun _ _ => List.mem_cons_self) fun _ _ => trivial)) ?_
  intro dep m hdep
  refine .andThen_yields (R := fun _ => True)
    (.wrap_yields (.ofCall_yields trivial (fun _ _ => hdep) fun _ _ => trivial)) ?_
  intro proj m hdep
  refine fetchService_follows.andThen_yields ?_
  rintro service m' ⟨hm, hservice⟩
  refine (follows_of_keepsTraffic (.wrap projectVolumeForDeployment_work.keepsTraffic)
    m').bind ?_ fun _ _ _ => trivial
  intro vol m'' hm'
  refine .pure fun s hs => hm' (hm ?_)
  rw [← hservice s hs]
  exact hdep

theorem ensureBuild_follows :
    passRoutes.Follows (ensureBuild dep) (Yields (fun r m' => m ⊆ m' ∧ (r.2 = false → r.1 = dep))
      fun _ => True) m := by
  cases h : dep.buildId <;> simp [ensureBuild, h]

theorem syncDeploymentImage_follows :
    passRoutes.Follows (syncDeploymentImage dep)
      (Yields (fun dep' m' => m ⊆ m' ∧ dep'.id = dep.id) fun _ => True) m := by
  refine (follows_of_keepsTraffic (.wrap queryBy_work.keepsTraffic) m).bind
    (fun build m' hm => ?_) fun _ _ _ => trivial
  split <;> simp [hm]

theorem prepareImageAndEnv_follows {d : Deployer} (h : rc.Served m) :
    passRoutes.Follows (prepareImageAndEnv d rc)
      (Yields (fun rc' m' => rc'.Served m') fun _ => True) m := by
  refine (follows_of_keepsTraffic (.wrap queryBy_work.keepsTraffic) m).bind
    (fun image m₁ h₁ => ?_) fun _ _ _ => trivial
  refine (follows_of_keepsTraffic effectiveEnvVars_work.keepsTraffic m₁).bind
    (fun vars m₂ h₂ => ?_) fun _ _ _ => trivial
  refine (follows_of_keepsTraffic (.wrap .ofResult) m₂).bind (fun env m₃ h₃ => ?_)
    fun _ _ _ => trivial
  exact .pure (h.mono (List.Subset.trans h₁ (List.Subset.trans h₂ h₃)))

theorem resolveContext_follows (d : Deployer) (vol : Option ProjectVolume) (h : rc.Served m) :
    passRoutes.Follows (resolveContext d rc vol)
      (Yields (fun r m' => ∀ rc' ∈ r, rc'.Served m') fun _ => True) m := by
  have hnone : ∀ {m' : List RouteFact}, ∀ rc' ∈ (none : Option ReconcileContext), rc'.Served m' :=
    fun _ h => absurd h (Option.not_mem_none _)
  refine ensureBuild_follows.andThen_yields ?_
  rintro ⟨dep, done⟩ m₁ ⟨h₁, hdep⟩
  dsimp only
  split
  · exact .pure hnone
  next hdone =>
  cases hdep (by simpa using hdone)
  refine (follows_of_keepsTraffic resolveProjectVolume_keepsTraffic m₁).bind ?_ fun _ _ _ => trivial
  rintro ⟨mount, done⟩ m₂ h₂
  split
  · exact .pure hnone
  refine syncDeploymentImage_follows.andThen_yields ?_
  rintro dep m₃ ⟨h₃, hid⟩
  split
  · exact .throw trivial
  · have hserved : ReconcileContext.Served m₃ { rc with dep, persistentVolume := mount } :=
      fun s hs => hid ▸ h₃ (h₂ (h₁ (h s hs)))
    refine (prepareImageAndEnv_follows hserved).andThen_yields (fun rc' m₄ h₄ => ?_)
    refine .pure fun rc'' hrc => ?_
    cases hrc
    exact h₄

theorem resolveDeployment_follows (d : Deployer) (id : Id) (m : List RouteFact) :
    passRoutes.Follows (resolveDeployment d id)
      (Yields (fun r m' => ∀ rc ∈ r, rc.Served m') fun _ => True) m := by
  have hnone : ∀ {m' : List RouteFact}, ∀ rc' ∈ (none : Option ReconcileContext), rc'.Served m' :=
    fun _ h => absurd h (Option.not_mem_none _)
  refine fetchContext_follows.andThen_yields ?_
  rintro ⟨rc, vol⟩ m₁ h₁
  dsimp only
  split
  · exact (follows_of_keepsTraffic failPreviewVolumeDeployment_keepsTraffic m₁).bind
      (fun _ _ _ => .pure hnone) fun _ _ _ => trivial
  split
  · exact (follows_of_keepsTraffic reconcileTerminalDeployment_work.keepsTraffic m₁).bind
      (fun _ _ _ => .pure hnone) fun _ _ _ => trivial
  · exact resolveContext_follows d vol h₁

theorem follows_of_routesTo {s id : Id} (h : Uses (Action.RoutesTo s id) p)
    (hm : .serves id (some s) ∈ m) :
    passRoutes.Follows p (fun _ m' => m ⊆ m') m := by
  refine .keeping (.mono h fun _ a ha m' hm' => ?_) (.refl m)
  cases a with
  | domains stmt => exact ⟨DomainStmt.RoutesTo.justified ha (hm' hm), fun _ _ => hm'⟩
  | query q => exact ⟨trivial, fun r _ => List.Subset.trans hm' (List.subset_append_right ..)⟩
  | _ => exact ⟨trivial, fun _ _ => hm'⟩

theorem updateStableDomain_follows :
    passRoutes.Follows (updateStableDomain dep e) (fun _ _ => True) m := by
  simp +contextual [updateStableDomain]
  exact fun _ _ => ⟨_, _, .inl ⟨rfl, rfl⟩, by simp⟩

theorem ensureImmutableDomain_follows {host : String} :
    passRoutes.Follows (ensureImmutableDomain dep e host) (fun _ _ => True) m := by
  simp [ensureImmutableDomain]

theorem ensurePreviewRoutes_follows :
    passRoutes.Follows (ensurePreviewRoutes dep proj) (fun _ _ => True) m := by
  cases he : dep.previewEnvironmentId <;> cases hs : dep.serviceId <;> simp [ensurePreviewRoutes, he, hs]
  intros
  exact updateStableDomain_follows.mono (by simp [ensureImmutableDomain_follows])

theorem drainOldDeployments_keepsTraffic (d : Deployer) (current : Deployment) :
    Uses Action.KeepsTraffic (drainOldDeployments d current) := by
  refine .bind (.attempt (.ofCall trivial)) fun r => ?_
  split
  · exact .forEach fun old _ => .bind cleanupDeploymentAllInstances_work.keepsTraffic fun _ =>
      .bind softDeleteLegacyVM_work.keepsTraffic fun _ => discard_uses (.ofCall trivial)
  · exact .pure

theorem reconcileInstances_follows (d : Deployer) (h : rc.Served m) :
    passRoutes.Follows (reconcileInstances d rc) (fun _ _ => True) m := by
  have hroute : ∀ m', m ⊆ m' → passRoutes.Follows (routeAndDrain d rc) (fun _ _ => True) m' := by
    intro m' hm
    unfold routeAndDrain
    split
    · exact .wrapped ensurePreviewRoutes_follows
    · refine .andThen (.wrapped (Q := fun _ _ => True) ?_) (fun _ m'' _ => ?_)
      · cases hs : rc.service with
        | none => exact .pure trivial
        | some s =>
          exact (follows_of_routesTo ensureProductionRoutes_routes (hm (h s hs))).any
      · exact (follows_of_keepsTraffic (drainOldDeployments_keepsTraffic d rc.dep) m'').any
  refine (follows_of_keepsTraffic (convergeInstances_keepsTraffic d rc) m).andThen
    (fun ready m₁ h₁ => ?_)
  split
  · unfold promoteDeployment
    split
    · exact .pure trivial
    refine (follows_of_spares (.wrap (.ofCall (by trivial)))).andThen fun _ m₂ h₂ => ?_
    refine (follows_of_spares (discard_uses (.ofCall (by trivial)))).andThen (fun _ m₃ h₃ => ?_)
    exact hroute m₃ (List.Subset.trans h₁ (List.Subset.trans h₂ h₃))
  · exact .pure trivial

theorem reconcileDeployment_follows (d : Deployer) (id : Id) (m : List RouteFact) :
    passRoutes.Follows (reconcileDeployment d id) (fun _ _ => True) m := by
  refine (resolveDeployment_follows d id m).yields_andThen (fun r m' h => ?_)
  split
  · next rc => exact reconcileInstances_follows d (h rc rfl)
  · exact .pure trivial

theorem admits_of_sparesControl (h : p.Uses Op.SparesControl) :
    (apiRoutes.comap fun _ => .op).Admits p (fun _ m' => m ⊆ m') m := by
  refine .keeping (h.mono fun _ o ho m' hm => ?_) (.refl m)
  cases o with
  | db s =>
    cases s with
    | query q => exact ⟨trivial, fun r _ => List.Subset.trans hm (List.subset_append_right ..)⟩
    | deployments | domains | builds => exact ho.elim
    | _ => exact ⟨trivial, fun _ _ => hm⟩
  | tx p => exact ⟨ho, fun _ _ => hm⟩
  | _ => exact ⟨trivial, fun _ _ => hm⟩

theorem action_refines (a : Action β) (n m : List RouteFact) (hm : n ⊆ m)
    (ha : passRoutes.allows n a) : (apiRoutes.comap fun _ => .op).Admits a.prog
      (fun v m' => passRoutes.possible n a v ∧ passRoutes.next n a v ⊆ m') m := by
  cases a with
  | query q => exact ⟨trivial, fun r hr => ⟨hr, List.append_subset.mpr
    ⟨List.subset_append_left .., List.subset_append_of_subset_right _ hm⟩⟩⟩
  | domains s => exact ⟨.mono ha hm, fun _ _ => ⟨trivial, hm⟩⟩
  | deployments s => exact ⟨trivial, fun v hv => ⟨hv, hm⟩⟩
  | task t =>
    exact (admits_of_sparesControl t.sparesControl).mono fun _ _ hm' =>
      ⟨trivial, List.Subset.trans hm hm'⟩
  | _ => exact ⟨trivial, fun _ _ => ⟨trivial, hm⟩⟩

theorem pass_admits (d : Deployer) (id : Id) :
    apiRoutes.Admits (hoist (fun _ => .op)
      (.interp (fun _ a => a.prog) (reconcileDeployment d id) : Go Op Unit))
      (fun _ _ => True) [] := by
  refine .interp (.mono (.refine (fun _ a n m hm ha => action_refines a n m hm ha)
    (reconcileDeployment_follows d id []) (.refl _)) fun _ _ _ => trivial)

/-! ## Requests -/

section requests
variable {m : List RouteFact}

/-- Calls of a request that write no domain, and are allowed whatever the request knows. -/
def ApiOp.Reads (β : Type) : ApiOp β → Prop
  | .op (.db (.query _)) | .op (.db .newUUID) | .query _ | .newVerificationToken | .lookupTXT _ => True
  | _ => False

theorem follows_of_reads (h : Uses ApiOp.Reads p) : apiRoutes.Follows p (fun _ m' => m ⊆ m') m := by
  refine .keeping (.mono h fun _ o ho m' hm => ?_) (.refl m)
  cases o with
  | op o =>
    cases o with
    | db s =>
      cases s with
      | query q => exact ⟨trivial, fun r _ => List.Subset.trans hm (List.subset_append_right ..)⟩
      | newUUID => exact ⟨trivial, fun _ _ => hm⟩
      | _ => exact ho.elim
    | _ => exact ho.elim
  | query q => exact ⟨trivial, fun r _ => List.Subset.trans hm (List.subset_append_right ..)⟩
  | newVerificationToken | lookupTXT => exact ⟨trivial, fun _ _ => hm⟩
  | domains | deploymentCreate => exact ho.elim

attribute [local simp] ApiOp.Reads query apiQuery Kindling.Reads.read context orNotFound Option.forall

@[simp] theorem adminPrincipal_reads : Uses ApiOp.Reads (adminPrincipal p) := by
  cases p <;> simp [adminPrincipal, mustPrincipal, requireOrgAdmin]

@[simp] theorem parseUUID_reads {id : Option Id} : Uses ApiOp.Reads (parseUUID code message id) := by
  cases id <;> simp [parseUUID]

@[simp] theorem adminProject_reads (p : Option Principal) (id : Option Id) :
    Uses ApiOp.Reads (adminProject p id) := by
  simp [adminProject]

@[simp] theorem adminService_reads {id : Option Id} : Uses ApiOp.Reads (adminService p id) := by
  simp [adminService]

theorem adminServiceAndProject_reads {id : Option Id} :
    Uses ApiOp.Reads (adminServiceAndProject p id) := by
  simp [adminServiceAndProject]

theorem reads_bind {p : Api α} {f : α → Api β} (h : Uses ApiOp.Reads p)
    (hf : ∀ a m', m ⊆ m' → apiRoutes.Follows (f a) (fun _ _ => True) m') :
    apiRoutes.Follows (p >>= f) (fun _ _ => True) m :=
  (follows_of_reads h).andThen hf

theorem reads_attempt_bind {p : Api α} {f : Except Err α → Api β} (h : Uses ApiOp.Reads p)
    (hf : ∀ r m', m ⊆ m' → apiRoutes.Follows (f r) (fun _ _ => True) m') :
    apiRoutes.Follows (p.attempt >>= f) (fun _ _ => True) m :=
  (follows_of_reads h).attempt_bind hf

theorem createDomain_follows :
    apiRoutes.Follows (createDomain projectId serviceId code body) (fun _ _ => True) m := by
  unfold createDomain
  split
  · exact .throw trivial
  split
  · exact .throw trivial
  · simp [apiDomainStmt]

theorem checkChallenge_reads (d : Domain) : Uses ApiOp.Reads (checkChallenge d) := by
  simp [checkChallenge, challengeTXTFound]

theorem verifyDomain_follows {verified : ApiDomainStmt Domain} {code : String}
    {latest : ApiQuery Deployment} {point : Id → Api Unit}
    (hverified : ∀ m', apiRoutes.allows m' (.domains verified))
    (hpoint : ∀ d dep m', find.Fits (.ok d) →
      d.verifiedAt = none → latest.Fits (.ok dep) → find.routeFacts (.ok d) ⊆ m' →
      latest.routeFacts (.ok dep) ⊆ m' → apiRoutes.Follows (point dep.id) (fun _ _ => True) m') :
    apiRoutes.Follows (verifyDomain find verified code latest point) (fun _ _ => True) m := by
  refine .yields_andThen (Q := fun d m' => find.Fits (.ok d) ∧ find.routeFacts (.ok d) ⊆ m')
    (R := fun _ => True) (.wrap_yields (.ofCall_yields trivial ?_ fun _ _ => trivial)) ?_
  · exact fun d hd => ⟨hd, List.subset_append_left ..⟩
  rintro d m₁ ⟨hd, h₁⟩
  split
  · exact .pure trivial
  next hpending =>
  refine reads_bind (checkChallenge_reads d) fun _ m₂ h₂ => ?_
  refine .yields_andThen (R := fun _ => True) (.wrap_yields
    (.ofCall_yields (hverified _) (fun _ _ => List.Subset.refl _) fun _ _ => trivial)) ?_
  intro d' m₃ h₃
  refine .attempt_bind (Q := fun r m' => m₃ ⊆ m' ∧ latest.Fits r ∧ latest.routeFacts r ⊆ m')
    (.ofCall trivial fun r hr => ⟨List.subset_append_right .., hr, List.subset_append_left ..⟩) ?_
  rintro r m₄ ⟨h₄, hr⟩
  split
  · exact .pure trivial
  next dep =>
  split
  · exact .pure trivial
  have hknown : find.routeFacts (.ok d) ⊆ m₄ := fun f hf => h₄ (h₃ (h₂ (h₁ hf)))
  have hnone : d.verifiedAt = none := by simpa using hpending
  refine .andThen (Q := fun _ _ => True) ((hpoint d dep m₄ hd hnone hr.1 hknown hr.2).attempt_bind
    fun _ _ _ => .pure trivial) (fun _ m₅ _ => ?_)
  refine reads_attempt_bind (.ofCall trivial) fun r m₆ _ => ?_
  split
  · exact .pure trivial
  · exact .pure trivial

theorem verifyProjectDomain_follows :
    apiRoutes.Follows (verifyProjectDomain p projectID domainID) (fun _ _ => True) m := by
  refine reads_bind (adminProject_reads p projectID) fun project m₁ _ => ?_
  refine reads_bind parseUUID_reads fun domainId m₂ _ => ?_
  exact verifyDomain_follows (fun _ => trivial) fun _ _ _ _ _ _ _ _ =>
    .call trivial

theorem verifyServiceDomain_follows :
    apiRoutes.Follows (verifyServiceDomain p serviceID domainID) (fun _ _ => True) m := by
  refine reads_bind adminServiceAndProject_reads fun service m₁ _ => ?_
  refine reads_bind parseUUID_reads fun domainId m₂ _ => ?_
  refine verifyDomain_follows (fun _ => trivial) ?_
  rintro d dep m' ⟨rfl, hservice, hmanaged⟩ hpending hdep hknown hserves
  have hfact : .domain d.id d.kind d.serviceId ∈ m' := by
    refine hknown ?_
    simp [hmanaged hpending]
  have hown : .serves dep.id d.serviceId ∈ m' := by
    have h : dep.serviceId = d.serviceId := hdep.trans hservice.symm
    exact h ▸ hserves List.mem_cons_self
  exact .call ⟨d.kind, d.serviceId, hfact, fun _ => hown⟩

theorem setManagedDomain_follows (h : .serves dep.id (some service.id) ∈ m) :
    apiRoutes.Follows (setManagedDomain service dep host) (fun _ _ => True) m := by
  simp [setManagedDomain, h]

theorem reconcileManagedServiceDomain_follows :
    apiRoutes.Follows (reconcileManagedServiceDomain service) (fun _ _ => True) m := by
  simp +contextual [reconcileManagedServiceDomain, deleteManagedDomain, serviceBaseDomain, manageDomain]
  intros
  constructor <;> intros <;> split <;> simp [setManagedDomain_follows]

theorem createDeployment_follows (code : String) (dep : Id → Deployment) :
    apiRoutes.Follows (createDeployment code dep) (fun _ _ => True) m :=
  reads_bind (.ofTotal trivial) fun _ _ _ => .wrapped (.call trivial)

theorem promoteDeployment_follows :
    apiRoutes.Follows (Api.promoteDeployment p deploymentID) (fun _ _ => True) m := by
  have hpromotable : ∀ dep, Uses ApiOp.Reads (promotableProductionDeployment dep) := by
    intro dep
    cases h : dep.serviceId <;> simp [promotableProductionDeployment, h]
  refine reads_bind adminPrincipal_reads fun principal m₁ _ => ?_
  refine reads_bind parseUUID_reads fun id m₂ _ => ?_
  simp
  intros
  exact (follows_of_reads (hpromotable _)).mono (by simp [createDeployment])

theorem apiRequest_follows (p : Option Principal) (r : ApiRequest) :
    apiRoutes.Follows (r.handle p) (fun _ _ => True) m := by
  have hdone : ∀ {α : Type} {q : Api α}, apiRoutes.Follows q (fun _ _ => True) m →
      apiRoutes.Follows (do let _ ← q) (fun _ _ => True) m := fun h =>
    h.andThen (fun _ _ _ => .pure trivial)
  cases r with
  | createProjectDomain project body =>
    exact hdone (reads_bind (adminProject_reads p project) fun _ _ _ =>
      reads_bind (.wrap (.ofCall trivial)) fun _ _ _ => createDomain_follows)
  | createServiceDomain service body =>
    exact hdone (reads_bind adminServiceAndProject_reads fun _ _ _ =>
      createDomain_follows)
  | verifyProjectDomain project domain => exact hdone verifyProjectDomain_follows
  | verifyServiceDomain service domain => exact hdone verifyServiceDomain_follows
  | changeServiceEndpoints service code =>
    exact reads_bind adminService_reads fun service _ _ =>
      .wrapped reconcileManagedServiceDomain_follows
  | triggerDeploy project commit =>
    exact hdone (reads_bind (adminProject_reads p project) fun _ _ _ =>
      reads_bind (.wrap (.ofCall trivial)) fun _ _ _ => createDeployment_follows ..)
  | triggerServiceDeploy service commit =>
    exact hdone (reads_bind adminService_reads fun _ _ _ => createDeployment_follows ..)
  | promoteDeployment dep => exact hdone promoteDeployment_follows

end requests

theorem apiStarts_follow (i : ApiActor) (p : Prog ApiOp (Except Err Unit)) (h : apiStarts i p) :
    apiRoutes.Admits p (fun _ _ => True) apiRoutes.start := by
  cases i with
  | request n =>
    obtain ⟨principal, r, rfl⟩ := h
    exact apiRequest_follows principal r
  | pass n =>
    obtain ⟨d, id, rfl⟩ := h
    exact pass_admits d id

/-! ## What the statements keep -/

structure RoutesSound (w : World) : Prop where
  own : w.RoutesToOwnService
  verified : w.ManagedVerified

structure KeepsOwners (w w' : World) : Prop where
  serves : ∀ dep service, w.serves dep service = true → w'.serves dep service = true
  domains : ∀ id x, w.domains.find? id = some x → x.kind ≠ .serviceManaged →
    ∃ x', w'.domains.find? id = some x' ∧ x'.kind = x.kind ∧ x'.serviceId = x.serviceId

theorem KeepsOwners.holds (h : KeepsOwners w w') (hf : f.Holds w) : f.Holds w' := by
  cases f with
  | serves dep service => exact h.serves dep service hf
  | domain id kind service =>
    obtain ⟨hkind, x, hx, rfl, rfl⟩ := hf
    exact ⟨hkind, h.domains id x hx hkind⟩

/-- A step that keeps both. -/
def RoutesStep (w w' : World) : Prop := RoutesSound w' ∧ KeepsOwners w w'

theorem RoutesStep.congr (h : RoutesSound w)
    (hserves : ∀ dep service, w.serves dep service = true → w'.serves dep service = true)
    (hdomains : w'.domains = w.domains) : RoutesStep w w' := by
  refine ⟨⟨fun x hx hr dep hdep => ?_, fun x hx => ?_⟩, hserves, fun id x hx _ => ?_⟩
  · rw [hdomains] at hx
    exact hserves dep _ (h.own x hx hr dep hdep)
  · rw [hdomains] at hx
    exact h.verified x hx
  · rw [hdomains]
    exact ⟨x, hx, rfl, rfl⟩

theorem RoutesStep.refl (h : RoutesSound w) : RoutesStep w w := .congr h (fun _ _ => id) rfl

theorem World.serves_of_mem {w : World} (h : d ∈ w.deployments) :
    w.serves d.id d.serviceId = true := by
  simp [World.serves, Table.find?_of_mem h]

section domains
variable {w : World} (h : RoutesSound w)
include h

theorem routesStep_updateWhere {f : Domain → Domain} (hf : ∀ x, (f x).id = x.id)
    (hcols : ∀ x, (f x).kind = x.kind ∧ (f x).serviceId = x.serviceId)
    (hverified : ∀ x, x.verifiedAt.isSome = true → (f x).verifiedAt.isSome = true)
    (hown : ∀ x ∈ w.domains, p x = true → x.routed = true → ∀ dep ∈ (f x).deploymentId,
      w.serves dep x.serviceId = true) :
    RoutesStep w (w.withDomains (w.domains.updateWhere p f hf)) := by
  refine ⟨⟨fun x hx hr dep hdep => ?_, fun x hx hm => ?_⟩, fun _ _ => id, fun id x hx _ => ?_⟩
  · have hx : x ∈ w.domains.updateWhere p f hf := hx
    obtain ⟨y, hy, rfl⟩ := Table.mem_updateWhere.mp hx
    split at hr
    · next hp =>
      rw [if_pos hp] at hdep ⊢
      rw [(hcols y).2]
      refine hown y hy hp ?_ dep hdep
      rwa [Domain.routed, ← (hcols y).1]
    · next hp =>
      rw [if_neg hp] at hdep ⊢
      exact h.own y hy hr dep hdep
  · have hx : x ∈ w.domains.updateWhere p f hf := hx
    obtain ⟨y, hy, rfl⟩ := Table.mem_updateWhere.mp hx
    split at hm
    · next hp =>
      rw [if_pos hp]
      exact hverified y (h.verified y hy ((hcols y).1 ▸ hm))
    · next hp =>
      rw [if_neg hp]
      exact h.verified y hy hm
  · refine ⟨if p x then f x else x, ?_, ?_⟩
    · simp [hx]
    · split
      · exact hcols x
      · exact ⟨rfl, rfl⟩

theorem routesStep_inserting
    (hown : x.routed = true → ∀ dep ∈ x.deploymentId, w.serves dep x.serviceId = true)
    (hverified : x.kind = .serviceManaged → x.verifiedAt.isSome = true) :
    RoutesStep w (w.withDomains (inserting w.domains x).2) := by
  refine ⟨⟨fun y hy => ?_, fun y hy => ?_⟩, fun _ _ => id, fun id y hy _ => ?_⟩
  · rcases mem_inserting hy with hold | rfl
    · exact h.own y hold
    · exact hown
  · rcases mem_inserting hy with hold | rfl
    · exact h.verified y hold
    · exact hverified
  · exact ⟨y, find?_inserting hy, rfl, rfl⟩

theorem DomainStmt.Justified.step {s : DomainStmt β} {m : List RouteFact} (hs : s.Justified m)
    (hm : ∀ f ∈ m, f.Holds w) (now : Time) :
    RoutesStep w (w.withDomains (s.exec now w.domains).2) := by
  cases s with
  | updateDeploymentForService dep service =>
    refine routesStep_updateWhere h (f := fun x => { x with deploymentId := some dep })
      (fun _ => rfl) (fun _ => ⟨rfl, rfl⟩) (fun _ hv => hv)
      fun x _ hx _ dep' hdep => ?_
    cases hdep
    have hservice : x.serviceId = some service := by
      simp only [Domain.ofService, Bool.and_eq_true, beq_iff_eq] at hx
      exact hx.1
    exact hservice ▸ hm _ hs
  | deleteManagedByServiceID service =>
    refine ⟨⟨fun x hx => h.own x (Table.mem_keep.mp hx).1, fun x hx =>
      h.verified x (Table.mem_keep.mp hx).1⟩, fun _ _ => id, fun id x hx hk => ⟨x, ?_, rfl, rfl⟩⟩
    change Table.find? (w.domains.keep _) id = some x
    rw [Table.find?_keep, hx]
    simp [Domain.managedBy, hk]
  | updateManagedByServiceID service host dep =>
    dsimp only [DomainStmt.exec]
    split
    · exact .refl h
    · refine routesStep_updateWhere h (f := fun x => { x with
          domainName := host, deploymentId := some dep, verificationToken := ""
          verifiedAt := some now }) (fun _ => rfl) (fun _ => ⟨rfl, rfl⟩) (fun _ _ => rfl)
        fun x _ hx _ dep' hdep => ?_
      cases hdep
      have hservice : x.serviceId = some service := by
        simp only [Domain.managedBy, Bool.and_eq_true, beq_iff_eq] at hx
        exact hx.1
      exact hservice ▸ hm _ hs
  | updateDeploymentForDomainID id dep =>
    obtain ⟨kind, service, hid, hdep⟩ := hs
    obtain ⟨hkind, y, hy, rfl, rfl⟩ := hm _ hid
    refine routesStep_updateWhere h (f := fun x => { x with deploymentId := some dep })
      (fun _ => rfl) (fun _ => ⟨rfl, rfl⟩) (fun _ hv => hv)
      fun x hx hp hr dep' hd => ?_
    cases hd
    have hx' : x = y := by
      simp only [Bool.and_true, decide_eq_true_eq] at hp
      exact Table.eq_of_key_eq hx (Table.mem_of_find? hy) (hp.trans (Table.find?_key hy).symm)
    subst hx'
    have hproduction : x.kind = .production := by
      simp only [Domain.routed, Bool.or_eq_true, beq_iff_eq] at hr
      exact hr.resolve_right hkind
    exact hm _ (hdep hproduction)
  | create x =>
    dsimp only [DomainStmt.exec]
    split
    · exact .refl h
    · exact routesStep_inserting h (fun hr dep hdep => hm _ (hs hr dep hdep)) fun _ => rfl

theorem routesStep_setVerified (now : Time) :
    RoutesStep w (w.withDomains (w.domains.updateWhere p
      (fun x => { x with verifiedAt := some now, verificationToken := "" }) fun _ => rfl)) :=
  routesStep_updateWhere h (f := fun x => { x with verifiedAt := some now, verificationToken := "" })
    (fun _ => rfl) (fun _ => ⟨rfl, rfl⟩) (fun _ _ => rfl) fun x hx _ hr => h.own x hx hr

end domains

/-! ## Runs -/

def ApiDomainStmt.PointsOwn (w : World) : ApiDomainStmt β → Prop
  | updateDeploymentForProject dep p =>
    ∀ x ∈ w.domains.rows, x.ofProject p = true → w.serves dep x.serviceId = true
  | _ => True

instance (s : ApiDomainStmt β) : Decidable (s.PointsOwn w) := by
  unfold ApiDomainStmt.PointsOwn
  induction s using ApiDomainStmt.casesOn <;> infer_instance

/-- The domains of a project are pointed at a deployment only while they all belong to its service. -/
def PointsOwnDomains : Prog.Guard ApiOp Answer World := fun _ op as w =>
  match op with
  | .domains s => (as.headD default).fail = false → s.PointsOwn w
  | _ => True

instance : Decidable (PointsOwnDomains β op as w) := by
  unfold PointsOwnDomains
  induction op using ApiOp.casesOn <;> infer_instance

section calls
variable {w : World}

theorem ApiDomainStmt.step (h : RoutesSound w) {s : ApiDomainStmt β} (m : List RouteFact)
    (hallows : apiRoutes.allows m (.domains s)) (hguard : s.PointsOwn w) (now : Time) :
    RoutesStep w (w.withDomains (s.exec now w.domains).2) := by
  cases s with
  | create x =>
    obtain ⟨hdep, hkind⟩ : x.deploymentId = none ∧ x.kind = .production := hallows
    dsimp only [ApiDomainStmt.exec]
    split
    · exact .refl h
    · refine routesStep_inserting h (fun _ dep hd => ?_) fun hk => ?_
      · rw [hdep] at hd
        cases hd
      · rw [hkind] at hk
        cases hk
  | setVerified id p => exact routesStep_setVerified h now
  | setVerifiedByServiceID id s => exact routesStep_setVerified h now
  | updateDeploymentForProject dep p =>
    refine routesStep_updateWhere h (f := fun x => { x with deploymentId := some dep })
      (fun _ => rfl) (fun _ => ⟨rfl, rfl⟩) (fun _ hv => hv) fun x hx hp _ dep' hdep => ?_
    cases hdep
    exact hguard x hx hp

theorem serves_deployments (s : DeploymentStmt β) (now : Time) (dep : Id) (service : Option Id) :
    (w.withDeployments (s.exec now w.deployments).2).serves dep service = w.serves dep service := by
  have hmap : ((s.exec now w.deployments).2.find? dep).map (·.serviceId) =
      (w.deployments.find? dep).map (·.serviceId) :=
    s.find?_exec_map (fun _ => by cases s <;> rfl) dep
  rw [World.serves, World.withDeployments_deployments, hmap, World.serves]

theorem serves_inserting (h : w.serves dep service = true) :
    (w.withDeployments (inserting w.deployments d).2).serves dep service = true := by
  cases hfind : w.deployments.find? dep with
  | none =>
    rw [World.serves, hfind] at h
    cases h
  | some y =>
    rw [World.serves, hfind] at h
    have hfind' : (inserting w.deployments d).2.find? dep = some y := find?_inserting hfind
    rwa [World.serves, World.withDeployments_deployments, hfind']

theorem op_routesStep (h : RoutesSound w) {m : List RouteFact} (hm : ∀ f ∈ m, f.Holds w)
    {o : Op β} (hallows : apiRoutes.allows m (.op o)) : RoutesStep w (o.exec as w).state := by
  have hspares : o.SparesControl → RoutesStep w (o.exec as w).state := fun ho => by
    have hsame := Op.exec_sameControl ho as w
    refine .congr h (fun dep service hs => ?_) hsame.domains
    rwa [World.serves, hsame.deployments]
  cases o with
  | db s =>
    cases s with
    | deployments s =>
      refine onTable_elim (.refl h) fun _ => .congr h (fun dep service hs => ?_) rfl
      rwa [serves_deployments]
    | domains s => exact onTable_elim (.refl h) fun _ => DomainStmt.Justified.step h hallows hm _
    | builds s => exact onTable_elim (.refl h) fun _ => .congr h (fun _ _ => id) rfl
    | _ => exact hspares trivial
  | tx p => exact hspares hallows
  | _ => exact hspares trivial

theorem api_routesStep (h : RoutesSound w) {m : List RouteFact} (hm : ∀ f ∈ m, f.Holds w)
    {op : ApiOp β} (hallows : apiRoutes.allows m op) {as : List Answer}
    (hguard : PointsOwnDomains β op as w) : RoutesStep w (op.exec as w).state := by
  cases op with
  | op o => exact op_routesStep h hm hallows
  | query | newVerificationToken | lookupTXT => exact .refl h
  | domains s =>
    exact onTable_elim (.refl h) fun hfail => ApiDomainStmt.step h m hallows (hguard hfail) _
  | deploymentCreate d =>
    exact onTable_elim (.refl h) fun _ => .congr h (fun _ _ => serves_inserting) rfl

theorem Domain.facts_hold (hx : x ∈ w.domains) (hf : f ∈ x.facts) : f.Holds w := by
  unfold Domain.facts at hf
  split at hf
  · cases hf
  · next hkind =>
    cases List.mem_singleton.mp hf
    exact ⟨hkind, x, Table.find?_of_mem hx, rfl, rfl⟩

theorem Query.routeFacts_hold (q : Query β) (now : Time) (hf : f ∈ q.routeFacts (q.eval now w)) :
    f.Holds w := by
  revert hf
  cases q with
  | deploymentFirstByID id =>
    refine one_elim (F := fun r => f ∈ Query.routeFacts (.deploymentFirstByID id) r → _)
      (fun _ => nofun) fun d hd hf => ?_
    cases List.mem_singleton.mp hf
    exact World.serves_of_mem (Table.mem_of_find? hd)
  | domainFindByPreviewEnvironmentAndKind e kind =>
    exact one_elim
      (F := fun r => f ∈ Query.routeFacts (.domainFindByPreviewEnvironmentAndKind e kind) r → _)
      (fun _ => nofun) fun x hx => x.facts_hold (List.mem_of_find?_eq_some hx)
  | _ => exact nofun

theorem Query.fits_eval (q : Query β) (now : Time) : q.Fits (q.eval now w) := by
  cases q with
  | deploymentFirstByID id =>
    exact one_elim (fun _ => trivial) fun _ =>
      Table.find?_key
  | serviceFirstByID id =>
    exact one_elim (fun _ => trivial) fun _ =>
      Table.find?_key
  | domainFindByPreviewEnvironmentAndKind e kind =>
    refine one_elim (fun _ => trivial) fun x hx => ?_
    have hkind := List.find?_some hx
    simp only [Bool.and_eq_true, beq_iff_eq] at hkind
    exact hkind.2
  | _ => trivial

theorem World.latestRunning_mem (h : w.latestRunning p = some d) :
    d ∈ w.deployments ∧ p d = true := by
  obtain ⟨hd, hp⟩ := Table.mem_selectBy.mp (List.mem_of_getLast? h)
  simp only [Bool.and_eq_true] at hp
  exact ⟨hd, hp.1.1.1⟩

theorem ApiQuery.routeFacts_hold (q : ApiQuery β) (hf : f ∈ q.routeFacts (q.eval w)) :
    f.Holds w := by
  revert hf
  cases q with
  | domainFirstByIDAndService id s =>
    exact one_elim (F := fun r => f ∈ ApiQuery.routeFacts (.domainFirstByIDAndService id s) r → _)
      (fun _ => nofun) fun x hx =>
        x.facts_hold (Table.mem_of_find? (Option.filter_eq_some_iff.mp hx).1)
  | deploymentLatestRunningByServiceID s =>
    refine one_elim (F := fun r => f ∈ ApiQuery.routeFacts (.deploymentLatestRunningByServiceID s) r → _)
      (fun _ => nofun) fun d hd hf => ?_
    cases List.mem_singleton.mp hf
    exact World.serves_of_mem (World.latestRunning_mem hd).1
  | _ => exact nofun

theorem ApiQuery.fits_eval (h : RoutesSound w) (q : ApiQuery β) : q.Fits (q.eval w) := by
  cases q with
  | domainFirstByIDAndService id s =>
    refine one_elim (fun _ => trivial) fun x hx => ?_
    obtain ⟨hfind, hs⟩ := Option.filter_eq_some_iff.mp hx
    refine ⟨Table.find?_key hfind, eq_of_beq hs, fun hnone hkind => ?_⟩
    have := h.verified x (Table.mem_of_find? hfind) hkind
    rw [hnone] at this
    cases this
  | deploymentLatestRunningByServiceID s =>
    exact one_elim (fun _ => trivial) fun d hd => eq_of_beq (World.latestRunning_mem hd).2
  | _ => trivial

theorem DeploymentStmt.fits_exec (s : DeploymentStmt β) (now : Time) (t : DeploymentTable) :
    s.Fits (s.exec now t).1 := by
  cases s with
  | updateImage id image =>
    refine one_elim (fun _ => trivial) fun x hx => ?_
    obtain ⟨_, _, _, _, hkey⟩ := Table.updateKey_fst_eq_some hx
    exact hkey
  | _ => trivial

theorem fits_unless_failed {γ : Type} {F : Except Err γ → Prop} (herror : ∀ e, F (.error e))
    {r : Except Err γ} (h : F r) (failed : Bool) :
    F (if failed then .error (.of .unavailable) else r) := by
  split
  · exact herror _
  · exact h

theorem possible_exec (h : RoutesSound w) (m : List RouteFact) (op : ApiOp β) (as : List Answer) :
    apiRoutes.possible m op (op.exec as w).value := by
  cases op with
  | op o =>
    cases o with
    | db s =>
      cases s with
      | query q =>
        exact fits_unless_failed (fun _ => by cases q <;> trivial) (q.fits_eval _) _
      | deployments s =>
        have hvalue : (onTable (as.headD default) (s.exec (as.headD default).now) World.deployments
            .withDeployments w).1 = if (as.headD default).fail then .error (.of .unavailable)
              else (s.exec (as.headD default).now w.deployments).1 := by
          unfold onTable
          split <;> rfl
        have hfits := fits_unless_failed (fun _ => by cases s <;> trivial)
          (s.fits_exec (as.headD default).now w.deployments) (as.headD default).fail
        rw [← hvalue] at hfits
        exact hfits
      | _ => trivial
    | _ => trivial
  | query q =>
    exact fits_unless_failed (fun _ => by cases q <;> trivial) (q.fits_eval h) _
  | _ => trivial

theorem next_holds (hf : f ∈ apiRoutes.next m op (op.exec as w).value) : f ∈ m ∨ f.Holds w := by
  have hlearnt : ∀ {γ : Type} {g : Except Err γ → List RouteFact} {r : Except Err γ}
      (failed : Bool), (∀ e, g (.error e) = []) → (f ∈ g r → f.Holds w) →
      f ∈ g (if failed then .error (.of .unavailable) else r) ++ m → f ∈ m ∨ f.Holds w := by
    intro γ g r failed herror hok hmem
    rcases List.mem_append.mp hmem with hnew | hold
    · cases failed with
      | true =>
        rw [if_pos rfl, herror] at hnew
        cases hnew
      | false => exact .inr (hok hnew)
    · exact .inl hold
  cases op with
  | op o =>
    cases o with
    | db s =>
      cases s with
      | query q =>
        exact hlearnt _ (fun _ => by cases q <;> rfl) (q.routeFacts_hold (as.headD default).now) hf
      | _ => exact .inl hf
    | _ => exact .inl hf
  | query q =>
    exact hlearnt _ (fun _ => by cases q <;> rfl) q.routeFacts_hold hf
  | _ => exact .inl hf

end calls

theorem routes_sound : Team.Keeps apiStarts (fun _ w => w) (fun _ _ => PointsOwnDomains)
    (fun _ => apiRoutes) (fun _ _ => True)
    fun M w => RoutesSound w ∧ ∀ i, ∀ f ∈ M i, RouteFact.Holds w f := by
  refine .of_facts apiStarts_follow (fun _ => rfl) ?_ fun _ _ h => ⟨h, fun _ => id⟩
  intro i log w β op as hallows hguard h hknown
  obtain ⟨hsound, howners⟩ := api_routesStep h hknown hallows hguard
  refine ⟨possible_exec h _ op as, hsound, fun f => howners.holds, fun f hf => ?_⟩
  exact (next_holds hf).imp_right howners.holds

/-- **Domains follow their service.** Let requests that create and verify domains, change endpoints
and create deployments interleave, statement by statement, with reconcile passes, from a state in
which production and managed domains point to deployments of their own service and managed domains
are verified, such that the verification of a domain of a project points the domains of the project
only while they all belong to the service of the deployment. In every state reached, every production
or managed domain that points to a deployment points to one of its own service. -/
theorem routed_to_own_service (w : World) (hw : w.RoutesToOwnService) (hv : w.ManagedVerified)
    (c : ApiTeam) (hc : Team.Run apiStarts (fun _ w => w) (fun _ _ => PointsOwnDomains)
      (Team.idle (.ok ()) w) c) : c.state.RoutesToOwnService :=
  (routes_sound.run (routes_sound.follow_idle _ w) ⟨⟨hw, hv⟩, fun _ _ h => nomatch h⟩ hc).2.1.own

def domainsAdmin : Principal where
  userId := 1
  email := "a@acme.io"
  platformAdmin := false
  orgId := 1
  orgRole := .admin
  sessionId := some 1
  apiKeyId := none

/-- Two services with a running deployment each; a domain of the second service points to its
deployment, and a domain of the first waits for its verification. -/
def twoServices : World where
  projects := .single { id := 1, orgId := 1 }
  services := ⟨[{ id := 1, projectId := 1, isPrimary := true }, { id := 2, projectId := 1 }],
    by decide⟩
  deployments := ⟨[{ id := 10, projectId := 1, serviceId := some 1, runningAt := some 2 },
    { id := 20, projectId := 1, serviceId := some 2, runningAt := some 1 }], by decide⟩
  domains := ⟨[{ id := 5, projectId := 1, serviceId := some 2, deploymentId := some 20
                 domainName := "b.acme.io", verifiedAt := some 1 },
    { id := 6, projectId := 1, serviceId := some 1, domainName := "a.acme.io"
      verificationToken := "t" }], by decide⟩

def verifyFirst : Prog ApiOp (Except Err Unit) :=
  ApiRequest.handle (some domainsAdmin) (.verifyProjectDomain (some 1) (some 6))

def verifyFirstOfService : Prog ApiOp (Except Err Unit) :=
  ApiRequest.handle (some domainsAdmin) (.verifyServiceDomain (some 1) (some 6))

/-- The domain is verified by a request about its service, or about the project. -/
def verifiedTeam (p : Prog ApiOp (Except Err Unit)) (n : Nat) : ApiTeam :=
  ((Team.idle (.ok ()) twoServices).begin (.request 0) p).turns
    (List.replicate n (.request 0, [{ texts := ["t"] }]))

theorem verifiedTeam_run (hp : apiStarts (.request 0) p)
    (h : Team.TurnsMeet G ((Team.idle (.ok ()) twoServices).begin (.request 0) p)
      (.replicate n (.request 0, [{ texts := ["t"] }]))) :
    Team.Run apiStarts (fun _ w => w) G (.idle (.ok ()) twoServices) (verifiedTeam p n) :=
  (Team.Run.begin (.request 0) _ rfl hp).trans (Team.Run.turns h)

theorem verifiedOfService_routed :
    (verifiedTeam verifyFirstOfService 7).state.domains.rows.map (·.deploymentId) =
      [some 20, some 10] ∧
    (verifiedTeam verifyFirstOfService 7).state.RoutesToOwnService :=
  ⟨by decide +kernel, routed_to_own_service twoServices (by decide +kernel) (by decide +kernel) _
    (verifiedTeam_run ⟨_, _, rfl⟩ (by decide +kernel))⟩

/-- The verification of a domain of the first service points the domain of the second service at a
deployment of the first. -/
theorem verification_repoints_other_service :
    Team.Run apiStarts (fun _ w => w) (fun _ _ => Prog.unguarded) (Team.idle (.ok ()) twoServices)
      (verifiedTeam verifyFirst 6) ∧
    twoServices.RoutesToOwnService ∧ twoServices.ManagedVerified ∧
    ((verifiedTeam verifyFirst 6).state.domains.find? 5).map (fun x => (x.serviceId, x.deploymentId)) =
      some (some 2, some 10) ∧
    ¬(verifiedTeam verifyFirst 6).state.RoutesToOwnService :=
  ⟨verifiedTeam_run ⟨_, _, rfl⟩ (Team.turnsMeet_unguarded _ _), by decide +kernel, by decide +kernel,
    by decide +kernel, by decide +kernel⟩

end Kindling
