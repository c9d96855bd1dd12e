import Kindling.Verify.Draining

/-!
# Where the routes point

A promotion points the domains of its service, or the stable domain of its preview environment, at
the deployment. None of these writes looks at the deployment the domain pointed to before.
-/

namespace Kindling

open Fallible

variable {s id : Id} {t : DomainTable} {x : Domain} {w : World} {G : Prog.Guard Action Answer World}

theorem domains_exec {s : DomainStmt β} :
    Effect.exec (Action.domains s) as w = (domainStmt s).outcome as w := rfl

theorem domainStmt_outcome (s : DomainStmt β) (as : List Answer) (w : World) :
    (domainStmt s).outcome as w =
      if (as.headD default).fail then ⟨.error (.of .unavailable), w, as.tail⟩
      else ⟨(s.exec (as.headD default).now w.domains).1,
        w.withDomains (s.exec (as.headD default).now w.domains).2, as.tail⟩ := by
  exact onTable_outcome

theorem mem_inserting [DecidableEq κ] {key : ρ → κ} {t : Table κ ρ key} {x y : ρ}
    (h : y ∈ (inserting t x).2) : y ∈ t ∨ y = x := by
  unfold inserting at h
  split at h
  · next ht => exact (Table.mem_insert? ht).mp h
  · exact .inl h

/-- The domains `t'` are those of `t`, except for domains of the service `s` that point to the
deployment `id`. -/
def Reroutes (s id : Id) (t t' : DomainTable) : Prop :=
  ∀ x ∈ t', x ∈ t ∨ (x.ofService s = true ∧ x.deploymentId = some id)

theorem Reroutes.refl : Reroutes s id t t := fun _ hx => .inl hx

theorem Reroutes.trans (h : Reroutes s id t₁ t₂) (h' : Reroutes s id t₂ t₃) : Reroutes s id t₁ t₃ :=
  fun x hx => (h' x hx).elim (h x) .inr

def DomainStmt.RoutesTo (s id : Id) : DomainStmt β → Prop
  | .updateDeploymentForService id' s' => id' = id ∧ s' = s
  | .deleteManagedByServiceID s' => s' = s
  | .updateManagedByServiceID s' _ id' => s' = s ∧ id' = id
  | .updateDeploymentForDomainID _ _ => False
  | .create x => x.ofService s = true ∧ x.deploymentId = some id

theorem Domain.ofService_of_managedBy (h : x.managedBy s = true) : x.ofService s = true := by
  simp only [Domain.managedBy, Bool.and_eq_true] at h
  simp [Domain.ofService, h]

theorem DomainStmt.RoutesTo.exec {stmt : DomainStmt β} (h : stmt.RoutesTo s id) (now : Time)
    (t : DomainTable) : Reroutes s id t (stmt.exec now t).2 := by
  intro x hx
  cases stmt with
  | updateDeploymentForService id' s' =>
    obtain ⟨rfl, rfl⟩ := h
    dsimp only [DomainStmt.exec] at hx
    obtain ⟨y, hy, rfl⟩ := Table.mem_updateWhere.mp hx
    split
    · next hs => exact .inr ⟨hs, rfl⟩
    · exact .inl hy
  | deleteManagedByServiceID s' => exact .inl (Table.mem_keep.mp hx).1
  | updateManagedByServiceID s' host id' =>
    obtain ⟨rfl, rfl⟩ := h
    dsimp only [DomainStmt.exec] at hx
    split at hx
    · exact .inl hx
    · dsimp only [returning] at hx
      obtain ⟨y, hy, rfl⟩ := Table.mem_updateWhere.mp hx
      split
      · next hs => exact .inr ⟨Domain.ofService_of_managedBy hs, rfl⟩
      · exact .inl hy
  | updateDeploymentForDomainID _ _ => exact h.elim
  | create d =>
    dsimp only [DomainStmt.exec] at hx
    split at hx
    · exact .inl hx
    · rcases mem_inserting hx with hx | rfl
      · exact .inl hx
      · exact .inr h

/-- Calls that leave the deployments alone and only point domains of the service `s` at the
deployment `id`. -/
def Action.RoutesTo (s id : Id) (β : Type) : Action β → Prop
  | .deployments _ => False
  | .domains stmt => stmt.RoutesTo s id
  | _ => True

theorem Action.RoutesTo.exec {a : Action β} (h : a.RoutesTo s id) (as : List Answer) (w : World) :
    Reroutes s id w.domains (Effect.exec a as w).state.domains := by
  cases a with
  | domains stmt =>
    rw [domains_exec, domainStmt_outcome]
    split
    · exact .refl
    · exact DomainStmt.RoutesTo.exec h _ _
  | _ =>
    rw [Action.exec_domains ?_ as w]
    · exact .refl
    · trivial

attribute [local simp] Action.RoutesTo DomainStmt.RoutesTo Domain.ofService domainStmt query Reads.read
  context

@[simp] theorem ensureManagedDomain_routes :
    Uses (Action.RoutesTo service.id dep.id) (ensureManagedDomain dep service host) := by
  simp [ensureManagedDomain]

@[simp] theorem ensureServiceDomain_routes (dep : Deployment) (proj : Project) (service : Service) :
    Uses (Action.RoutesTo service.id dep.id) (ensureServiceDomain dep proj service) := by
  simp [ensureServiceDomain, publicHTTPEndpoint, Option.forall]
  intros
  split <;> simp

theorem ensureProductionRoutes_routes :
    Uses (Action.RoutesTo service.id dep.id) (ensureProductionRoutes dep proj (some service)) := by
  simp [ensureProductionRoutes]

theorem uses_routes_outcome {p : Pass α} (h : Uses (Action.RoutesTo s id) p) (as : List Answer)
    (w : World) : Reroutes s id w.domains (p.outcome as w).state.domains :=
  Prog.Uses.run (I := fun w' : World => Reroutes s id w.domains w'.domains) h
    (fun _ _ ha as w' hw' => hw'.trans (ha.exec as w')) (.refl)

def RoutedTo (s id : Id) (t : DomainTable) : Prop :=
  ∀ x ∈ t, x.ofService s = true → x.deploymentId = some id

theorem RoutedTo.reroutes (h : RoutedTo s id t) (h' : Reroutes s id t t') : RoutedTo s id t' :=
  fun x hx hs => (h' x hx).elim (fun hx => h x hx hs) fun hx => hx.2

theorem routedTo_updateDeploymentForService (s id : Id) (now : Time) (t : DomainTable) :
    RoutedTo s id ((DomainStmt.updateDeploymentForService id s).exec now t).2 := by
  intro x hx hs
  dsimp only [DomainStmt.exec] at hx
  obtain ⟨y, hy, rfl⟩ := Table.mem_updateWhere.mp hx
  split
  · rfl
  · next hy' =>
    rw [if_neg hy'] at hs
    exact absurd hs hy'

theorem ensureProductionRoutes_ok
    (h : (ensureProductionRoutes dep proj (some service)).outcome as w = ⟨.ok (), w', as'⟩) :
    RoutedTo service.id dep.id w'.domains := by
  obtain ⟨_, w₁, as₁, hupdate, hrest⟩ := outcome_bind_ok h
  have hrouted : RoutedTo service.id dep.id w₁.domains := by
    rw [context_ok, domainStmt_outcome] at hupdate
    split at hupdate
    · cases hupdate
    · cases hupdate
      exact routedTo_updateDeploymentForService service.id dep.id (as.headD default).now w.domains
  have hmore := uses_routes_outcome (ensureServiceDomain_routes dep proj service) as₁ w₁
  rw [hrest] at hmore
  exact hrouted.reroutes hmore

/-! ## Preview routes -/

theorem query_ensures {q : Query β} (h : ∀ as : List Answer, G _ (.query q) as w →
      Q (if (as.headD default).fail then .error (.of .unavailable)
        else q.eval (as.headD default).now w) w) : Ensures G (query q) Q w := .ofCall h

theorem domainStmt_ensures {s : DomainStmt β} (hfail : Q (.error (.of .unavailable)) w)
    (hok : ∀ now, Q (s.exec now w.domains).1 (w.withDomains (s.exec now w.domains).2)) :
    Ensures G (domainStmt s) Q w := by
  refine .ofCall fun as _ => ?_
  rw [domains_exec, domainStmt_outcome]
  split
  · exact hfail
  · exact hok _

def Domain.stableOf (e : Id) (x : Domain) : Bool :=
  x.previewEnvironmentId == some e && x.kind == .previewStable

def stableDomain (e : Id) (t : DomainTable) : Option Domain := t.rows.find? (Domain.stableOf e)

theorem stableDomain_create (hx : x.kind ≠ .previewStable) :
    stableDomain e ((DomainStmt.create x).exec now t).2 = stableDomain e t := by
  dsimp only [DomainStmt.exec]
  split
  · rfl
  unfold inserting
  split
  · next t' ht =>
    rw [stableDomain, Table.rows_insert? ht]
    simp [Domain.stableOf, hx, stableDomain]
  · rfl

theorem stableDomain_update (hx : stableDomain e t = some x) (id : Id) (now : Time) :
    stableDomain e ((DomainStmt.updateDeploymentForDomainID x.id id).exec now t).2 =
      some { x with deploymentId := some id } := by
  dsimp only [DomainStmt.exec, Table.updateKey, Table.updateWhere, Table.modify]
  have hstable : ∀ y : Domain, Domain.stableOf e
      (if (decide (y.id = x.id) && true) = true then { y with deploymentId := some id } else y) =
        Domain.stableOf e y := by
    intro y
    split <;> rfl
  rw [stableDomain, List.find?_map, Function.comp_def]
  simp only [hstable]
  change Option.map _ (stableDomain e t) = _
  rw [hx]
  simp

/-- The stable domain of the preview environment, if it exists, points to the deployment. -/
def StableTo (e id : Id) (t : DomainTable) : Prop :=
  ∀ x, stableDomain e t = some x → x.deploymentId = some id

/-- The reads without which a preview is promoted silently and its stable domain left alone. -/
def previewGuard : Prog.Guard Action Answer World
  | _, .query (.clusterSettingGet _), as, _ => (as.headD default).fail = false
  | _, .query (.domainFindByPreviewEnvironmentAndKind ..), as, _ => (as.headD default).fail = false
  | _, _, _, _ => True

theorem updateStableDomain_ensures (dep : Deployment) (e : Id) (w : World) :
    Ensures previewGuard (updateStableDomain dep e)
      (fun r w' => r = .ok () → StableTo e dep.id w'.domains) w := by
  refine .attempt_bind (Q := fun r w' => w' = w ∧ r = one (stableDomain e w.domains))
    (query_ensures fun as hok => ⟨rfl, ?_⟩) ?_
  · rw [if_neg (Bool.eq_false_iff.mp hok)]
    rfl
  intro r w' hr
  obtain rfl := hr.1.symm
  rw [hr.2]
  cases hx : stableDomain e w.domains with
  | none =>
    refine .pure fun _ y hy => ?_
    rw [hx] at hy
    cases hy
  | some x =>
    refine .wrap (domainStmt_ensures (fun h => by cases h) fun now _ y hy => ?_)
    rw [World.withDomains_domains, stableDomain_update hx] at hy
    cases hy
    rfl

theorem ensureImmutableDomain_ensures (dep : Deployment) (e e' : Id) (host : String) (w : World) :
    Ensures G (ensureImmutableDomain dep e host)
      (fun _ w' => stableDomain e' w'.domains = stableDomain e' w.domains) w := by
  refine .attempt_bind (Q := fun _ w' => w' = w) (query_ensures fun _ _ => rfl) fun r w' hw => ?_
  obtain rfl := hw.symm
  split
  · split
    · exact .throw rfl
    refine .bind (Q := fun _ w' => w' = w) (.ofTotal fun _ _ => rfl) (fun id w' hw => ?_)
      fun _ _ hw => by rw [hw]
    obtain rfl := hw.symm
    refine .bind (Q := fun _ w' => stableDomain e' w'.domains = stableDomain e' w.domains)
      (.wrap (domainStmt_ensures rfl fun now => stableDomain_create (by simp)))
      (fun _ _ h => .pure h) fun _ _ h => h
  · exact .pure rfl

/-- A preview whose routes have been written, with a base domain configured and no failed read, owns
the stable domain of its environment. -/
theorem ensurePreviewRoutes_ensures {dep : Deployment} (hkind : dep.kind = .preview)
    (henv : dep.previewEnvironmentId = some e) (hservice : dep.serviceId = some s)
    (hbase : (w.settings.find? fun p => p.1 == settingPreviewBaseDomain).map (·.2) = some base)
    (hblank : (trimSpace base == "") = false) :
    Ensures previewGuard (ensurePreviewRoutes dep proj)
      (fun r w' => r = .ok () → StableTo e dep.id w'.domains) w := by
  unfold ensurePreviewRoutes
  rw [henv, hservice, if_neg (by simp [hkind])]
  refine .attempt_bind (Q := fun r w' => w' = w ∧ r = .ok base)
    (query_ensures fun as hok => ⟨rfl, ?_⟩) fun r w' hr => ?_
  · rw [if_neg (Bool.eq_false_iff.mp hok)]
    change one _ = _
    rw [hbase]
    rfl
  obtain rfl := hr.1.symm
  rw [hr.2]
  dsimp only
  rw [if_neg (Bool.eq_false_iff.mp hblank)]
  -- the environment that is read is the one the deployment names
  refine .bind (Q := fun r w' => w' = w ∧ ∀ env, r = .ok env → env.id = e)
    (.wrap (query_ensures fun as _ => ⟨rfl, fun env henv => ?_⟩)) (fun env w' hr => ?_)
    fun _ _ _ h => by cases h
  · split at henv
    · cases henv
    · exact Table.find?_key (one_ok (mapError_eq_ok.mp henv))
  obtain rfl := hr.1.symm
  obtain rfl := hr.2 env rfl
  refine .bind (Q := fun _ w' => w' = w) (.wrap (query_ensures fun _ _ => rfl)) (fun svc w' hw => ?_)
    fun _ _ _ h => by cases h
  obtain rfl := hw.symm
  refine .bind (updateStableDomain_ensures dep env.id w) (fun _ w₁ hstable => ?_)
    fun _ _ _ h => by cases h
  refine (ensureImmutableDomain_ensures dep env.id env.id _ w₁).mono fun _ w₂ h₂ _ x hx => ?_
  exact hstable rfl x (h₂ ▸ hx)

end Kindling
