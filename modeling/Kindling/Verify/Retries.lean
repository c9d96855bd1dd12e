import Kindling.Verify.RouteOrder

/-!
# Retried promotions

A promotion marks its deployment running before it writes the routes and drains the deployments it
replaces. A later pass over the same deployment finds `running_at` set and does neither.
-/

namespace Kindling

open Fallible

variable {as : List Answer} {w w' : World} {id : Id} {x : Domain} {y r : Deployment} {d : Deployer}
  {rc : ReconcileContext} {G : Prog.Guard Action Answer World}

/-- The statement on the domains of a service can be executed: it does not fail, and the name it
gives to a domain is free. -/
def DomainStmt.Unobstructed (fail : Bool) (t : DomainTable) : DomainStmt β → Prop
  | .updateDeploymentForService _ _ | .deleteManagedByServiceID _ => fail = false
  | .updateManagedByServiceID s host _ => fail = false ∧
    (∀ x ∈ t, x.domainName = host → x.managedBy s = true) ∧ t.rows.countP (Domain.managedBy s) ≤ 1
  | .create x => x.kind = .serviceManaged →
    fail = false ∧ ∀ y ∈ t, y.domainName ≠ x.domainName ∧ y.id ≠ x.id
  | .updateDeploymentForDomainID _ _ => True

/-- The calls whose failure leaves a switch-over incomplete. Resetting the circuit breaker, reading
the base domain and removing instances are not among them. -/
def switchGuard : Prog.Guard Action Answer World
  | _, .query (.serviceEndpointListByServiceID _), as, _ => (as.headD default).fail = false
  | _, .query (.domainManagedByServiceID _), as, _ => (as.headD default).fail = false
  | _, .query (.deploymentFindRunningAndOlder ..), as, _ => (as.headD default).fail = false
  | _, .deployments (.markStopped _), as, _ => (as.headD default).fail = false
  | _, .domains s, as, w => s.Unobstructed (as.headD default).fail w.domains
  | _, _, _, _ => True

instance (s : DomainStmt β) : Decidable (s.Unobstructed fail t) := by
  unfold DomainStmt.Unobstructed
  induction s using DomainStmt.casesOn <;> infer_instance

instance : Decidable (switchGuard β a as w) := by
  cases a with
  | query q => cases q <;> first | exact instDecidableEqBool _ _ | exact instDecidableTrue
  | deployments s => cases s <;> first | exact instDecidableEqBool _ _ | exact instDecidableTrue
  | domains s => exact inferInstanceAs (Decidable (s.Unobstructed _ w.domains))
  | _ => exact instDecidableTrue

theorem drainGuard_of_switchGuard (h : switchGuard β a as w) : drainGuard β a as w := by
  cases a with
  | query q => cases q <;> first | exact h | trivial
  | deployments s => cases s <;> exact h
  | _ => trivial

theorem domainStmt_returns {s : DomainStmt β}
    (h : ∀ as : List Answer, s.Unobstructed (as.headD default).fail w.domains →
      (as.headD default).fail = false ∧ ∃ b, (s.exec (as.headD default).now w.domains).1 = .ok b) :
    Ensures switchGuard (context c (domainStmt s)) (fun r _ => ∃ b, r = .ok b ∧ True) w := by
  refine .wrap (.ofCall fun as hg => ?_)
  obtain ⟨hfail, b, hb⟩ := h as hg
  rw [domains_exec, domainStmt_outcome, if_neg (Bool.eq_false_iff.mp hfail)]
  exact ⟨b, mapError_eq_ok.mpr hb, trivial⟩

theorem updateManagedByServiceID_ok {host : String}
    (hx : t.rows.find? (Domain.managedBy s) = some x)
    (hname : ∀ x ∈ t, x.domainName = host → x.managedBy s = true)
    (hone : t.rows.countP (Domain.managedBy s) ≤ 1) :
    ∃ b, ((DomainStmt.updateManagedByServiceID s host id).exec now t).1 = .ok b := by
  dsimp only [DomainStmt.exec]
  rw [if_neg ?_]
  · rw [hx]
    exact ⟨_, rfl⟩
  · simp only [Bool.or_eq_true, List.any_eq_true, Bool.and_eq_true, beq_iff_eq,
      decide_eq_true_eq, not_or, not_exists, not_and]
    refine ⟨fun y hy hm hn => ?_, not_lt.mpr hone⟩
    rw [hname y hy hn] at hm
    cases hm

theorem create_ok (h : ∀ y ∈ t, y.domainName ≠ x.domainName ∧ y.id ≠ x.id) :
    ∃ b, ((DomainStmt.create x).exec now t).1 = .ok b := by
  dsimp only [DomainStmt.exec]
  rw [if_neg ?_]
  · unfold inserting Table.insert?
    rw [dif_pos (Table.find?_eq_none.mpr fun y hy => (h y hy).2)]
    exact ⟨_, rfl⟩
  · simp only [List.any_eq_true, beq_iff_eq, not_exists, not_and]
    exact fun y hy => (h y hy).1

theorem ensureManagedDomain_returns :
    Ensures switchGuard (ensureManagedDomain dep service host) (fun r _ => r = .ok ()) w := by
  refine .attempt_bind (Q := fun r w' => w' = w ∧
    r = one (w.domains.rows.find? (Domain.managedBy service.id)))
    (query_ensures fun as hok => ⟨rfl, ?_⟩) fun r w' hr => ?_
  · rw [if_neg (Bool.eq_false_iff.mp hok)]
    rfl
  obtain rfl := hr.1.symm
  rw [hr.2]
  cases hx : w.domains.rows.find? (Domain.managedBy service.id) with
  | some x =>
    refine .bind_ok (domainStmt_returns fun as hg => ?_) fun _ _ _ => .pure rfl
    exact ⟨hg.1, updateManagedByServiceID_ok hx hg.2.1 hg.2.2⟩
  | none =>
    refine .bind_ok (Q := fun _ w' => w' = w) (.ofTotal fun _ _ => ⟨_, rfl, rfl⟩) fun id w' hw => ?_
    refine .bind_ok (domainStmt_returns fun as hg => ?_) fun _ _ _ => .pure rfl
    exact ⟨(hg rfl).1, create_ok (hg rfl).2⟩

theorem publicHTTPEndpoint_returns :
    Ensures switchGuard (publicHTTPEndpoint s) (fun r _ => ∃ e, r = .ok e ∧ True) w := by
  refine .bind_ok (Q := fun _ _ => True) (.wrap (query_ensures fun as hok => ?_))
    fun _ _ _ => .pure ⟨_, rfl, trivial⟩
  rw [if_neg (Bool.eq_false_iff.mp hok)]
  exact ⟨_, rfl, trivial⟩

theorem ensureServiceDomain_returns :
    Ensures switchGuard (ensureServiceDomain dep proj service) (fun r _ => r = .ok ()) w := by
  refine .bind_ok publicHTTPEndpoint_returns fun e w' _ => ?_
  split
  · refine (domainStmt_returns fun as hg => ?_).mono fun _ _ h => h.choose_spec.1
    exact ⟨hg, (), rfl⟩
  · refine .attempt_bind (.true _ _) fun r w' _ => ?_
    split
    · split
      · exact .pure rfl
      · exact ensureManagedDomain_returns
    · exact .pure rfl

theorem ensureProductionRoutes_returns :
    Ensures switchGuard (ensureProductionRoutes dep proj service) (fun r _ => r = .ok ()) w := by
  cases service with
  | none => exact .pure rfl
  | some service =>
    refine .bind_ok (domainStmt_returns fun as hg => ?_) fun _ w' _ => ensureServiceDomain_returns
    exact ⟨hg, (), rfl⟩

/-- A production deployment that is meant to take traffic. -/
def Deployment.serving (x : Deployment) : Bool :=
  x.kind == .production && x.runningAt.isSome && x.live

def World.Has (w : World) (x : Deployment) : Prop := w.deployments.find? x.id = some x

theorem World.Has.unique {x : Deployment} (hx : w.Has x) (hy : w.Has y) (h : x.id = y.id) :
    x = y := by
  have hy' : w.deployments.find? x.id = some y := h ▸ hy
  exact Option.some.inj (hx.symm.trans hy')

/-- Every switch-over is complete: a serving deployment has all domains of its service and is the
only one of its project. Deployments of one service belong to one project. -/
structure Settled (w : World) : Prop where
  routed : ∀ x, w.Has x → x.serving = true → ∀ s, x.serviceId = some s → RoutedTo s x.id w.domains
  alone : ∀ x y, w.Has x → w.Has y → x.serving = true → y.serving = true →
    x.projectId = y.projectId → x.id = y.id
  consistent : ∀ x y s, w.Has x → w.Has y → x.serviceId = some s → y.serviceId = some s →
    x.projectId = y.projectId

/-- `w'` has no deployment, no serving deployment and no domain of a service that `w` did not
have. -/
structure Quieter (w w' : World) : Prop where
  domains : ∀ x ∈ w'.domains, ∀ s, x.ofService s = true → x ∈ w.domains
  rows : ∀ y, w'.Has y → ∃ x, w.Has x ∧ x.id = y.id ∧ x.projectId = y.projectId ∧
    x.serviceId = y.serviceId ∧ (y.serving = true → x.serving = true)

theorem Quieter.refl (w : World) : Quieter w w :=
  ⟨fun _ hx _ _ => hx, fun y hy => ⟨y, hy, rfl, rfl, rfl, id⟩⟩

theorem Quieter.trans (h : Quieter w₁ w₂) (h' : Quieter w₂ w₃) :
    Quieter w₁ w₃ where
  domains x hx s hs := h.domains x (h'.domains x hx s hs) s hs
  rows z hz := by
    obtain ⟨y, hy, hid, hp, hs, hserv⟩ := h'.rows z hz
    obtain ⟨x, hx, hid', hp', hs', hserv'⟩ := h.rows y hy
    exact ⟨x, hx, hid'.trans hid, hp'.trans hp, hs'.trans hs, fun h => hserv' (hserv h)⟩

theorem Quieter.of_eq (hdeps : w'.deployments = w.deployments) (hdoms : w'.domains = w.domains) :
    Quieter w w' where
  domains x hx _ _ := hdoms ▸ hx
  rows y hy := ⟨y, (by rw [World.Has, ← hdeps]; exact hy), rfl, rfl, rfl, id⟩

theorem Quieter.settled (h : Quieter w w') (hs : Settled w) : Settled w' where
  routed y hy hserv s hsvc d hd hof := by
    obtain ⟨x, hx, hid, -, hsvc', hserv'⟩ := h.rows y hy
    rw [← hid]
    exact hs.routed x hx (hserv' hserv) s (hsvc'.trans hsvc) d (h.domains d hd s hof) hof
  alone y y' hy hy' hserv hserv' hp := by
    obtain ⟨x, hx, hid, hpx, -, hsx⟩ := h.rows y hy
    obtain ⟨x', hx', hid', hpx', -, hsx'⟩ := h.rows y' hy'
    rw [← hid, ← hid']
    exact hs.alone x x' hx hx' (hsx hserv) (hsx' hserv') (hpx.trans (hp.trans hpx'.symm))
  consistent y y' s hy hy' hsvc hsvc' := by
    obtain ⟨x, hx, -, hpx, hsx, -⟩ := h.rows y hy
    obtain ⟨x', hx', -, hpx', hsx', -⟩ := h.rows y' hy'
    exact hpx.symm.trans ((hs.consistent x x' s hx hx' (hsx.trans hsvc) (hsx'.trans hsvc')).trans hpx')

/-- Before its promotion a pass only makes the system quieter. -/
theorem Action.KeepsTraffic.exec {a : Action β} (h : a.KeepsTraffic) (as : List Answer) (w : World) :
    Quieter w (Effect.exec a as w).state := by
  cases a with
  | deployments s =>
    rw [deployments_exec, deploymentStmt_outcome]
    split
    · exact .refl w
    refine ⟨fun _ hx _ _ => hx, fun y hy => ?_⟩
    obtain ⟨x, hx, hyx⟩ := DeploymentStmt.find?_exec_cases hy
    have hid : x.id = y.id := Table.find?_key hx
    refine ⟨x, (by rw [World.Has, hid]; exact hx), hid, ?_⟩
    rcases hyx with rfl | rfl
    · exact ⟨rfl, rfl, id⟩
    · cases s with
      | markRunning => exact h.elim
      | updateFailedAt | markStopped =>
        exact ⟨rfl, rfl, by simp [DeploymentStmt.change, Deployment.serving, Deployment.live]⟩
      | _ => exact ⟨rfl, rfl, id⟩
  | domains => exact h.elim
  | _ => refine .of_eq (Action.exec_deployments ?_ as w) (Action.exec_domains ?_ as w) <;> trivial

theorem uses_keepsTraffic_outcome {p : Pass α} (h : Uses Action.KeepsTraffic p) (as : List Answer)
    (w : World) : Quieter w (p.outcome as w).state :=
  Prog.Uses.run h (fun _ _ ha as _ hw => hw.trans (ha.exec as _)) (.refl w)

/-! ## A promotion without failures -/

/-- What a complete switch-over to the row `r` does: the domains of its service lead to it, and every
other deployment that still serves belongs to another project. -/
structure Switched (r : Deployment) (w w' : World) : Prop where
  routed : ∀ s, r.serviceId = some s → RoutedTo s r.id w'.domains
  domains : ∀ x ∈ w'.domains, x ∈ w.domains ∨ ∃ s, r.serviceId = some s ∧ x.ofService s = true
  rows : ∀ y, w'.Has y → ∃ x, w.Has x ∧ x.id = y.id ∧ x.projectId = y.projectId ∧
    x.serviceId = y.serviceId
  others : ∀ y, w'.Has y → y.serving = true → y.id ≠ r.id → w.Has y ∧ y.projectId ≠ r.projectId

theorem Domain.ofService_unique (h : x.ofService s = true) (h' : x.ofService s' = true) :
    s = s' := by
  simp only [Domain.ofService, Bool.and_eq_true, beq_iff_eq] at h h'
  exact Option.some.inj (h.1.symm.trans h'.1)

theorem Switched.settled (h : Switched r w w') (hr : w.Has r) (hs : Settled w) : Settled w' where
  routed y hy hserv s hsvc := by
    by_cases hid : y.id = r.id
    · obtain ⟨x, hx, hxid, -, hxsvc⟩ := h.rows y hy
      obtain rfl := hx.unique hr (hxid.trans hid)
      rw [hid]
      exact h.routed s (hxsvc.trans hsvc)
    · obtain ⟨hy', hproject⟩ := h.others y hy hserv hid
      intro d hd hof
      rcases h.domains d hd with hd | ⟨s', hs', hof'⟩
      · exact hs.routed y hy' hserv s hsvc d hd hof
      · -- a domain of the promoted service cannot be one of another project's service
        obtain rfl := Domain.ofService_unique hof hof'
        exact absurd (hs.consistent y r s hy' hr hsvc hs') hproject
  alone y y' hy hy' hserv hserv' hp := by
    by_cases hid : y.id = r.id
    · by_cases hid' : y'.id = r.id
      · exact hid.trans hid'.symm
      · obtain ⟨x, hx, hxid, hxp, -⟩ := h.rows y hy
        obtain rfl := hx.unique hr (hxid.trans hid)
        exact absurd (hp.symm.trans hxp.symm) (h.others y' hy' hserv' hid').2
    · by_cases hid' : y'.id = r.id
      · obtain ⟨x, hx, hxid, hxp, -⟩ := h.rows y' hy'
        obtain rfl := hx.unique hr (hxid.trans hid')
        exact absurd (hp.trans hxp.symm) (h.others y hy hserv hid).2
      · exact hs.alone y y' (h.others y hy hserv hid).1 (h.others y' hy' hserv' hid').1 hserv hserv' hp
  consistent y y' s hy hy' hsvc hsvc' := by
    obtain ⟨x, hx, -, hpx, hsx⟩ := h.rows y hy
    obtain ⟨x', hx', -, hpx', hsx'⟩ := h.rows y' hy'
    exact hpx.symm.trans ((hs.consistent x x' s hx hx' (hsx.trans hsvc) (hsx'.trans hsvc')).trans hpx')

theorem ensureProductionRoutes_domains (dep : Deployment) (proj : Project)
    (service : Option Service) (as : List Answer) (w : World) :
    ∀ x ∈ ((ensureProductionRoutes dep proj service).outcome as w).state.domains,
      x ∈ w.domains ∨ ∃ s, service.map (·.id) = some s ∧ x.ofService s = true := by
  intro x hx
  cases service with
  | none => exact .inl hx
  | some service =>
    rcases uses_routes_outcome ensureProductionRoutes_routes as w x hx with hx | hx
    · exact .inl hx
    · exact .inr ⟨service.id, rfl, hx.1⟩

theorem Deployment.stoppedAt_of_serving {x : Deployment} (h : x.serving = true) :
    x.stoppedAt = none := by
  simp only [Deployment.serving, Deployment.live, Bool.and_eq_true, Option.isNone_iff_eq_none] at h
  exact h.2.2

theorem mem_findRunningAndOlder_of_serving {x : Deployment} (hx : w.Has x)
    (hserv : x.serving = true) (hid : x.id ≠ id) :
    x ∈ w.findRunningAndOlder x.projectId id := by
  refine mem_findRunningAndOlder.mpr ⟨hx, ?_⟩
  simp only [Deployment.serving] at hserv
  simp [Deployment.runningAndOlder, hserv, hid]

theorem drainOldDeployments_others (hm : Meets switchGuard (drainOldDeployments d current) as w)
    (hy : ((drainOldDeployments d current).outcome as w).state.Has y) (hserv : y.serving = true)
    (hid : y.id ≠ current.id) : w.Has y ∧ y.projectId ≠ current.projectId := by
  have hstop := (((drainOldDeployments_ensures d current w).guard_mono
    fun _ _ _ _ h => drainGuard_of_switchGuard h).outcome hm).2
  have hlive := stopped_of_find? hy (Deployment.stoppedAt_of_serving hserv)
  have hnot : ∀ x ∈ w.findRunningAndOlder current.projectId current.id, x.id ≠ y.id := by
    intro x hx hxy
    have := hstop x hx
    rw [hxy, hlive] at this
    cases this
  have hy' : w.Has y := by
    rw [World.Has, ← (drainOldDeployments_onlyStops d current as w).others y.id
      fun ⟨x, hx, hxy⟩ => hnot x hx hxy]
    exact hy
  refine ⟨hy', fun hp => ?_⟩
  exact hnot y (hp ▸ mem_findRunningAndOlder_of_serving hy' hserv hid) rfl

theorem beforeRoutes_domains (w : World) (id : Id) (as : List Answer) :
    (w.beforeRoutes id as).domains = w.domains := by
  unfold World.beforeRoutes World.circuitReset
  split <;> rfl

/-- A row with given columns comes from a row with the same columns. -/
theorem World.Has.of_columns {γ : Type} {g : Deployment → γ} (hy : w'.Has y)
    (h : (w'.deployments.find? y.id).map g = (w.deployments.find? y.id).map g) :
    ∃ x, w.Has x ∧ x.id = y.id ∧ g x = g y := by
  rw [hy] at h
  obtain ⟨x, hx, hg⟩ := Option.map_eq_some_iff.mp h.symm
  have hid : x.id = y.id := Table.find?_key hx
  exact ⟨x, (by rw [World.Has, hid]; exact hx), hid, hg⟩

/-- **A promotion whose switch-over does not fail switches completely.** -/
theorem routeAndDrain_switched (hkind : rc.dep.kind = .production)
    (hid : rc.dep.id = r.id) (hproject : rc.dep.projectId = r.projectId)
    (hservice : rc.service.map (·.id) = r.serviceId)
    (hm : Meets switchGuard (routeAndDrain d rc) as (w.beforeRoutes rc.dep.id as₀)) :
    Switched r w ((routeAndDrain d rc).outcome as (w.beforeRoutes rc.dep.id as₀)).state := by
  rw [routeAndDrain_production d hkind] at hm ⊢
  have hroutes : Ensures switchGuard
      (context "production routes" (ensureProductionRoutes rc.dep rc.proj rc.service))
      (fun r _ => r = .ok ()) (w.beforeRoutes rc.dep.id as₀) :=
    .wrap (ensureProductionRoutes_returns.mono fun _ _ h => mapError_eq_ok.mpr h)
  have hok := hroutes.outcome (meets_bind.mp hm).1
  have hdeps := productionRoutes_deployments rc as (w.beforeRoutes rc.dep.id as₀)
  have hm₂ := (meets_bind.mp hm).2 () hok
  rw [outcome_bind]
  rcases hout : (context "production routes" (ensureProductionRoutes rc.dep rc.proj
    rc.service)).outcome as (w.beforeRoutes rc.dep.id as₀) with ⟨_ | u, w₂, as₂⟩
  · rw [hout] at hok
    cases hok
  rw [hout] at hdeps hm₂
  have hraw := context_ok.mp hout
  have hdomains := drainOldDeployments_domains d rc.dep as₂ w₂
  constructor
  · intro s hs
    obtain ⟨svc, hsvc, rfl⟩ := Option.map_eq_some_iff.mp (hservice.trans hs)
    rw [andThen_ok, hdomains, ← hid]
    rw [hsvc] at hraw
    exact ensureProductionRoutes_ok hraw
  · intro x hx
    rw [andThen_ok, hdomains] at hx
    have hx' := ensureProductionRoutes_domains rc.dep rc.proj rc.service as
      (w.beforeRoutes rc.dep.id as₀) x
    rw [hraw, beforeRoutes_domains, hservice] at hx'
    exact hx' hx
  · intro y hy
    have hcols := (drainOldDeployments_onlyStops d rc.dep as₂ w₂).columns
      (fun x => (x.projectId, x.serviceId)) (fun _ _ => rfl) y.id
    rw [hdeps, beforeRoutes_columns (fun _ _ => rfl) fun _ => rfl] at hcols
    obtain ⟨x, hx, hxid, hcols⟩ := hy.of_columns hcols
    exact ⟨x, hx, hxid, (Prod.mk.inj hcols).1, (Prod.mk.inj hcols).2⟩
  · intro y hy hserv hne
    obtain ⟨hy₂, hproject₂⟩ := drainOldDeployments_others hm₂ hy hserv (hid ▸ hne)
    rw [World.Has, hdeps, beforeRoutes_others (hid ▸ hne)] at hy₂
    exact ⟨hy₂, hproject ▸ hproject₂⟩

/-! ## Previews -/

def KeepsServiceDomains (t t' : DomainTable) : Prop := ∀ x ∈ t', ∀ s, x.ofService s = true → x ∈ t

theorem Domain.ofService_of_previewKind (h : x.kind = .previewStable ∨ x.kind = .previewImmutable)
    (s : Id) : x.ofService s = false := by
  rcases h with h | h <;> simp [Domain.ofService, h]

theorem updateStableDomain_keeps :
    Ensures G (updateStableDomain dep e)
      (fun _ w' => KeepsServiceDomains w.domains w'.domains) w := by
  refine .attempt_bind (Q := fun r w' => w' = w ∧ ∀ x, r = .ok x → stableDomain e w.domains = some x)
    (query_ensures fun as _ => ⟨rfl, fun x hx => ?_⟩) fun r w' hr => ?_
  · split at hx
    · cases hx
    · exact one_ok hx
  obtain rfl := hr.1.symm
  split
  · next stable =>
    have hfind := hr.2 stable rfl
    have hmem : stable ∈ w.domains := List.mem_of_find?_eq_some hfind
    have hkind : stable.kind = .previewStable := by
      have := List.find?_some hfind
      simp only [Domain.stableOf, Bool.and_eq_true, beq_iff_eq] at this
      exact this.2
    refine .wrap (domainStmt_ensures (fun _ hx _ _ => hx) fun now x hx s hs => ?_)
    rw [World.withDomains_domains] at hx
    dsimp only [DomainStmt.exec] at hx
    obtain ⟨y, hy, rfl⟩ := Table.mem_updateKey.mp hx
    split at hs
    · next hid =>
      -- the changed row is the stable domain, which belongs to no service
      obtain rfl : y = stable := Table.eq_of_key_eq hy hmem (by simpa using hid)
      rw [Domain.ofService_of_previewKind (x := { y with deploymentId := some dep.id })
        (.inl hkind)] at hs
      cases hs
    · next hid => rwa [if_neg hid]
  · exact .pure fun _ hx _ _ => hx

theorem ensureImmutableDomain_keeps :
    Ensures G (ensureImmutableDomain dep e host)
      (fun _ w' => KeepsServiceDomains w.domains w'.domains) w := by
  refine .attempt_bind (Q := fun _ w' => w' = w) (query_ensures fun _ _ => rfl) fun r w' hw => ?_
  obtain rfl := hw.symm
  split
  · split
    · exact .throw fun _ hx _ _ => hx
    refine .bind (Q := fun _ w' => w' = w) (.ofTotal fun _ _ => rfl) (fun id w' hw => ?_)
      fun _ _ hw _ hx _ _ => hw ▸ hx
    obtain rfl := hw.symm
    refine .bind (Q := fun _ w' => KeepsServiceDomains w.domains w'.domains)
      (.wrap (domainStmt_ensures (fun _ hx _ _ => hx) fun now x hx s hs => ?_))
      (fun _ _ h => .pure h) fun _ _ h => h
    dsimp only [DomainStmt.exec] at hx
    split at hx
    · exact hx
    · rcases mem_inserting hx with hx | rfl
      · exact hx
      · cases hs
  · exact .pure fun _ hx _ _ => hx

theorem ensurePreviewRoutes_keeps :
    Ensures G (ensurePreviewRoutes dep proj)
      (fun _ w' => KeepsServiceDomains w.domains w'.domains) w := by
  have hrefl : KeepsServiceDomains w.domains w.domains := fun _ hx _ _ => hx
  unfold ensurePreviewRoutes
  split
  · exact .pure hrefl
  split
  · split
    · refine .attempt_bind (Q := fun _ w' => w' = w) (query_ensures fun _ _ => rfl) fun r w' hw => ?_
      obtain rfl := hw.symm
      split
      · split
        · exact .pure hrefl
        refine .bind (Q := fun _ w' => w' = w) (.wrap (query_ensures fun _ _ => rfl))
          (fun env w' hw => ?_) fun _ _ hw => hw ▸ hrefl
        obtain rfl := hw.symm
        refine .bind (Q := fun _ w' => w' = w) (.wrap (query_ensures fun _ _ => rfl))
          (fun svc w' hw => ?_) fun _ _ hw => hw ▸ hrefl
        obtain rfl := hw.symm
        refine .bind updateStableDomain_keeps (fun _ w₁ h₁ => ?_) fun _ _ h => h
        exact ensureImmutableDomain_keeps.mono fun _ _ h₂ x hx s hs => h₁ x (h₂ x hx s hs) s hs
      · exact .pure hrefl
    · exact .pure hrefl
  · exact .pure hrefl

theorem beforeRoutes_quieter (hr : w.Has r) (hkind : r.kind = .preview) (as : List Answer) :
    Quieter w (w.beforeRoutes r.id as) where
  domains x hx _ _ := beforeRoutes_domains w r.id as ▸ hx
  rows y hy := by
    by_cases hid : y.id = r.id
    · obtain ⟨x, hx, hxid, hcols⟩ := hy.of_columns
        (beforeRoutes_columns (g := fun x => (x.projectId, x.serviceId, x.kind)) (fun _ _ => rfl)
          (fun _ => rfl) w r.id as y.id)
      obtain rfl := hx.unique hr (hxid.trans hid)
      simp only [Prod.mk.injEq] at hcols
      refine ⟨x, hx, hxid, hcols.1, hcols.2.1, fun hserv => ?_⟩
      simp [Deployment.serving, ← hcols.2.2, hkind] at hserv
    · rw [World.Has, beforeRoutes_others hid] at hy
      exact ⟨y, hy, rfl, rfl, rfl, id⟩

theorem promoteDeployment_settled (hs : Settled w) (hr : w.Has r) (hid : rc.dep.id = r.id)
    (hproject : rc.dep.projectId = r.projectId) (hkind : rc.dep.kind = r.kind)
    (hservice : rc.service.map (·.id) = r.serviceId)
    (hm : Meets switchGuard (promoteDeployment d rc) as w) :
    Settled ((promoteDeployment d rc).outcome as w).state := by
  rw [promoteDeployment_outcome]
  split
  · exact hs
  next hrun =>
  split
  · exact hs
  next hmark =>
  have hm' := promoteDeployment_meets hrun hmark hm
  cases hk : r.kind with
  | production =>
    exact (routeAndDrain_switched (hkind.trans hk) hid hproject hservice hm').settled hr hs
  | preview =>
    have hquiet := beforeRoutes_quieter hr hk as
    rw [← hid] at hquiet
    rw [routeAndDrain_preview (hkind.trans hk)] at hm' ⊢
    have hkeeps : Ensures switchGuard (context "preview routes" (ensurePreviewRoutes rc.dep rc.proj))
        (fun _ w' => KeepsServiceDomains (w.beforeRoutes rc.dep.id as).domains w'.domains)
        (w.beforeRoutes rc.dep.id as) := .wrap ensurePreviewRoutes_keeps
    have hdeps := SparesDeployments.outcome (p := context "preview routes"
      (ensurePreviewRoutes rc.dep rc.proj)) (.wrap ensurePreviewRoutes_spares) as.tail.tail
      (w.beforeRoutes rc.dep.id as)
    refine (hquiet.trans ⟨hkeeps.outcome hm', fun y hy => ⟨y, ?_, rfl, rfl, rfl, id⟩⟩).settled hs
    rw [World.Has, ← hdeps]
    exact hy

theorem Resolved.has (h : Resolved id w w' rc D) :
    ∃ r, w'.Has r ∧ r.id = id ∧ r.projectId = D.projectId ∧
      r.kind = D.kind ∧ r.serviceId = D.serviceId ∧ r.runningAt = D.runningAt ∧ r.live = true := by
  have hcols := h.same.own (fun x => (x.id, x.projectId, x.kind, x.serviceId, x.runningAt, x.live))
    fun s hs now r => by cases s <;> first | rfl | exact hs.elim
  rw [h.row] at hcols
  obtain ⟨r, hr, hcols⟩ := Option.map_eq_some_iff.mp hcols
  have hD : D.id = id := Table.find?_key h.row
  simp only [Prod.mk.injEq] at hcols
  obtain ⟨hid, hp, hk, hsvc, hrun, hlive⟩ := hcols
  refine ⟨r, ?_, hid.trans hD, hp, hk, hsvc, hrun, hlive.trans h.live⟩
  rw [World.Has, hid, hD]
  exact hr

theorem EntersPromotion.quieter (h : EntersPromotion d id as w rc as' w') : Quieter w w' := by
  obtain ⟨as₁, w₁, ready, hresolve, hconverge⟩ := h
  have h₁ := uses_keepsTraffic_outcome (resolveDeployment_keepsTraffic d id) as w
  have h₂ := uses_keepsTraffic_outcome (convergeInstances_keepsTraffic d rc) as₁ w₁
  rw [hresolve] at h₁
  rw [hconverge] at h₂
  exact h₁.trans h₂

theorem entersPromotion_or_quieter {id : Id} :
    (∃ rc as' w', EntersPromotion d id as w rc as' w') ∨
      Quieter w ((reconcileDeployment d id).outcome as w).state := by
  have h₁ := uses_keepsTraffic_outcome (resolveDeployment_keepsTraffic d id) as w
  unfold reconcileDeployment
  rw [outcome_bind]
  rcases hresolve : (resolveDeployment d id).outcome as w with ⟨e | _ | rc, w₁, as₁⟩
  · rw [hresolve] at h₁
    exact .inr h₁
  · rw [hresolve] at h₁
    exact .inr h₁
  rw [hresolve] at h₁
  have h₂ := uses_keepsTraffic_outcome (convergeInstances_keepsTraffic d rc) as₁ w₁
  change _ ∨ Quieter w ((reconcileInstances d rc).outcome as₁ w₁).state
  unfold reconcileInstances
  rw [outcome_bind]
  rcases hconverge : (convergeInstances d rc).outcome as₁ w₁ with ⟨e | _ | ready, w₂, as₂⟩
  · rw [hconverge] at h₂
    exact .inr (h₁.trans h₂)
  · rw [hconverge] at h₂
    exact .inr (h₁.trans h₂)
  · exact .inl ⟨rc, as₂, w₂, as₁, w₁, ready, hresolve, hconverge⟩

theorem reconcileDeployment_settled (hs : Settled w)
    (hm : Meets switchGuard (reconcileDeployment d id) as w) :
    Settled ((reconcileDeployment d id).outcome as w).state := by
  rcases entersPromotion_or_quieter with ⟨rc, as', w', h⟩ | h
  · obtain ⟨D, hD⟩ := h.resolved
    obtain ⟨img, hdep⟩ := hD.dep
    obtain ⟨r, hr, hid, hp, hk, hsvc, -, -⟩ := hD.has
    rw [h.outcome]
    refine promoteDeployment_settled (h.quieter.settled hs) hr (hD.id_eq.trans hid.symm) ?_ ?_
      (hD.service.trans hsvc.symm) (h.meets hm)
    · rw [hdep, hp]
    · rw [hdep, hk]
  · exact h.settled hs

/-! ## Runs -/

/-- One pass of some server over some deployment that meets the guard, whatever it returns. -/
def GuardedPass (w w' : World) : Prop :=
  ∃ d id as, Meets switchGuard (reconcileDeployment d id) as w ∧
    w' = ((reconcileDeployment d id).outcome as w).state

theorem run_settled (h₀ : Settled w₀) (hrun : Relation.ReflTransGen GuardedPass w₀ w) :
    Settled w := by
  induction hrun with
  | refl => exact h₀
  | tail _ hpass ih =>
    obtain ⟨d, id, as, hm, rfl⟩ := hpass
    exact reconcileDeployment_settled ih hm

theorem runningAt_beforeRoutes (hr : w.Has r) (as : List Answer) :
    ((w.beforeRoutes r.id as).deployments.find? r.id).map (·.runningAt.isSome) = some true := by
  have hmark : ((w.markedRunning r.id (as.headD default)).deployments.find? r.id).map
      (·.runningAt.isSome) = some true :=
    congrArg (Option.map (·.runningAt.isSome))
      ((DeploymentStmt.markRunning r.id).find?_exec_self (as.headD default).now hr rfl)
  unfold World.beforeRoutes World.circuitReset
  split
  · exact hmark
  · exact (DeploymentStmt.find?_exec_map (fun _ => rfl) _).trans hmark

theorem promoteDeployment_serving (hr : w.Has r) (hid : rc.dep.id = r.id)
    (hkind : r.kind = .production) (hlive : r.live = true) (hrun : rc.dep.runningAt = r.runningAt)
    (hok : ((promoteDeployment d rc).outcome as w).value = .ok ()) :
    ∃ y, ((promoteDeployment d rc).outcome as w).state.Has y ∧ y.serving = true ∧ y.id = r.id ∧
      y.projectId = r.projectId ∧ y.serviceId = r.serviceId := by
  rw [promoteDeployment_outcome] at hok ⊢
  split
  · next hsome =>
    refine ⟨r, hr, ?_, rfl, rfl, rfl⟩
    simp [Deployment.serving, hkind, hlive, ← hrun, hsome]
  next hnone =>
  rw [if_neg hnone] at hok
  split
  · next hfail =>
    rw [if_pos hfail] at hok
    cases hok
  -- the row of the deployment is none of those that are drained
  have hrow := (routeAndDrain_onlyStops d rc as.tail.tail (w.beforeRoutes rc.dep.id as)).others r.id
    fun ⟨x, hx, hxid⟩ => by
      have := (mem_findRunningAndOlder.mp hx).2
      simp [Deployment.runningAndOlder, hid, hxid] at this
  have hcols := beforeRoutes_columns (g := fun x => (x.projectId, x.serviceId, x.kind, x.live))
    (fun _ _ => rfl) (fun _ => rfl) w r.id as r.id
  rw [hr] at hcols
  obtain ⟨y, hy, hcols⟩ := Option.map_eq_some_iff.mp hcols
  have hyrun := runningAt_beforeRoutes hr as
  have hyid : y.id = r.id := Table.find?_key hy
  rw [hy, Option.map_some, Option.some.injEq] at hyrun
  simp only [Prod.mk.injEq] at hcols
  refine ⟨y, ?_, ?_, hyid, hcols.1, hcols.2.1⟩
  · rw [World.Has, hyid, hrow, hid]
    exact hy
  · simp [Deployment.serving, hcols, hkind, hlive, hyrun]

/-- **Complete switch-overs.** In every run of passes none of which fails in a call that the
switch-over depends on, a pass over a live production deployment that has enough ready instances and
returns success leaves every domain of its service pointing to it, and no other deployment of the
project running. -/
theorem retried_promotion_complete {w₀ w w' : World} (h₀ : Settled w₀)
    (hrun : Relation.ReflTransGen GuardedPass w₀ w) {d : Deployer} {id : Id} {as as' : List Answer}
    {rc : ReconcileContext} {D : Deployment}
    (hm : Meets switchGuard (reconcileDeployment d id) as w)
    (henters : EntersPromotion d id as w rc as' w')
    (hok : ((reconcileDeployment d id).outcome as w).value = .ok ())
    (hrow : w.deployments.find? id = some D) (hkind : D.kind = .production) :
    (∀ s, D.serviceId = some s →
      RoutedTo s id ((reconcileDeployment d id).outcome as w).state.domains) ∧
    ((reconcileDeployment d id).outcome as w).state.findRunningAndOlder D.projectId id = [] := by
  have hsettled := reconcileDeployment_settled (run_settled h₀ hrun) hm
  obtain ⟨D', hD⟩ := henters.resolved
  obtain rfl : D' = D := Option.some.inj (hD.row.symm.trans hrow)
  obtain ⟨img, hdep⟩ := hD.dep
  obtain ⟨r, hr, rfl, hp, hk, hsvc, hrunning, hlive⟩ := hD.has
  rw [henters.outcome] at hok hsettled ⊢
  obtain ⟨y, hy, hserv, hyid, hyp, hysvc⟩ := promoteDeployment_serving hr hD.id_eq (hk.trans hkind)
    hlive (by rw [hdep, hrunning]) hok
  constructor
  · intro s hs
    rw [← hyid]
    exact hsettled.routed y hy hserv s (hysvc.trans (hsvc.trans hs))
  · refine List.eq_nil_iff_forall_not_mem.mpr fun x hx => ?_
    obtain ⟨hx, hcond⟩ := mem_findRunningAndOlder.mp hx
    simp only [Deployment.runningAndOlder, Bool.and_eq_true, beq_iff_eq, bne_iff_ne] at hcond
    obtain ⟨⟨⟨⟨hxp, hxk⟩, hxr⟩, hxl⟩, hxid⟩ := hcond
    refine hxid ((hsettled.alone x y hx hy ?_ hserv (hxp.trans (hyp.trans hp).symm)).trans hyid)
    simp [Deployment.serving, hxk, hxr, hxl]

theorem settled_of_rows
    (hrouted : ∀ x ∈ w.deployments.rows, x.serving = true → ∀ y ∈ w.domains.rows,
      y.serviceId = x.serviceId → y.deploymentId = some x.id)
    (halone : ∀ x ∈ w.deployments.rows, ∀ y ∈ w.deployments.rows, x.serving = true →
      y.serving = true → x.projectId = y.projectId → x.id = y.id)
    (hconsistent : ∀ x ∈ w.deployments.rows, ∀ y ∈ w.deployments.rows,
      x.serviceId = y.serviceId → x.projectId = y.projectId) : Settled w where
  routed x hx hserv s hs y hy hof := by
    simp only [Domain.ofService, Bool.and_eq_true, beq_iff_eq] at hof
    exact hrouted x (Table.mem_of_find? hx) hserv y hy (hof.1.trans hs.symm)
  alone x y hx hy := halone x (Table.mem_of_find? hx) y (Table.mem_of_find? hy)
  consistent x y _ hx hy hs hs' :=
    hconsistent x (Table.mem_of_find? hx) y (Table.mem_of_find? hy) (hs.trans hs'.symm)

/-- A new deployment is about to replace a running one, which has the domain of the service. -/
def rolloutWorld : World := { promotableWorld olderRevision olderRevision_other with
    domains := .single (appDomain (some 11)) }

theorem rolloutWorld_settled : Settled rolloutWorld := settled_of_rows (by decide) (by decide) (by decide)

/-- The answers of a pass over `rolloutWorld` in which the update of the service's domains fails. -/
def routeFailure : List Answer := List.replicate 32 default ++ [{ fail := true }]

/-- The state after that pass. -/
def interruptedWorld : World :=
  ((reconcileDeployment { serverId := 5 } 10).outcome routeFailure rolloutWorld).state

/-- The pass fails, its retry succeeds, and neither routes nor drains: the domain still points to the
old deployment, which is still running. -/
theorem retried_promotion_incomplete :
    Settled rolloutWorld ∧
    ((reconcileDeployment { serverId := 5 } 10).outcome routeFailure rolloutWorld).value =
      .error (((Err.of .unavailable).wrap "update service domains").wrap "production routes") ∧
    (∃ rc, EntersPromotion { serverId := 5 } 10 [] interruptedWorld rc [] interruptedWorld) ∧
    ((reconcileDeployment { serverId := 5 } 10).outcome [] interruptedWorld).value = .ok () ∧
    ((reconcileDeployment { serverId := 5 } 10).outcome [] interruptedWorld).state.domains.rows =
      [appDomain (some 11)] ∧
    ((reconcileDeployment { serverId := 5 } 10).outcome [] interruptedWorld).state.findRunningAndOlder
      1 10 = [olderRevision] :=
  ⟨rolloutWorld_settled, rfl, ⟨_, [], _, 1, rfl, rfl⟩, rfl, rfl, rfl⟩

/-- Without a failure the first pass completes the switch-over. -/
theorem rollout_complete :
    (∀ s, newDeployment.serviceId = some s → RoutedTo s 10
      ((reconcileDeployment { serverId := 5 } 10).outcome [] rolloutWorld).state.domains) ∧
    ((reconcileDeployment { serverId := 5 } 10).outcome [] rolloutWorld).state.findRunningAndOlder
      1 10 = [] := by
  have henters : ∃ rc, EntersPromotion { serverId := 5 } 10 [] rolloutWorld rc [] rolloutWorld :=
    ⟨_, [], _, 1, rfl, rfl⟩
  obtain ⟨rc, henters⟩ := henters
  exact retried_promotion_complete (D := newDeployment) rolloutWorld_settled .refl (by decide +kernel)
    henters rfl rfl rfl

end Kindling
