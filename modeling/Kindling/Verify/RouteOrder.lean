import Kindling.Verify.Routing

/-!
# The order of promotions

Deployments of one service, or of one preview environment, are promoted in whatever order their
builds and instances become ready, and each promotion takes over the route.
-/

namespace Kindling

open Fallible

theorem Action.exec_settings (a : Action β) (as : List Answer) (w : World) :
    (Effect.exec a as w).state.settings = w.settings := by
  cases a with
  | task t => exact (t.exec_sameControl as w).settings
  | query | runtimeHealthy | healthCheck | now | newUUID | scheduleRetry | scheduleServer => rfl
  | _ =>
    exact onTable_elim (P := fun w' => w'.settings = w.settings) rfl fun _ => rfl

theorem outcome_settings (p : Pass α) (as : List Answer) (w : World) :
    (p.outcome as w).state.settings = w.settings :=
  ((Prog.holds_of_call_invariant (I := fun w' : World =>
    w'.settings = w.settings) (fun _ a as w' _ hw' => (a.exec_settings as w').trans hw') p rfl).run
    (Prog.meets_unguarded p as w)).1

/-- Where traffic comes in: through the domains of a service, or through the stable domain of a
preview environment. -/
inductive Route
  | service (s : Id)
  | preview (e : Id)

def World.routeDomains (w : World) : Route → List Domain
  | .service s => w.domains.rows.filter (Domain.ofService s)
  | .preview e => (stableDomain e w.domains).toList

def World.previewsConfigured (w : World) : Prop :=
  ∃ base, (w.settings.find? fun p => p.1 == settingPreviewBaseDomain).map (·.2) = some base ∧
    (trimSpace base == "") = false

structure Promotes (d : Deployer) (as : List Answer) (w : World) (D : Deployment) : Prop where
  row : w.deployments.find? D.id = some D
  fresh : D.runningAt = none
  enters : ∃ rc as' w', EntersPromotion d D.id as w rc as' w'
  ok : ((reconcileDeployment d D.id).outcome as w).value = .ok ()

/-- The promotion is one of the route. For a preview this asks that the reads its route depends on
do not fail: the pass skips the route silently when they do. -/
def Route.IsFor (d : Deployer) (as : List Answer) (w : World) (D : Deployment) : Route → Prop
  | .service s => D.kind = .production ∧ D.serviceId = some s
  | .preview e => D.kind = .preview ∧ D.previewEnvironmentId = some e ∧ D.serviceId.isSome = true ∧
      w.previewsConfigured ∧ Meets previewGuard (reconcileDeployment d D.id) as w

theorem Promotes.routeAndDrain_ok (h : Promotes d as w D) :
    ∃ rc as' w' as₂ w₂, EntersPromotion d D.id as w rc as' w' ∧
      Resolved D.id w w' rc D ∧ ¬rc.dep.runningAt.isSome = true ∧ ¬(as'.headD default).fail = true ∧
      (routeAndDrain d rc).outcome as'.tail.tail (w'.beforeRoutes rc.dep.id as') =
        ⟨.ok (), w₂, as₂⟩ ∧ ((reconcileDeployment d D.id).outcome as w).state = w₂ := by
  obtain ⟨rc, as', w', henters⟩ := h.enters
  obtain ⟨D', hD⟩ := henters.resolved
  obtain rfl : D' = D := Option.some.inj (hD.row.symm.trans h.row)
  obtain ⟨img, hdep⟩ := hD.dep
  have hrun : ¬rc.dep.runningAt.isSome = true := by simp [hdep, h.fresh]
  have hok := h.ok
  rw [henters.outcome, promoteDeployment_outcome, if_neg hrun] at hok ⊢
  split at hok
  · cases hok
  next hmark =>
  rcases hout : (routeAndDrain d rc).outcome as'.tail.tail (w'.beforeRoutes rc.dep.id as') with
    ⟨_ | _, w₂, as₂⟩
  · rw [hout] at hok
    cases hok
  · refine ⟨rc, as', w', as₂, w₂, henters, hD, hrun, hmark, hout, ?_⟩
    rw [if_neg hmark]

theorem EntersPromotion.settings {id : Id} (h : EntersPromotion d id as w rc as' w') :
    (w'.beforeRoutes rc.dep.id as').settings = w.settings := by
  obtain ⟨as₁, w₁, ready, hresolve, hconverge⟩ := h
  have h₁ := outcome_settings (resolveDeployment d id) as w
  have h₂ := outcome_settings (convergeInstances d rc) as₁ w₁
  rw [hresolve] at h₁
  rw [hconverge] at h₂
  unfold World.beforeRoutes World.circuitReset
  split <;> exact h₂.trans h₁

theorem drainOldDeployments_domains (d : Deployer) (current : Deployment) (as : List Answer)
    (w : World) : ((drainOldDeployments d current).outcome as w).state.domains = w.domains := by
  rw [drainOldDeployments_outcome]
  split
  · rfl
  · exact uses_stops_domains (.forEach fun x _ => drainDeployment_stops (S := fun _ => True) d trivial) _ w

theorem Promotes.points (h : Promotes d as w D) (hr : r.IsFor d as w D) :
    ∀ x ∈ ((reconcileDeployment d D.id).outcome as w).state.routeDomains r,
      x.deploymentId = some D.id := by
  obtain ⟨rc, as', w', as₂, w₂, henters, hD, hrun, hmark, hout, hend⟩ := h.routeAndDrain_ok
  obtain ⟨img, hdep⟩ := hD.dep
  have hid := hD.id_eq
  rw [hend]
  cases r with
  | service s =>
    obtain ⟨hkind, hservice⟩ := hr
    rw [routeAndDrain_production d (by rw [hdep, ← hkind])] at hout
    obtain ⟨_, w₁, as₁, hroutes, hdrain⟩ := outcome_bind_ok hout
    have hdomains := drainOldDeployments_domains d rc.dep as₁ w₁
    rw [hdrain] at hdomains
    obtain ⟨svc, hsvc, hs⟩ := Option.map_eq_some_iff.mp (hD.service.trans hservice)
    rw [context_ok, hsvc] at hroutes
    have hrouted := ensureProductionRoutes_ok hroutes
    rw [hs, hid, ← hdomains] at hrouted
    intro x hx
    obtain ⟨hx, hof⟩ := List.mem_filter.mp hx
    exact hrouted x hx hof
  | preview e =>
    obtain ⟨hkind, henv, hservice, ⟨base, hbase, hblank⟩, hm⟩ := hr
    obtain ⟨s, hs⟩ := Option.isSome_iff_exists.mp hservice
    have hmeets := promoteDeployment_meets hrun hmark (henters.meets hm)
    rw [routeAndDrain_preview (by rw [hdep, ← hkind])] at hout hmeets
    rw [← henters.settings] at hbase
    have hroutes : Ensures previewGuard (context "preview routes" (ensurePreviewRoutes rc.dep rc.proj))
        (fun r w' => r = .ok () → StableTo e rc.dep.id w'.domains) (w'.beforeRoutes rc.dep.id as') :=
      .wrap ((ensurePreviewRoutes_ensures (by rw [hdep, ← hkind]) (by rw [hdep, ← henv])
        (by rw [hdep, ← hs]) hbase hblank).mono fun _ _ hr h => hr (mapError_eq_ok.mp h))
    have hstable := hroutes.outcome hmeets
    rw [hout] at hstable
    intro x hx
    rw [← hid]
    exact hstable rfl x (Option.mem_toList.mp hx)

/-! ## Histories of promotions -/

/-- A history of a route: the promotions that have completed on it, latest first, each with the state
it ended in. In between anything may happen that leaves the domains of the route alone. `created`
gives the creation times, which never change. -/
inductive History (r : Route) (created : Id → Time) : World → List (Id × World) → Prop
  | start (w : World) : History r created w []
  | promote {w : World} {l : List (Id × World)} {d : Deployer} {as : List Answer} {D : Deployment}
      (before : History r created w l) (promotes : Promotes d as w D) (isFor : r.IsFor d as w D)
      (created_eq : created D.id = D.createdAt) :
      History r created ((reconcileDeployment d D.id).outcome as w).state
        ((D.id, ((reconcileDeployment d D.id).outcome as w).state) :: l)
  | other {w w' : World} {l : List (Id × World)} (before : History r created w l)
      (same : w'.routeDomains r = w.routeDomains r) : History r created w' l

/-- After each promotion, every domain of the route points to a deployment created last among those
promoted so far. -/
def NeverBackwards (r : Route) (created : Id → Time) : List (Id × World) → Prop
  | [] => True
  | (id, w) :: l =>
    (∀ x ∈ w.routeDomains r, ∃ i ∈ id :: l.map (·.1), x.deploymentId = some i ∧
      ∀ j ∈ id :: l.map (·.1), created j ≤ created i) ∧ NeverBackwards r created l

def earlierRevision : Deployment := { newDeployment with id := 11, createdAt := 4 }

def appDomain (deploymentId : Option Id) : Domain :=
  { id := 40, projectId := 1, serviceId := some 2, deploymentId, domainName := "app.example" }

/-- Two revisions of a service are ready; neither has been promoted. -/
def twoRevisions : World := { oneServerWorld with
    deployments := ⟨[newDeployment, earlierRevision], by decide⟩
    instances := ⟨[
      { id := 20, deploymentId := 10, serverId := some 5, vmId := some 30, status := .running },
      { id := 21, deploymentId := 11, serverId := some 5, vmId := some 31, status := .running }],
      by decide⟩
    vms := ⟨[ { id := 30, serverId := 5, imageId := 4, status := .running },
      { id := 31, serverId := 5, imageId := 4, status := .running }], by decide⟩
    running := [{ server := 5, inst := 20 }, { server := 5, inst := 21 }]
    domains := .single (appDomain none) }

def revisionCreated (id : Id) : Time := if id = 10 then 5 else 4

def afterPass (id : Id) (w : World) : World :=
  ((reconcileDeployment { serverId := 5 } id).outcome [] w).state

theorem history_newer_first : History (.service 2) revisionCreated
    (afterPass 11 (afterPass 10 twoRevisions))
    [(11, afterPass 11 (afterPass 10 twoRevisions)), (10, afterPass 10 twoRevisions)] :=
  .promote (D := earlierRevision) (.promote (D := newDeployment) (.start twoRevisions)
      ⟨rfl, rfl, ⟨_, [], _, [], _, 1, rfl, rfl⟩, rfl⟩ ⟨rfl, rfl⟩ rfl)
    ⟨rfl, rfl, ⟨_, [], _, [], _, 1, rfl, rfl⟩, rfl⟩ ⟨rfl, rfl⟩ rfl

theorem history_older_first : History (.service 2) revisionCreated
    (afterPass 10 (afterPass 11 twoRevisions))
    [(10, afterPass 10 (afterPass 11 twoRevisions)), (11, afterPass 11 twoRevisions)] :=
  .promote (D := newDeployment) (.promote (D := earlierRevision) (.start twoRevisions)
      ⟨rfl, rfl, ⟨_, [], _, [], _, 1, rfl, rfl⟩, rfl⟩ ⟨rfl, rfl⟩ rfl)
    ⟨rfl, rfl, ⟨_, [], _, [], _, 1, rfl, rfl⟩, rfl⟩ ⟨rfl, rfl⟩ rfl

end Kindling
