import Kindling.Verify.Routing

/-!
# Host names of preview deployments

The name that is pinned to a preview deployment is made from its commit, its pull request, its service
and its project, and not from the deployment. So a second deployment of a commit, or one whose names join
to the same text, asks for a name that is taken.
-/

namespace Kindling

open Fallible

/-- No call of the database fails, and new ids are new. -/
def Undisturbed : Prog.Guard Action Answer World
  | _, .query _, as, _ | _, .domains _, as, _ => (as.headD default).fail = false
  | _, .newUUID, as, w => w.domains.find? ((as.headD default).uuids 0) = none
  | _, _, _, _ => True

theorem undisturbed_query :
    Ensures Undisturbed (query q) (fun r w' => w' = w ∧ ∃ now, r = q.eval now w) w := by
  refine query_ensures fun as hg => ⟨rfl, (as.headD default).now, ?_⟩
  rw [if_neg (Bool.eq_false_iff.mp hg)]

theorem undisturbed_row {q : Query β} {x : Option β} (hq : ∀ now, q.eval now w = one x)
    (hnone : x = none → R (.error ((Err.of .noRows).wrap c)) w)
    (hsome : ∀ a, x = some a → Ensures Undisturbed (f a) R w) :
    Ensures Undisturbed (context c (query q) >>= f) R w := by
  refine .bind (Q := fun r w' => w' = w ∧ r = (one x).mapError (.wrap c))
    (.wrap (undisturbed_query.mono fun r w' ⟨hw, now, hr⟩ => ⟨hw, by rw [hr, hq]⟩)) ?_ ?_
  · rintro a _ ⟨rfl, ha⟩
    exact hsome a (one_ok (mapError_eq_ok.mp ha.symm))
  · rintro e _ ⟨rfl, he⟩
    cases x with
    | none => exact Except.error.inj he ▸ hnone rfl
    | some a => cases he

theorem undisturbed_domainStmt (s : DomainStmt β) (w : World) :
    Ensures Undisturbed (domainStmt s) (fun r w' => ∃ now, r = (s.exec now w.domains).1 ∧
      w' = w.withDomains (s.exec now w.domains).2) w := by
  refine .ofCall fun as hg => ⟨(as.headD default).now, ?_⟩
  rw [domains_exec, domainStmt_outcome, if_neg (Bool.eq_false_iff.mp hg)]
  exact ⟨rfl, rfl⟩

/-- `DomainFindByDeploymentIDAndKind` for the pinned domain of a deployment. -/
def Domain.pinnedTo (d : Id) (x : Domain) : Bool :=
  x.deploymentId == some d && x.kind == .previewImmutable

/-- `domain_name` is `UNIQUE`. -/
def NamesUnique (t : DomainTable) : Prop := (t.rows.map (·.domainName)).Nodup

instance : Decidable (NamesUnique t) := inferInstanceAs (Decidable (List.Nodup _))

/-- A pinned name leads to the deployment, and to no other. -/
def Pins (t : DomainTable) (d : Id) : Prop := ∃ x ∈ t.rows, x.pinnedTo d = true ∧
    ∀ y ∈ t.rows, y.domainName = x.domainName → y.deploymentId = some d

instance : Decidable (Pins t d) := inferInstanceAs (Decidable (∃ x ∈ t.rows, _))

/-- The routes were written without a violation of uniqueness, and a name is pinned. -/
def Pinned (d : Id) (r : Except Err α) (t : DomainTable) : Prop :=
  (∀ e, r = .error e → e.root ≠ .uniqueViolation) ∧ Pins t d

theorem pinned_ok : Pinned d (.ok a : Except Err α) t ↔ Pins t d := and_iff_right nofun

theorem pinned_error {e : Err} :
    Pinned d (.error e : Except Err α) t ↔ e.root ≠ .uniqueViolation ∧ Pins t d :=
  and_congr_left fun _ => ⟨fun h => h e rfl, fun h _ he => Except.error.inj he ▸ h⟩

theorem pinned_noRows {c : String} :
    Pinned d (.error ((Err.of .noRows).wrap c) : Except Err α) t ↔ Pins t d :=
  pinned_error.trans (and_iff_right (nomatch ·))

theorem pinned_wrap {r : Except Err α} : Pinned d (r.mapError (.wrap c)) t ↔ Pinned d r t := by
  cases r with
  | ok a => exact pinned_ok.trans pinned_ok.symm
  | error e => exact (pinned_error).trans (pinned_error (e := e)).symm

theorem NamesUnique.pins_iff (h : NamesUnique t) : Pins t d ↔ t.rows.any (·.pinnedTo d) = true := by
  rw [List.any_eq_true]
  constructor
  · rintro ⟨x, hx, hpin, -⟩
    exact ⟨x, hx, hpin⟩
  · rintro ⟨x, hx, hpin⟩
    refine ⟨x, hx, hpin, fun y hy hname => ?_⟩
    rw [List.inj_on_of_nodup_map h hy hx hname]
    exact eq_of_beq (Bool.and_eq_true_iff.mp hpin).1

/-- What is looked at here does not change: the names, and which domains are pinned. -/
def SameNames (d : Id) (t t' : DomainTable) : Prop :=
  t'.rows.map (fun x => (x.domainName, x.pinnedTo d)) =
    t.rows.map fun x => (x.domainName, x.pinnedTo d)

theorem SameNames.names (h : SameNames d t t') :
    t'.rows.map (·.domainName) = t.rows.map (·.domainName) := by
  have hfst := congrArg (List.map Prod.fst) h
  simpa only [List.map_map, Function.comp_def] using hfst

theorem SameNames.any_pinned (h : SameNames d t t') :
    t'.rows.any (·.pinnedTo d) = t.rows.any (·.pinnedTo d) := by
  have hsnd := congrArg (List.any · Prod.snd) h
  simpa only [List.any_map, Function.comp_def] using hsnd

theorem updateStableDomain_sameNames :
    Ensures Undisturbed (updateStableDomain dep e)
      (fun r w' => r = .ok () ∧ SameNames dep.id w.domains w'.domains) w := by
  refine .attempt_bind undisturbed_query fun r w' ⟨hw, now, hr⟩ => ?_
  subst hw hr
  split
  · next stable hstable =>
    refine .wrap ((undisturbed_domainStmt _ w').mono fun r w'' ⟨now, hr, hw⟩ => ?_)
    rw [hr, hw]
    refine ⟨rfl, ?_⟩
    have hfound := List.find?_some (one_ok hstable)
    have hmem := List.mem_of_find?_eq_some (one_ok hstable)
    simp only [Bool.and_eq_true, beq_iff_eq] at hfound
    refine (List.map_map ..).trans (List.map_congr_left fun x hx => ?_)
    -- only the stable domain changes, and it is not pinned
    dsimp only [Function.comp_apply]
    split
    · next hid =>
      have hx := Table.eq_of_key_eq hx hmem (by simpa using hid)
      simp [Domain.pinnedTo, hx, hfound.2]
    · rfl
  · exact .pure ⟨rfl, rfl⟩

theorem create_pinned (x : Domain) (hx : x.pinnedTo d = true) (hnew : t.find? x.id = none)
    (now : Time) : Pinned d ((DomainStmt.create x).exec now t).1 ((DomainStmt.create x).exec now t).2 ↔
      x.domainName ∉ t.rows.map (·.domainName) := by
  have hd : x.deploymentId = some d := eq_of_beq (Bool.and_eq_true_iff.mp hx).1
  dsimp only [DomainStmt.exec]
  split
  · next htaken =>
    refine iff_of_false (fun h => h.1 _ rfl rfl) (not_not.mpr ?_)
    simpa using htaken
  · next hfree =>
    have hfree : x.domainName ∉ t.rows.map (·.domainName) := by simpa using hfree
    refine iff_of_true ?_ hfree
    unfold inserting
    split
    · next t' ht' =>
      refine pinned_ok.mpr ⟨_, (Table.mem_insert? ht').mpr (.inr rfl), hx, fun y hy hname => ?_⟩
      rcases (Table.mem_insert? ht').mp hy with hy | rfl
      · exact absurd (List.mem_map.mpr ⟨y, hy, hname⟩) hfree
      · exact hd
    · next hnone =>
      rw [Table.insert?] at hnone
      simp [hnew] at hnone

theorem ensureImmutableDomain_pinned (hnames : NamesUnique w.domains) :
    Ensures Undisturbed (ensureImmutableDomain dep e host) (fun r w' => Pinned dep.id r w'.domains ↔
      w.domains.rows.any (·.pinnedTo dep.id) = true ∨ host ∉ w.domains.rows.map (·.domainName)) w := by
  refine .attempt_bind undisturbed_query fun r w' ⟨hw, now, hr⟩ => ?_
  subst hw
  obtain rfl : r = one (w'.domains.rows.find? (·.pinnedTo dep.id)) := hr
  cases hfind : w'.domains.rows.find? (·.pinnedTo dep.id) with
  | some x =>
    have hany : w'.domains.rows.any (·.pinnedTo dep.id) = true :=
      List.any_eq_true.mpr ⟨x, List.mem_of_find?_eq_some hfind, List.find?_some hfind⟩
    exact .pure (iff_of_true (pinned_ok.mpr (hnames.pins_iff.mpr hany)) (.inl hany))
  | none =>
    have hany : ¬w'.domains.rows.any (·.pinnedTo dep.id) = true := by
      simpa using List.find?_eq_none.mp hfind
    rw [or_iff_right hany]
    refine .bind_ok (Q := fun v w'' => w'' = w' ∧ w'.domains.find? v = none)
      (.ofTotal fun as hg => ⟨_, rfl, rfl, hg⟩) fun v w'' hv => ?_
    obtain ⟨rfl, hnew⟩ := hv
    refine .bind (Q := fun r w₂ => Pinned dep.id r w₂.domains ↔ _)
      (.wrap ((undisturbed_domainStmt _ w'').mono fun r w₂ ⟨now, hr, hw₂⟩ => ?_))
      (fun _ _ h => .pure (pinned_ok.trans (pinned_ok.symm.trans h)))
      fun _ _ h => pinned_error.trans (pinned_error.symm.trans h)
    rw [pinned_wrap, hr, hw₂]
    exact create_pinned _ (by simp [Domain.pinnedTo]) hnew now

/-- The name that the routes of a preview deployment are to pin, when they are written at all. -/
def World.immutableHost (w : World) (dep : Deployment) (proj : Project) : Option String := do
  guard (dep.kind = .preview)
  let envId ← dep.previewEnvironmentId
  let serviceId ← dep.serviceId
  let base ← (w.settings.find? fun p => p.1 == settingPreviewBaseDomain).map (·.2)
  guard ((trimSpace base == "") = false)
  let env ← w.previewEnvironments.find? envId
  let service ← w.services.find? serviceId
  return immutableHostname (shortSha (trimSpace dep.githubCommit)) env.prNumber service.slug proj.name
    (trimSpace base)

/-- Writing the routes of a preview deployment pins a name to it without a violation of uniqueness
just when a name has been pinned to it before, or its name is free. -/
theorem preview_pinned_iff (dep : Deployment) (proj : Project) (w : World)
    (hnames : NamesUnique w.domains) :
    Ensures Undisturbed (ensurePreviewRoutes dep proj) (fun r w' => Pinned dep.id r w'.domains ↔
      w.domains.rows.any (·.pinnedTo dep.id) = true ∨
        ∃ host ∈ w.immutableHost dep proj, host ∉ w.domains.rows.map (·.domainName)) w := by
  have hno : w.immutableHost dep proj = none → (Pins w.domains dep.id ↔
      w.domains.rows.any (·.pinnedTo dep.id) = true ∨
        ∃ host ∈ w.immutableHost dep proj, host ∉ w.domains.rows.map (·.domainName)) := by
    intro h
    simpa [h] using hnames.pins_iff
  unfold ensurePreviewRoutes
  split
  · next hkind => exact .pure (pinned_ok.trans (hno (by simp [World.immutableHost, hkind])))
  next hkind =>
  cases henv : dep.previewEnvironmentId with
  | none => exact .pure (pinned_ok.trans (hno (by simp [World.immutableHost, henv])))
  | some envId =>
  cases hservice : dep.serviceId with
  | none => exact .pure (pinned_ok.trans (hno (by simp [World.immutableHost, hservice])))
  | some serviceId =>
  refine .attempt_bind undisturbed_query ?_
  rintro r w' ⟨rfl, now, hr⟩
  obtain rfl : r = one ((w'.settings.find? fun p => p.1 == settingPreviewBaseDomain).map (·.2)) := hr
  cases hbase : (w'.settings.find? fun p => p.1 == settingPreviewBaseDomain).map (·.2) with
  | none => exact .pure (pinned_ok.trans (hno (by simp [World.immutableHost, hbase])))
  | some base =>
  dsimp only [one]
  split
  · next hblank =>
    exact .pure (pinned_ok.trans (hno (by simp [World.immutableHost, hbase, eq_of_beq hblank])))
  next hblank =>
  refine undisturbed_row (x := w'.previewEnvironments.find? envId) (fun _ => rfl) (fun hx => ?_)
    fun env hx => ?_
  · exact pinned_noRows.trans (hno (by simp [World.immutableHost, henv, hx]))
  refine undisturbed_row (x := w'.services.find? serviceId) (fun _ => rfl) (fun hy => ?_)
    fun service hy => ?_
  · exact pinned_noRows.trans (hno (by simp [World.immutableHost, hservice, hy]))
  have hhost : w'.immutableHost dep proj = some (immutableHostname
      (shortSha (trimSpace dep.githubCommit)) env.prNumber service.slug proj.name (trimSpace base)) := by
    have hblank : ¬trimSpace base = "" := fun h => hblank (beq_iff_eq.mpr h)
    simp [World.immutableHost, not_not.mp hkind, henv, hservice, hbase, hblank, hx, hy]
  refine .bind updateStableDomain_sameNames (fun _ w₁ h => ?_) fun _ _ h => by cases h.1
  have hsame := h.2
  have hnames₁ : NamesUnique w₁.domains := by
    rw [NamesUnique, hsame.names]
    exact hnames
  refine (ensureImmutableDomain_pinned hnames₁).mono fun r w₂ h₂ => h₂.trans ?_
  simp [hhost, hsame.names, hsame.any_pinned]

/-- A commit that has been deployed is deployed again. -/
def redeployedWorld : World where
  settings := [(settingPreviewBaseDomain, "preview.test")]
  services := .single { id := 2, projectId := 1, slug := "web" }
  previewEnvironments := .single { id := 3, prNumber := 7 }
  domains := .single {
    id := 40, projectId := 1, deploymentId := some 10, domainName := "abcdef1-pr7-web-shop.preview.test"
    kind := .previewImmutable, previewEnvironmentId := some 3 }

def redeployment : Deployment :=
  { id := 11, projectId := 1, serviceId := some 2, githubCommit := "abcdef1234", kind := .preview
    previewEnvironmentId := some 3 }

/-- The routes of the second deployment of a commit cannot be written: its name belongs to the first. -/
theorem redeploy_violates_uniqueness :
    let o := (ensurePreviewRoutes redeployment { id := 1, name := "shop" }).outcome [] redeployedWorld
    o.value = .error { root := .uniqueViolation, wraps := ["create immutable preview domain"] } ∧
      ¬Pins o.state.domains 11 := by decide +kernel

/-- The first deployment keeps its name. -/
theorem first_deployment_pinned : NamesUnique redeployedWorld.domains ∧
    Ensures Undisturbed (ensurePreviewRoutes { redeployment with id := 10 } { id := 1, name := "shop" })
      (fun r w' => Pinned 10 r w'.domains) redeployedWorld :=
  ⟨by decide, (preview_pinned_iff { redeployment with id := 10 } _ redeployedWorld (by decide)).mono
    fun _ _ h => h.mpr (.inl rfl)⟩

end Kindling
