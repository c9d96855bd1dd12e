import Kindling.Builder.Builds
import Kindling.Verify.SignedWebhooks
import Mathlib.Data.Fintype.EquivFin

/-!
# Push events

Which services a push concerns, by the rule of the webhook and by that of the builder, and what
is left behind when the deployments of a push cannot all be created.
-/

namespace Kindling

open Fallible

/-! ## The root directory -/

def PushEvent.files (push : PushEvent) : List String :=
  push.commits.flatMap fun c => c.added ++ c.modified ++ c.removed

/-- No component of the path starts or ends with whitespace. -/
def TidyPath (path : List Char) : Prop :=
  ∀ c ∈ path.splitOn '/', c.head?.all (!isSpace ·) ∧ c.getLast?.all (!isSpace ·)

instance : Decidable (TidyPath path) := inferInstanceAs (Decidable (∀ c ∈ path.splitOn '/', _))

variable {path : List Char} {x : Char}

theorem TidyPath.head (h : TidyPath path) (hx : path.head? = some x) : isSpace x = false := by
  cases path with
  | nil => cases hx
  | cons y path =>
    cases hx
    by_cases hslash : x = '/'
    · rw [hslash]
      rfl
    · cases hs : path.splitOn '/' with
      | nil => exact absurd hs (List.splitOn_ne_nil _ _)
      | cons c cs =>
        have hmem : x :: c ∈ (x :: path).splitOn '/' := by
          rw [List.splitOn_cons_eq_if_modifyHead, if_neg (by simpa using hslash), hs]
          exact List.mem_cons_self
        simpa using (h _ hmem).1

theorem exists_component_getLast (hx : path.getLast? = some x) (hslash : x ≠ '/') :
    ∃ c ∈ path.splitOn '/', c.getLast? = some x := by
  induction path with
  | nil => cases hx
  | cons y path ih =>
    rw [List.splitOn_cons_eq_if_modifyHead]
    cases path with
    | nil =>
      have hx : y = x := by simpa using hx
      simp [hx, hslash]
    | cons z path =>
      obtain ⟨c, hc, hlast⟩ := ih hx
      cases hs : (z :: path).splitOn '/' with
      | nil => exact absurd hs (List.splitOn_ne_nil _ _)
      | cons d ds =>
        rw [hs] at hc
        split
        · exact ⟨c, List.mem_cons_of_mem _ hc, hlast⟩
        · rcases List.mem_cons.mp hc with rfl | hc
          · refine ⟨y :: c, List.mem_cons_self, ?_⟩
            cases c with
            | nil => cases hlast
            | cons => exact hlast
          · exact ⟨c, List.mem_cons_of_mem _ hc, hlast⟩

theorem TidyPath.last (h : TidyPath path) (hx : path.getLast? = some x) : isSpace x = false := by
  by_cases hslash : x = '/'
  · rw [hslash]
    rfl
  · obtain ⟨c, hc, hlast⟩ := exists_component_getLast hx hslash
    simpa [hlast] using (h c hc).2

theorem TidyPath.tail (h : TidyPath ('/' :: path)) : TidyPath path := fun c hc =>
  h c (by rw [List.splitOn_cons_eq_if_modifyHead]; exact List.mem_cons_of_mem _ hc)

theorem dropWhile_of_head {l : List Char} (h : ∀ x, l.head? = some x → isSpace x = false) :
    l.dropWhile isSpace = l := by
  cases l with
  | nil => rfl
  | cons x l => rw [List.dropWhile_cons_of_neg (by simp [h x rfl])]

theorem TidyPath.trimSpace {path : String} (h : TidyPath path.toList) : trimSpace path = path := by
  rw [Kindling.trimSpace, dropWhile_of_head fun _ => h.head, dropWhile_of_head, List.reverse_reverse,
    String.ofList_toList]
  intro x hx
  rw [List.head?_reverse] at hx
  exact h.last hx

/-- The webhook's directory, followed by a slash, is what the builder asks a path to start with. -/
theorem hasPrefix_of_passes (hne : trimSuffix "/" (trimPrefix "/" root) ≠ "")
    (h : passesRootFilter root file) :
    hasPrefix file (trimSuffix "/" (trimPrefix "/" root) ++ "/") := by
  unfold passesRootFilter at h
  generalize trimPrefix "/" root = dir at h hne
  have hstart : (if dir != "" && !hasSuffix dir "/" then dir ++ "/" else dir) =
      trimSuffix "/" dir ++ "/" := by
    change ¬(if hasSuffix dir "/" = true then _ else _) = "" at hne
    change _ = (if hasSuffix dir "/" = true then _ else _) ++ "/"
    split at hne
    · next hsuffix =>
      obtain ⟨front, hfront⟩ := List.isSuffixOf_iff_suffix.mp hsuffix
      have hlen : dir.length = front.length + 1 := by
        rw [← String.length_toList, ← hfront, List.length_append]
        rfl
      simp only [hsuffix, Bool.not_true, Bool.and_false, Bool.false_eq_true, if_false]
      rw [← String.toList_inj, ← hfront, hlen, show "/".length = 1 from rfl]
      simp
    · next hsuffix => simp [hsuffix, hne]
  simp_all

theorem isPrefix_rdropWhile {d : List Char} (h : (d ++ ['/']) <+: l) :
    (d ++ ['/']) <+: l.rdropWhile isSpace := by
  obtain ⟨t, rfl⟩ := h
  induction t using List.reverseRecOn with
  | nil => rw [List.append_nil, List.rdropWhile_concat_neg _ _ _ (by decide)]
  | append_singleton t x ih =>
    rw [← List.append_assoc]
    by_cases hx : isSpace x
    · rwa [List.rdropWhile_concat_pos _ _ _ hx]
    · rw [List.rdropWhile_concat_neg _ _ _ hx, List.append_assoc]
      exact List.prefix_append ..

/-- The webhook finds a file that starts with the directory, although it removes spaces and a slash. -/
theorem hasPrefix_trimmed (hspace : ∀ x, dir.toList.head? = some x → isSpace x = false)
    (hslash : hasPrefix dir "/" = false) (hne : dir ≠ "") (h : hasPrefix file (dir ++ "/")) :
    hasPrefix (trimPrefix "/" (trimSpace file)) (dir ++ "/") := by
  have hstart : (dir.toList ++ ['/']) <+: file.toList := by
    simpa [hasPrefix] using h
  cases hd : dir.toList with
  | nil => exact absurd (String.toList_eq_nil_iff.mp hd) hne
  | cons x d =>
    rw [hd] at hstart hspace
    have hhead : file.toList.head? = some x := by
      obtain ⟨t, ht⟩ := hstart
      rw [← ht]
      rfl
    have htrim : (trimSpace file).toList = file.toList.rdropWhile isSpace := by
      rw [trimSpace, String.toList_ofList, dropWhile_of_head fun y hy => hspace y (hhead.symm.trans hy)]
      rfl
    have hkept := isPrefix_rdropWhile hstart
    rw [← htrim] at hkept
    have hx : x ≠ '/' := by
      rintro rfl
      simp [hasPrefix, hd] at hslash
    have hnot : ("/".toList.isPrefixOf (trimSpace file).toList) = false := by
      obtain ⟨t, ht⟩ := hkept
      rw [← ht]
      simp [List.isPrefixOf, Ne.symm hx]
    rw [trimPrefix, hnot, hasPrefix, String.toList_append, hd]
    simpa using hkept

/-- The directory starts like the path, whose first slash has been removed. -/
theorem TidyPath.dir (h : TidyPath root.toList)
    (hx : (trimSuffix "/" (trimPrefix "/" root)).toList.head? = some x) :
    isSpace x = false ∧ (x = '/' → hasPrefix root "//") := by
  have hsub : (trimSuffix "/" (trimPrefix "/" root)).toList <+: (trimPrefix "/" root).toList := by
    unfold trimSuffix
    split
    · rw [String.toList_ofList]
      exact List.take_prefix ..
    · exact List.prefix_rfl
  have hx : (trimPrefix "/" root).toList.head? = some x := by
    obtain ⟨t, ht⟩ := hsub
    rw [← ht, List.head?_append, hx]
    rfl
  cases hr : root.toList with
  | nil => simp [trimPrefix, hr] at hx
  | cons y l =>
    rw [hr] at h
    by_cases hy : y = '/'
    · subst hy
      have hx : l.head? = some x := by
        simpa [trimPrefix, hr, show "/".length = 1 from rfl] using hx
      refine ⟨h.tail.head hx, fun hslash => ?_⟩
      cases l with
      | nil => cases hx
      | cons z l =>
        cases hx
        simp [hasPrefix, hr, hslash]
    · have hx : y = x := by simpa [trimPrefix, hr, Ne.symm hy] using hx
      exact ⟨h.head (congrArg some hx), fun hslash => absurd (hx.trans hslash) hy⟩

theorem skipped_push_concerns_no_file (project : Project) {service : Service} {push : PushEvent}
    (hroot : TidyPath service.rootDirectory.toList)
    (hslash : hasPrefix service.rootDirectory "//" = false ∨
      ∀ file ∈ push.files, hasPrefix file "/" = false)
    (hskip : shouldCreateDeploymentForService service push = false) :
    ∀ file ∈ push.files,
      passesRootFilter (serviceOr project.rootDirectory (some service.rootDirectory)) file = false := by
  intro file hfile
  obtain ⟨files, hfiles, hnone⟩ : ∃ files, pushChangedFiles push = some files ∧
      rootDirectoryMatchesChangedFiles service.rootDirectory files = false := by
    unfold shouldCreateDeploymentForService at hskip
    cases hfiles : pushChangedFiles push with
    | none => simp [hfiles] at hskip
    | some files => exact ⟨files, rfl, by simpa [hfiles] using (Bool.or_eq_false_iff.mp hskip).2⟩
  obtain rfl : push.files = files := by
    unfold pushChangedFiles at hfiles
    split at hfiles
    · cases hfiles
    · dsimp only at hfiles
      split at hfiles
      · cases hfiles
      · exact Option.some.inj hfiles
  unfold rootDirectoryMatchesChangedFiles at hnone
  rw [hroot.trimSpace] at hnone
  dsimp only at hnone
  split at hnone
  · -- every file concerns the whole repository
    rw [Bool.not_eq_false', List.isEmpty_iff] at hnone
    rw [hnone] at hfile
    cases hfile
  · next hdir =>
    simp only [Bool.or_eq_true, beq_iff_eq, not_or] at hdir
    have hservice : serviceOr project.rootDirectory (some service.rootDirectory) =
        service.rootDirectory := by
      simp [serviceOr, hroot.trimSpace, hdir.1.1]
    rw [hservice, ← Bool.not_eq_true]
    intro hpasses
    have hstart := hasPrefix_of_passes hdir.2 hpasses
    refine absurd (List.any_eq_false.mp hnone file hfile) (not_not_intro ?_)
    refine (Bool.or_eq_true _ _).mpr (.inr (hasPrefix_trimmed (fun x hx => (hroot.dir hx).1) ?_ hdir.2 hstart))
    rw [← Bool.not_eq_true]
    intro hslashed
    obtain ⟨t, ht⟩ := List.isPrefixOf_iff_prefix.mp hslashed
    have hdouble := (hroot.dir (x := '/') (by rw [← ht]; rfl)).2 rfl
    refine hslash.elim (fun h => Bool.false_ne_true (h.symm.trans hdouble)) fun h => ?_
    refine Bool.false_ne_true ((h file hfile).symm.trans (List.isPrefixOf_iff_prefix.mpr ?_))
    refine List.IsPrefix.trans ?_ (List.isPrefixOf_iff_prefix.mp hstart)
    rw [String.toList_append, ← ht, List.append_assoc]
    exact List.prefix_append ..

theorem unrelated_push_skipped :
    let service : Service :=
      { id := 1, projectId := 1, rootDirectory := "/api", buildOnlyOnRootChanges := true }
    let push : PushEvent := { ref := "", after := "", commits := [{ modified := ["web/a"] }] }
    TidyPath service.rootDirectory.toList ∧ shouldCreateDeploymentForService service push = false ∧
      ∀ file ∈ push.files, passesRootFilter (serviceOr "" (some service.rootDirectory)) file = false :=
  ⟨by decide, by decide, skipped_push_concerns_no_file { id := 1 } (by decide) (.inl (by decide))
    (by decide)⟩

/-- A root directory with two slashes, and a file with one. -/
theorem slashed_file_skipped :
    let service : Service :=
      { id := 1, projectId := 1, rootDirectory := "//api", buildOnlyOnRootChanges := true }
    let push : PushEvent := { ref := "", after := "", commits := [{ modified := ["/api/a"] }] }
    TidyPath service.rootDirectory.toList ∧ shouldCreateDeploymentForService service push = false ∧
      passesRootFilter (serviceOr "" (some service.rootDirectory)) "/api/a" = true := by
  decide

/-! ## Failures -/

variable {project : Project} {push : PushEvent} {branch : String} {services : List Service}
  {as : List Answer} {w : HookWorld}

def concerned (push : PushEvent) (services : List Service) : List Service :=
  services.filter (shouldCreateDeploymentForService · push)

def createFor (project : Project) (push : PushEvent) (branch : String) (service : Service) :
    Hook Deployment := do
  let id ← hookNewUUID
  orInternal (ofCall (.api (.deploymentCreate
    { id, projectId := project.id, serviceId := some service.id, githubCommit := push.after
      githubBranch := branch })))

theorem createForServices_nil (h : concerned push services = []) :
    (createForServices project push branch services).outcome as w = ⟨.ok 0, w, as⟩ := by
  induction services with
  | nil => rfl
  | cons service services ih =>
    unfold concerned at h
    rw [List.filter_cons] at h
    split at h
    · cases h
    · next hs =>
      rw [createForServices, (Bool.not_eq_true _).mp hs]
      exact ih h

theorem createForServices_cons (project : Project) (branch : String)
    (h : concerned push services = service :: rest) :
    ∃ others, concerned push others = rest ∧ ∀ as w,
      (createForServices project push branch services).outcome as w =
        andThen ((createFor project push branch service).outcome as w) fun _ => do
          let created ← createForServices project push branch others
          return created + 1 := by
  induction services with
  | nil => cases h
  | cons s services ih =>
    unfold concerned at h
    rw [List.filter_cons] at h
    split at h
    · next hs =>
      cases h
      refine ⟨services, rfl, fun as w => ?_⟩
      rw [createForServices, hs]
      -- the fresh identifier comes first on both sides
      exact (outcome_bind hookNewUUID _ as w).trans (outcome_bind ..)
    · next hs =>
      obtain ⟨others, hothers, houtcome⟩ := ih h
      refine ⟨others, hothers, fun as w => ?_⟩
      rw [← houtcome, createForServices, (Bool.not_eq_true _).mp hs]
      rfl

theorem createFor_cases (project : Project) (push : PushEvent) (branch : String) (service : Service)
    (as : List Answer) (w : HookWorld) :
    (∃ e, (createFor project push branch service).outcome as w = ⟨.error e, w, as.tail.tail⟩ ∧
      ((as.tail.headD default).fail = true ∨
        w.db.deployments.find? ((as.headD default).uuids 0) ≠ none)) ∨
    (as.tail.headD default).fail = false ∧ ∃ dep t, dep.id = (as.headD default).uuids 0 ∧
      w.db.deployments.insert? dep = some t ∧ (createFor project push branch service).outcome as w =
        ⟨.ok dep, { w with db := w.db.withDeployments t }, as.tail.tail⟩ := by
  obtain ⟨dep, hid, houtcome⟩ : ∃ dep : Deployment, dep.id = (as.headD default).uuids 0 ∧
      (createFor project push branch service).outcome as w =
        let r := onTable (as.tail.headD default) (inserting · dep) World.deployments
          .withDeployments w.db
        ⟨r.1.mapError fun _ => internalError, { w with db := r.2 }, as.tail.tail⟩ :=
    ⟨{ id := (as.headD default).uuids 0, projectId := project.id, serviceId := some service.id
       githubCommit := push.after, githubBranch := branch
       createdAt := (as.tail.headD default).now }, rfl, rfl⟩
  rw [houtcome, onTable]
  split
  · next hfail => exact .inl ⟨_, rfl, .inl hfail⟩
  · next hfail =>
    unfold inserting
    cases hins : w.db.deployments.insert? dep with
    | some t => exact .inr ⟨(Bool.not_eq_true _).mp hfail, dep, t, hid, hins, rfl⟩
    | none =>
      refine .inl ⟨_, rfl, .inr fun hfresh => ?_⟩
      rw [← hid] at hfresh
      rw [Table.insert?, dif_pos hfresh] at hins
      cases hins

theorem createForServices_error (h : (concerned push services).length ≤ 1)
    (herr : ((createForServices project push branch services).outcome as w).value = .error e) :
    ((createForServices project push branch services).outcome as w).state = w := by
  cases hc : concerned push services with
  | nil =>
    rw [createForServices_nil hc] at herr
    cases herr
  | cons service rest =>
    obtain ⟨others, hothers, houtcome⟩ := createForServices_cons project branch hc
    have hrest : concerned push others = [] := by
      rw [hc, List.length_cons] at h
      rw [hothers, ← List.length_eq_zero_iff]
      omega
    rw [houtcome] at herr ⊢
    rcases createFor_cases project push branch service as w with ⟨e', hcreate, -⟩ |
      ⟨-, dep, t, -, -, hcreate⟩
    · rw [hcreate]
      rfl
    · rw [hcreate, andThen_ok, outcome_bind, createForServices_nil hrest] at herr
      cases herr

/-- With two of them, the second creation may fail after the first. -/
theorem createForServices_partial (project : Project) (branch : String) (w : HookWorld)
    (h : 2 ≤ (concerned push services).length) :
    ∃ as e, ((createForServices project push branch services).outcome as w).value = .error e ∧
      ((createForServices project push branch services).outcome as w).state.db.deployments ≠
        w.db.deployments := by
  obtain ⟨k, hk⟩ : ∃ k, w.db.deployments.find? k = none := by
    obtain ⟨k, hk⟩ := Infinite.exists_notMem_finset (w.db.deployments.rows.map (·.id)).toFinset
    refine ⟨k, Table.find?_eq_none.mpr fun r hr hid => hk ?_⟩
    exact List.mem_toFinset.mpr (hid ▸ List.mem_map_of_mem hr)
  cases hc : concerned push services with
  | nil => simp [hc] at h
  | cons first rest =>
  cases rest with
  | nil => simp [hc] at h
  | cons second rest =>
    obtain ⟨others, hothers, houtcome⟩ := createForServices_cons project branch hc
    obtain ⟨others', -, houtcome'⟩ := createForServices_cons project branch hothers
    refine ⟨[{ uuids := fun _ => k }, {}, {}, { fail := true }], ?_⟩
    rcases createFor_cases project push branch first [{ uuids := fun _ => k }, {}, {}, { fail := true }] w
      with ⟨e, -, hfail | hfresh⟩ | ⟨-, dep, t, hid, hins, hcreate⟩
    · cases hfail
    · exact absurd hk hfresh
    · rw [houtcome, hcreate, andThen_ok, outcome_bind, houtcome']
      rcases createFor_cases project push branch second [{}, { fail := true }]
        { w with db := w.db.withDeployments t } with ⟨e, hsecond, -⟩ | ⟨hfail, -⟩
      · refine ⟨e, ?_, ?_⟩
        · erw [hsecond]
          rfl
        · erw [hsecond]
          intro hsame
          have hfound := Table.find?_insert? hins dep.id
          rw [if_pos rfl] at hfound
          rw [show t = w.db.deployments from hsame, hid] at hfound
          cases hk.symm.trans hfound
      · cases hfail

def deployBranch (push : PushEvent) : Bool :=
  ["main", "master"].contains (trimPrefix "refs/heads/" push.ref)

theorem handlePush_outcome (project : Project) (as : List Answer) (w : HookWorld)
    (hpush : h.tools.unmarshalPush body = some push) (hbranch : deployBranch push) :
    let created := (createForServices project push (trimPrefix "refs/heads/" push.ref)
      (w.servicesOf project.id)).outcome as.tail w
    (handlePush h body project).outcome as w =
      if (as.headD default).fail then ⟨.error internalError, w, as.tail⟩
      else ⟨created.value.map fun n => { status := if n = 0 then 200 else 201 }, created.state,
        created.rest⟩ := by
  have hread : (orInternal (hookQuery (.serviceListByProjectID project.id))).outcome as w =
      if (as.headD default).fail then ⟨.error internalError, w, as.tail⟩
      else ⟨.ok (w.servicesOf project.id), w, as.tail⟩ := by
    refine (outcome_mapError ..).trans ?_
    simp only [hookQuery, outcome_ofCall, Effect.exec, HookOp.exec]
    split <;> rfl
  have hgo : (trimPrefix "refs/heads/" push.ref != "main" &&
      trimPrefix "refs/heads/" push.ref != "master") = false := by
    simpa [deployBranch, or_iff_not_imp_left] using hbranch
  rw [handlePush, hpush]
  change (if _ then _ else _ : Hook HookResponse).outcome as w = _
  rw [hgo, if_neg Bool.false_ne_true, outcome_bind, hread]
  split
  · rfl
  · rw [andThen_ok, outcome_bind, andThen]
    split <;> simp_all [Except.map]

/-- No failure leaves deployments behind exactly when the push concerns at most one service. -/
theorem push_all_or_nothing_iff (h : HookHandler) (body : Bytes) (project : Project) (w : HookWorld) :
    (∀ as e, ((handlePush h body project).outcome as w).value = .error e →
      ((handlePush h body project).outcome as w).state.db.deployments = w.db.deployments) ↔
    ∀ push, h.tools.unmarshalPush body = some push → deployBranch push →
      (concerned push (w.servicesOf project.id)).length ≤ 1 := by
  constructor
  · intro hall push hpush hbranch
    by_contra hmany
    obtain ⟨as, e, herr, hdeps⟩ := createForServices_partial project
      (trimPrefix "refs/heads/" push.ref) w (Nat.lt_of_not_le hmany)
    have hrun := handlePush_outcome project ({} :: as) w hpush hbranch
    refine hdeps ((congrArg (·.state.db.deployments) hrun).symm.trans (hall ({} :: as) e ?_))
    rw [hrun]
    change Except.map _ ((createForServices _ _ _ _).outcome as w).value = _
    rw [herr]
    rfl
  · intro hfew as e herr
    cases hpush : h.tools.unmarshalPush body with
    | none =>
      rw [handlePush, hpush]
      rfl
    | some push =>
      by_cases hbranch : deployBranch push
      · rw [handlePush_outcome project as w hpush hbranch] at herr ⊢
        split at herr
        · next hfail => rw [if_pos hfail]
        · next hfail =>
          rw [if_neg hfail]
          obtain ⟨e', he⟩ : ∃ e', ((createForServices project push (trimPrefix "refs/heads/" push.ref)
              (w.servicesOf project.id)).outcome as.tail w).value = .error e' := by
            revert herr
            cases ((createForServices project push _ (w.servicesOf project.id)).outcome as.tail w).value with
            | error e' => exact fun _ => ⟨e', rfl⟩
            | ok n => exact fun h => by cases h
          exact congrArg (·.db.deployments) (createForServices_error (hfew push hpush hbranch) he)
      · have hskip : (trimPrefix "refs/heads/" push.ref != "main" &&
            trimPrefix "refs/heads/" push.ref != "master") = true := by
          simpa [deployBranch] using hbranch
        rw [handlePush, hpush]
        change ((if _ then _ else _ : Hook HookResponse).outcome as w).state.db.deployments = _
        rw [if_pos hskip]
        rfl

def twoServicesPushed : HookWorld :=
  { db := { services := ⟨[{ id := 1, projectId := 1 }, { id := 2, projectId := 1 }], by decide⟩ } }

/-- The second creation fails, and the next delivery of the push creates both deployments. -/
theorem redelivery_creates_twice :
    let first := (handlePush hookSampleHandler [1] { id := 1 }).outcome
      [{}, {}, {}, {}, { fail := true }] twoServicesPushed
    let second := (handlePush hookSampleHandler [1] { id := 1 }).outcome
      [{}, { uuids := fun _ => 1 }, {}, { uuids := fun _ => 2 }] first.state
    first.value = .error internalError ∧ second.value = .ok { status := 201 } ∧
      second.state.db.deployments.rows.map (fun d => (d.serviceId, d.githubCommit)) =
        [(some 1, "c1"), (some 1, "c1"), (some 2, "c1")] := by
  decide +kernel

end Kindling
