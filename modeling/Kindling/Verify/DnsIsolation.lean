import Mathlib.Data.List.Dedup
import Kindling.WorkerDns.Resolver

/-!
# What the DNS of the workers gives away

Addresses are given only to callers of the organization and the environment that the name stands for.
-/

namespace Kindling
open Fallible

theorem mem_of_pickRow (h : pickRow pick rows = .ok r) : r ∈ rows := by
  unfold pickRow at h
  cases hget : rows[pick % rows.length]? with
  | none =>
    rw [hget] at h
    cases h
  | some x =>
    rw [hget] at h
    cases h
    exact List.mem_of_getElem? hget

theorem mem_latest : r ∈ latest ord rows ↔ r ∈ rows ∧ ∀ r' ∈ rows, ord r' ≤ ord r := by
  simp [latest]

theorem one_eq_ok (h : one o = .ok r) : o = some r := by
  cases o with
  | none => cases h
  | some x =>
    cases h
    rfl

section logic
variable {db : DnsWorld} {G : Prog.Guard DnsOp DnsAnswer DnsWorld}

theorem dnsQuery_keeps : Keeps G (· = db) (dnsQuery q) fun v => ∃ pick, q.eval pick db = .ok v := by
  refine .ofCall fun as s _ hs => ?_
  subst hs
  refine ⟨rfl, fun v hv => ?_⟩
  change (if (as.headD default).fail then _ else _) = _ at hv
  split at hv
  · cases hv
  · exact ⟨_, hv⟩

theorem ifAny_keeps (h : Keeps G (· = db) p Q) :
    Keeps G (· = db) (ifAny p) fun o => ∀ a, o = some a → Q a := by
  refine .bind h.attempt fun r hr => ?_
  cases r with
  | ok a =>
    refine .pure fun a' ha => ?_
    cases ha
    exact hr a rfl
  | error e => exact .ite (fun _ => .pure nofun) fun _ => .throw

end logic

/-! ## Callers and services -/

/-- The VM is the newest live one with the address, one of its live instances is of the deployment, and
the deployment's project belongs to the organization. -/
structure CallerIs (db : DnsWorld) (ip : Nat) (vm : Vm) (dep : Deployment) (org : Id) : Prop where
  vm_mem : vm ∈ db.vms
  live : vm.deletedAt = none
  address : vm.ipAddress = ip
  newest : ∀ vm' ∈ db.vms, vm'.deletedAt = none → vm'.ipAddress = ip → vm'.createdAt ≤ vm.createdAt
  instance_of : ∃ i ∈ db.instances, i.deletedAt = none ∧ i.vmId = some vm.id ∧ i.deploymentId = dep.id
  dep_mem : dep ∈ db.deployments
  dep_live : dep.deletedAt = none
  project : ∃ p ∈ db.projects, p.id = dep.projectId ∧ p.orgId = org

structure Names (tools : NameTools) (db : DnsWorld) (target : InternalName) (service : Service)
    (project : Project) (org : Id) : Prop where
  service_mem : service ∈ db.services
  project_mem : project ∈ db.projects
  project_of : service.projectId = project.id
  org_of : project.orgId = org
  slug : service.slug = target.service
  label : normalizeLabel tools project.name = target.project
  endpoint : ∃ e ∈ db.endpoints, e.serviceId = service.id ∧
    tools.sqlLower e.name = tools.sqlLower target.endpoint
  org_slug : ∃ o ∈ db.organizations, o.id = org ∧ o.slug = target.organization

/-- The environment that the name gives is that of the caller's deployment, and the deployments `d` that
may answer are those of the service in it. -/
inductive InEnvironment (db : DnsWorld) (dep : Deployment) (project : Project) :
    String → (Deployment → Prop) → Prop
  | production (h : dep.kind = .production) : InEnvironment db dep project "prod" (·.kind = .production)
  | preview {env : PreviewEnvironment} (h : dep.kind = .preview) (hmem : env ∈ db.previewEnvironments)
      (hdep : dep.previewEnvironmentId = some env.id) (hproject : env.projectId = project.id) :
    InEnvironment db dep project ("pr-" ++ toString env.prNumber)
      fun d => d.kind = .preview ∧ d.previewEnvironmentId = some env.id

def Deployment.RunsFor (d : Deployment) (service : Service) : Prop :=
  d.serviceId = some service.id ∧ d.runningAt.isSome ∧ d.live = true

/-- The deployment is the one of those that has been running for the service for the shortest time. -/
structure LatestRunning (db : DnsWorld) (service : Service) (among : Deployment → Prop)
    (d : Deployment) : Prop where
  mem : d ∈ db.deployments
  eligible : among d
  runs : d.RunsFor service
  latest : ∀ d' ∈ db.deployments, among d' → d'.RunsFor service → d'.runningAt.getD 0 ≤ d.runningAt.getD 0

def BackendOf (db : DnsWorld) (d : Deployment) (ip : Nat) : Prop :=
  ∃ i ∈ db.instances, ∃ vm ∈ db.vms, i.deploymentId = d.id ∧ i.deletedAt = none ∧ i.role = .active ∧
    i.status = .running ∧ i.vmId = some vm.id ∧ vm.deletedAt = none ∧ vm.status = .running ∧
    vm.ipAddress = ip

/-- What an answer with addresses is allowed to be. -/
structure Isolated (tools : NameTools) (db : DnsWorld) (ip : Nat) (qname : String) (ips : List Nat) :
    Prop where
  justified : ∃ target vm dep org service project among backend,
    parseInternalName tools qname = some target ∧ CallerIs db ip vm dep org ∧
    Names tools db target service project org ∧
    (∀ service' project' org', Names tools db target service' project' org' → service' = service) ∧
    InEnvironment db dep project target.environment among ∧
    LatestRunning db service among backend ∧ ∀ a ∈ ips, BackendOf db backend a

section caller
variable {db : DnsWorld} {G : Prog.Guard DnsOp DnsAnswer DnsWorld}

inductive EnvironmentOf (db : DnsWorld) (dep : Deployment) : CallerIdentity → Prop
  | production {org project : Id} (h : dep.kind = .production) :
    EnvironmentOf db dep { organizationId := org, projectId := project }
  | preview {org project : Id} {env : PreviewEnvironment} (h : dep.kind = .preview)
      (hmem : env ∈ db.previewEnvironments) (hdep : dep.previewEnvironmentId = some env.id) :
    EnvironmentOf db dep
      { organizationId := org, projectId := project, previewEnvironmentId := some env.id
        envSlug := if env.prNumber > 0 then "pr-" ++ toString env.prNumber else "preview" }

theorem eval_vmFindByIPAddress (h : (DnsQuery.vmFindByIPAddress ip).eval pick db = .ok vm) :
    vm ∈ db.vms ∧ vm.deletedAt = none ∧ vm.ipAddress = ip ∧
      ∀ vm' ∈ db.vms, vm'.deletedAt = none → vm'.ipAddress = ip → vm'.createdAt ≤ vm.createdAt := by
  obtain ⟨hmem, hnewest⟩ := mem_latest.mp (mem_of_pickRow h)
  simp only [List.mem_filter, Vm.undeleted, Bool.and_eq_true, beq_iff_eq, Option.isNone_iff_eq_none] at hmem hnewest
  exact ⟨hmem.1, hmem.2.2, hmem.2.1, fun vm' hvm' hlive hip => hnewest vm' ⟨hvm', hip, hlive⟩⟩

theorem eval_deploymentFindByVMID (h : (DnsQuery.deploymentFindByVMID vmId).eval pick db = .ok dep)
    :
    dep ∈ db.deployments ∧ dep.deletedAt = none ∧
      ∃ i ∈ db.instances, i.deletedAt = none ∧ i.vmId = some vmId ∧ i.deploymentId = dep.id := by
  obtain ⟨i, hi, hdep⟩ := List.mem_filterMap.mp (mem_of_pickRow h)
  simp only [List.mem_filter, DeploymentInstance.undeleted, Bool.and_eq_true, beq_iff_eq,
    Option.isNone_iff_eq_none] at hi
  obtain ⟨hfind, hlive⟩ := Option.filter_eq_some_iff.mp hdep
  exact ⟨Table.mem_of_find? hfind, by simpa using hlive, i, hi.1, hi.2.2, hi.2.1,
    (Table.find?_key hfind).symm⟩

theorem lookupCallerByIP_keeps :
    Keeps G (· = db) (lookupCallerByIP ip) fun o => ∀ c, o = some c →
      ∃ vm dep, CallerIs db ip vm dep c.organizationId ∧ EnvironmentOf db dep c := by
  refine .bind (ifAny_keeps dnsQuery_keeps) fun vm? hvm => ?_
  cases vm? with
  | none => exact .pure nofun
  | some vm =>
    obtain ⟨_, heval⟩ := hvm vm rfl
    obtain ⟨hvm, hlive, hip, hnewest⟩ := eval_vmFindByIPAddress heval
    refine .bind (ifAny_keeps dnsQuery_keeps) fun dep? hdep => ?_
    cases dep? with
    | none => exact .pure nofun
    | some dep =>
      obtain ⟨_, heval⟩ := hdep dep rfl
      obtain ⟨hdep, hdeplive, hinst⟩ := eval_deploymentFindByVMID heval
      refine .bind dnsQuery_keeps fun project ⟨_, hproject⟩ => .bind dnsQuery_keeps
        fun org ⟨_, horg⟩ => ?_
      have hproject := one_eq_ok hproject
      have horg := one_eq_ok horg
      have hcaller : CallerIs db ip vm dep org.id := ⟨hvm, hlive, hip, hnewest, hinst, hdep, hdeplive,
        project, Table.mem_of_find? hproject, Table.find?_key hproject, (Table.find?_key horg).symm⟩
      cases hkind : dep.kind with
      | production =>
        refine .pure fun c hc => ?_
        cases hc
        exact ⟨vm, dep, hcaller, .production hkind⟩
      | preview =>
        dsimp only
        split
        · exact .pure nofun
        · rename_i id hid
          refine .bind dnsQuery_keeps fun env ⟨_, henv⟩ => .pure fun c hc => ?_
          have henv := one_eq_ok henv
          cases hc
          refine ⟨vm, dep, hcaller, .preview hkind (Table.mem_of_find? henv) ?_⟩
          rw [hid]
          exact congrArg some (Table.find?_key henv).symm

end caller

section services
variable {tools : NameTools} {db : DnsWorld} {target : InternalName}

theorem names_of_candidate (he : e ∈ db.endpoints)
    (h : db.candidate tools target.endpoint target.service target.organization e = some c)
    (hlabel : normalizeLabel tools c.projectName = target.project) :
    ∃ service project, Names tools db target service project c.organizationId ∧
      c.serviceId = service.id ∧ c.projectId = project.id := by
  simp only [DnsWorld.candidate, Option.bind_eq_bind, Option.bind_eq_some_iff,
    Option.ite_none_right_eq_some, Bool.and_eq_true, beq_iff_eq, Option.some.injEq] at h
  obtain ⟨service, hservice, project, hproject, org, horg, ⟨⟨hname, hslug⟩, horgslug⟩, rfl⟩ := h
  exact ⟨service, project, ⟨Table.mem_of_find? hservice, Table.mem_of_find? hproject,
    (Table.find?_key hproject).symm, (Table.find?_key horg).symm, hslug, hlabel,
    ⟨e, he, (Table.find?_key hservice).symm, hname⟩, org, Table.mem_of_find? horg, rfl, horgslug⟩, rfl, rfl⟩

/-- Every service that the name stands for is a row of the join. -/
theorem Names.candidate (h : Names tools db target service project org) :
    { serviceId := service.id, projectId := project.id, organizationId := org,
      projectName := project.name : EndpointCandidate } ∈
      db.endpoints.rows.filterMap
        (db.candidate tools target.endpoint target.service target.organization) := by
  obtain ⟨e, he, heservice, hename⟩ := h.endpoint
  obtain ⟨o, ho, hoid, hoslug⟩ := h.org_slug
  have hservice : db.services.find? e.serviceId = some service :=
    Table.find?_eq_some.mpr ⟨h.service_mem, heservice.symm⟩
  have hproject : db.projects.find? service.projectId = some project :=
    Table.find?_eq_some.mpr ⟨h.project_mem, h.project_of.symm⟩
  have horg : db.organizations.find? project.orgId = some o :=
    Table.find?_eq_some.mpr ⟨ho, hoid.trans h.org_of.symm⟩
  refine List.mem_filterMap.mpr ⟨e, he, ?_⟩
  simp [DnsWorld.candidate, hservice, hproject, horg, hename, h.slug, hoslug, hoid]

theorem selectEndpointCandidate_eq_some
    (h : selectEndpointCandidate tools candidates label = some c) :
    (candidates.filter fun c => normalizeLabel tools c.projectName == label) = [c] := by
  unfold selectEndpointCandidate at h
  split at h
  · cases h
    assumption
  · cases h

theorem names_of_select (h : selectEndpointCandidate tools (db.endpoints.rows.filterMap
      (db.candidate tools target.endpoint target.service target.organization)) target.project = some c)
    :
    ∃ service project, Names tools db target service project c.organizationId ∧
      c.serviceId = service.id ∧ c.projectId = project.id ∧
      ∀ service' project' org', Names tools db target service' project' org' → service' = service := by
  have hone := selectEndpointCandidate_eq_some h
  have hc : c ∈ [c] := List.mem_singleton_self c
  rw [← hone, List.mem_filter, List.mem_filterMap, beq_iff_eq] at hc
  obtain ⟨⟨e, he, hcandidate⟩, hlabel⟩ := hc
  obtain ⟨service, project, hnames, hservice, hproject⟩ := names_of_candidate he hcandidate hlabel
  refine ⟨service, project, hnames, hservice, hproject, fun service' project' org' hnames' => ?_⟩
  have hmem : (⟨service'.id, project'.id, org', project'.name⟩ : EndpointCandidate) ∈ [c] := by
    rw [← hone, List.mem_filter, beq_iff_eq]
    exact ⟨hnames'.candidate, hnames'.label⟩
  refine Table.eq_of_key_eq hnames'.service_mem hnames.service_mem (.trans ?_ hservice)
  exact congrArg EndpointCandidate.serviceId (List.mem_singleton.mp hmem)

end services

section deployment
variable {db : DnsWorld} {G : Prog.Guard DnsOp DnsAnswer DnsWorld} {dep : Deployment}
  {caller : CallerIdentity} {candidate : EndpointCandidate} {service : Service} {project : Project}

theorem latestRunning_of_pick (hp : ∀ d, p d = true ↔ d.RunsFor service ∧ among d)
    (h : pickRow pick (latest (·.runningAt.getD 0) (db.deployments.rows.filter p)) = .ok d) :
    LatestRunning db service among d := by
  obtain ⟨hmem, hlatest⟩ := mem_latest.mp (mem_of_pickRow h)
  simp only [List.mem_filter, hp] at hmem hlatest
  exact ⟨hmem.1, hmem.2.2, hmem.2.1, fun d' hd' hamong hruns => hlatest d' ⟨hd', hruns, hamong⟩⟩

theorem runs_iff : DnsWorld.runs service.id d = true ↔ d.RunsFor service := by
  simp [DnsWorld.runs, Deployment.RunsFor, and_assoc]

theorem slug_ne_prod : "pr-" ++ s ≠ "prod" := by
  intro h
  have := congrArg (fun s : String => s.toList.take 3) h
  simp at this

theorem resolveDeployment_keeps (hcaller : EnvironmentOf db dep caller)
    (hservice : candidate.serviceId = service.id) (hproject : candidate.projectId = project.id) :
    Keeps G (· = db) (Resolver.resolveDeployment caller candidate caller.envSlug) fun o =>
      ∀ d, o = some d → ∃ among, InEnvironment db dep project caller.envSlug among ∧
        LatestRunning db service among d := by
  unfold Resolver.resolveDeployment
  rw [hservice, hproject]
  split
  · rename_i hprod
    have hprod := beq_iff_eq.mp hprod
    refine (ifAny_keeps dnsQuery_keeps).mono fun o ho d hd => ?_
    obtain ⟨_, heval⟩ := ho d hd
    cases hcaller with
    | production hkind =>
      refine ⟨_, .production hkind, latestRunning_of_pick (fun d => ?_) heval⟩
      simp [runs_iff]
    | preview hkind hmem hdep =>
      dsimp only at hprod
      split at hprod
      · exact absurd hprod slug_ne_prod
      · exact absurd hprod (by decide)
  · cases hcaller with
    | production hkind => exact absurd rfl ‹_›
    | @preview _ _ env hkind hmem hdep =>
      split
      · rename_i prNumber own hparse hown
        cases hown
        refine .bind (.wrap dnsQuery_keeps) fun envs ⟨_, henvs⟩ => ?_
        cases henvs
        refine .ite (fun _ => .pure fun _ h => by cases h) fun hnil => ?_
        -- the environment that is found is the caller's own
        cases hfind : (db.previewEnvironments.rows.filter fun e =>
            e.projectId == project.id && e.prNumber == prNumber).find? fun e => e.id == env.id with
        | none => simp [hfind] at hnil
        | some env' =>
          have hmem' := List.mem_of_find?_eq_some hfind
          simp only [List.mem_filter, Bool.and_eq_true, beq_iff_eq] at hmem'
          have hid : env'.id = env.id := by simpa using List.find?_some hfind
          obtain rfl : env' = env := Table.eq_of_key_eq hmem'.1 hmem hid
          have hslug : env'.prNumber > 0 := by
            by_contra hnot
            have hnone : parsePreviewEnvSlug "preview" = none := by decide
            rw [if_neg hnot, hnone] at hparse
            cases hparse
          rw [if_pos hslug]
          refine (ifAny_keeps dnsQuery_keeps).mono fun o ho d hd => ?_
          obtain ⟨_, heval⟩ := ho d hd
          have henv := InEnvironment.preview hkind hmem hdep hmem'.2.1
          refine ⟨_, henv, latestRunning_of_pick (fun d => ?_) heval⟩
          simp [runs_iff, and_assoc]
      · exact .pure fun d hd => by cases hd

end deployment

/-! ## Answers -/

theorem backendOf_of_mem (h : ip ∈ db.backendIPs d.id) : BackendOf db d ip := by
  rw [DnsWorld.backendIPs, List.mem_insertionSort, List.mem_dedup, List.mem_filterMap] at h
  obtain ⟨i, hi, hip⟩ := h
  simp only [List.mem_filter, DeploymentInstance.undeleted, Bool.and_eq_true, beq_iff_eq,
    Option.isNone_iff_eq_none] at hi
  simp only [Option.bind_eq_bind, Option.bind_eq_some_iff, Option.ite_none_right_eq_some,
    Vm.undeleted, Bool.and_eq_true, beq_iff_eq, Option.isNone_iff_eq_none, Option.some.injEq] at hip
  obtain ⟨vmId, hvmId, vm, hvm, ⟨hlive, hrunning⟩, rfl⟩ := hip
  refine ⟨i, hi.1, vm, Table.mem_of_find? hvm, hi.2.1.1.1, hi.2.1.1.2, hi.2.1.2, hi.2.2, ?_, hlive,
    hrunning, rfl⟩
  rw [hvmId, ← Table.find?_key hvm]

theorem mem_answer (h : r ∈ (Resolver.answer qname qtype ips).answers) : r.address ∈ ips := by
  unfold Resolver.answer at h
  split at h
  · cases h
  split at h
  · split at h
    · cases h
    · obtain ⟨ip, hip, rfl⟩ := List.mem_map.mp h
      exact (List.mem_filter.mp hip).1
  · cases h

theorem resolve_keeps (tools : NameTools) (ip : Nat) (qname : String) (qtype : Nat) :
    Keeps G (· = db) (Resolver.resolve tools ip qname qtype) fun res =>
      res.answers ≠ [] → Isolated tools db ip qname (res.answers.map (·.address)) := by
  unfold Resolver.resolve
  cases hname : parseInternalName tools qname with
  | none => exact .pure fun h => absurd rfl h
  | some target =>
    refine .bind (.wrap lookupCallerByIP_keeps) fun caller? hcaller => ?_
    cases caller? with
    | none => exact .pure fun h => absurd rfl h
    | some caller =>
      obtain ⟨vm, dep, hcaller, henv⟩ := hcaller caller rfl
      refine .bind (.wrap dnsQuery_keeps) fun candidates ⟨_, hcandidates⟩ => ?_
      have hcandidates : db.endpoints.rows.filterMap (db.candidate tools target.endpoint target.service
        target.organization) = candidates := Except.ok.inj hcandidates
      cases hselect : selectEndpointCandidate tools candidates target.project with
      | none => exact .pure fun h => absurd rfl h
      | some candidate =>
        rw [← hcandidates] at hselect
        obtain ⟨service, project, hnames, hservice, hproject, hunique⟩ := names_of_select hselect
        refine .ite (fun _ => .pure fun h => absurd rfl h) fun horg => .ite
          (fun _ => .pure fun h => absurd rfl h) fun hslug => ?_
        have horg := not_not.mp horg
        have hslug := not_not.mp hslug
        rw [← hslug]
        refine .bind (resolveDeployment_keeps henv hservice hproject) fun backend? hbackend => ?_
        cases backend? with
        | none => exact .pure fun h => absurd rfl h
        | some backend =>
          obtain ⟨among, hin, hlatest⟩ := hbackend backend rfl
          refine .bind (.wrap dnsQuery_keeps) fun ips ⟨_, hips⟩ => .pure fun _ => ⟨?_⟩
          have hips : db.backendIPs backend.id = ips := Except.ok.inj hips
          refine ⟨target, vm, dep, candidate.organizationId, service, project, among, backend, hname,
            horg ▸ hcaller, hnames, hunique, hslug ▸ hin, hlatest, fun a ha => ?_⟩
          obtain ⟨r, hr, rfl⟩ := List.mem_map.mp ha
          exact backendOf_of_mem (hips ▸ mem_answer hr)

/-- **Answers stay inside.** Whatever the state of the database, the caller's address, the name and
type of the query, and whichever rows the queries pick where several may be returned: if the resolver
answers with addresses, then the newest live VM with the caller's address and the one service that the
name stands for belong to the same organization, the name gives the environment of the caller's
deployment, which for a preview is the preview environment of that deployment in the service's project,
and every address is that of a running instance of the deployment that has run for the service for the
shortest time in that environment. -/
theorem dns_answers_isolated (tools : NameTools) (db : DnsWorld) (ip : Nat) (qname : String)
    (qtype : Nat) (as : List DnsAnswer) {res : Resolution}
    (h : ((Resolver.resolve tools ip qname qtype).outcome as db).value = .ok res)
    (hanswers : res.answers ≠ []) :
    Isolated tools db ip qname (res.answers.map (·.address)) :=
  ((resolve_keeps (G := Prog.unguarded) tools ip qname qtype).outcome rfl
    (meets_unguarded ..)).2 res h hanswers

def asciiTools : NameTools where
  toLower := lower
  sqlLower := lower
  isLetter := Char.isAlpha
  isDigit := Char.isDigit

/-- A project of one organization with two services, each with a running deployment and a VM. -/
def dnsSample : DnsWorld where
  organizations := .single { id := 1, slug := "acme" }
  projects := .single { id := 2, orgId := 1, name := "Web Shop" }
  services := ⟨[{ id := 3, projectId := 2, slug := "api" }, { id := 4, projectId := 2, slug := "web" }],
    by decide⟩
  endpoints := .single { id := 5, serviceId := 3, name := "HTTP" }
  deployments := ⟨[{ id := 6, projectId := 2, serviceId := some 3, runningAt := some 1 },
    { id := 7, projectId := 2, serviceId := some 4, runningAt := some 1 }], by decide⟩
  instances := ⟨[{ id := 8, deploymentId := 6, vmId := some 10, status := .running },
    { id := 9, deploymentId := 7, vmId := some 11, status := .running }], by decide⟩
  vms := ⟨[{ id := 10, serverId := 12, imageId := 13, status := .running, ipAddress := 20 },
    { id := 11, serverId := 12, imageId := 13, status := .running, ipAddress := 21 }], by decide⟩

/-- The VM of one service asks for the other one. -/
theorem dns_answers_inside :
    ((Resolver.resolve asciiTools 21 "http.api.web-shop.prod.acme.kindling.internal." 1).outcome []
      dnsSample).value = .ok { handled := true, answers :=
        [{ name := "http.api.web-shop.prod.acme.kindling.internal.", ttl := 5, address := 20 }] } ∧
    Isolated asciiTools dnsSample 21 "http.api.web-shop.prod.acme.kindling.internal." [20] := by
  have hvalue : ((Resolver.resolve asciiTools 21 "http.api.web-shop.prod.acme.kindling.internal." 1).outcome
      [] dnsSample).value = .ok { handled := true, answers :=
        [{ name := "http.api.web-shop.prod.acme.kindling.internal.", ttl := 5, address := 20 }] } := by
    decide +kernel
  exact ⟨hvalue, dns_answers_isolated asciiTools dnsSample 21 _ 1 [] hvalue (by decide)⟩

end Kindling
