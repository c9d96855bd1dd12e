import Kindling.Network.Endpoints

/-!
# Addresses of endpoints

The address of a new endpoint follows the greatest one of the organization, whether or not that is the
last of its block.
-/

namespace Kindling

/-- The constraints on the tables, and that addresses are those of hosts. -/
structure EndpointDB.Sound (db : EndpointDB) : Prop where
  hosts : ∀ e ∈ db.endpoints, e.privateIp.bits = 32
  distinct : ∀ e ∈ db.endpoints, ∀ e' ∈ db.endpoints, e.privateIp = e'.privateIp → e = e'
  service : ∀ e ∈ db.endpoints, ∃ s, db.services.find? e.serviceId = some s
  project : ∀ s ∈ db.services, ∃ p, db.projects.find? s.projectId = some p

def EndpointDB.InBlock (db : EndpointDB) (org : Id) (cidr : Cidr) : Prop :=
  ∀ e ∈ db.endpointsOf org, cidr.contains e.privateIp.addr = true

def EndpointDB.LastFree (db : EndpointDB) (org : Id) (cidr : Cidr) : Prop :=
  ∀ e ∈ db.endpointsOf org, e.privateIp.addr + 1 ≠ cidr.addr + cidr.size

instance (db : EndpointDB) : Decidable (db.LastFree org cidr) := by
  unfold EndpointDB.LastFree
  infer_instance

theorem Inet.plus_ok {a b : Inet} (h : a.plus n = .ok b) :
    b.addr = a.addr + n ∧ b.bits = a.bits := by
  unfold Inet.plus Inet.add at h
  split at h
  · next hadd =>
    split at hadd
    · cases hadd
      cases h
      exact ⟨rfl, rfl⟩
    · cases hadd
  · cases h

section next
variable {db : EndpointDB} {org : Id} {cidr : Cidr} {ip : Inet}

theorem mem_endpointsOf :
    e ∈ db.endpointsOf org ↔ e ∈ db.endpoints ∧ db.orgOf e.serviceId = some org := by
  rw [EndpointDB.endpointsOf, List.mem_filter, beq_iff_eq]
  rfl

theorem EndpointDB.Sound.hosts_of (h : db.Sound) (org : Id) :
    ∀ a ∈ (db.endpointsOf org).map (·.privateIp), a.bits = 32 := by
  intro a ha
  obtain ⟨e, he, rfl⟩ := List.mem_map.mp ha
  exact h.hosts e (mem_endpointsOf.mp he).1

/-- The next address is the tenth of the block, or follows the greatest one. -/
theorem nextPrivateIp_cases (h : nextPrivateIp db org cidr = .ok ip) :
    (db.endpointsOf org = [] ∧ ip.addr = cidr.addr + 10 ∧ ip.bits = 32) ∨
      ∃ m, Inet.max? ((db.endpointsOf org).map (·.privateIp)) = some m ∧ ip.addr = m.addr + 1 ∧
        ip.bits = m.bits := by
  unfold nextPrivateIp at h
  cases hmax : Inet.max? ((db.endpointsOf org).map (·.privateIp)) with
  | some m =>
    rw [hmax] at h
    exact .inr ⟨m, rfl, Inet.plus_ok h⟩
  | none =>
    rw [hmax] at h
    cases hbase : cidr.host.plus 9 with
    | error e =>
      rw [hbase] at h
      cases h
    | ok base =>
      rw [hbase] at h
      obtain ⟨haddr, hbits⟩ := Inet.plus_ok h
      obtain ⟨haddr', hbits'⟩ := Inet.plus_ok hbase
      refine .inl ⟨?_, haddr.trans (by rw [haddr']; rfl), hbits.trans hbits'⟩
      cases hl : db.endpointsOf org with
      | nil => rfl
      | cons e l =>
        rw [hl] at hmax
        cases hmax

theorem nextPrivateIp_host (hdb : db.Sound) (h : nextPrivateIp db org cidr = .ok ip) :
    ip.bits = 32 := by
  rcases nextPrivateIp_cases h with ⟨-, -, hbits⟩ | ⟨m, hmax, -, hbits⟩
  · exact hbits
  · have hmem := (Inet.max?_of_hosts (hdb.hosts_of org) hmax).1
    exact hbits.trans (hdb.hosts_of org m hmem)

theorem nextPrivateIp_contained_iff (hdb : db.Sound) (hblock : db.InBlock org cidr)
    (hbits : cidr.bits = 24) (h : nextPrivateIp db org cidr = .ok ip) :
    cidr.contains ip.addr = true ↔ db.LastFree org cidr := by
  have hsize : cidr.size = 256 := by rw [Inet.size, hbits]; rfl
  rcases nextPrivateIp_cases h with ⟨hnil, haddr, -⟩ | ⟨m, hmax, haddr, -⟩
  · refine iff_of_true ((cidr.contains_iff _).mpr (by omega)) fun e he => ?_
    rw [hnil] at he
    cases he
  · obtain ⟨hmem, hgreatest⟩ := Inet.max?_of_hosts (hdb.hosts_of org) hmax
    obtain ⟨e, he, rfl⟩ := List.mem_map.mp hmem
    have hin := (cidr.contains_iff _).mp (hblock e he)
    rw [cidr.contains_iff]
    constructor
    · intro hnext e' he' hlast
      have := hgreatest _ (List.mem_map_of_mem he')
      omega
    · intro hfree
      have := hfree e he
      omega

end next

section statements
variable {db db' : EndpointDB}

theorem insertService_ok (h : insertService s db = .ok db') :
    ∃ t, db.services.insert? s = some t ∧ db' = { db with services := t } := by
  unfold insertService at h
  split at h
  · cases h
  · split at h
    · next t ht =>
      cases h
      exact ⟨t, ht, rfl⟩
    · cases h

theorem insertEndpoint_ok (h : insertEndpoint e db = .ok db') :
    ∃ t, db.endpoints.insert? e = some t ∧ db' = { db with endpoints := t } ∧
      ∀ x ∈ db.endpoints, x.privateIp ≠ e.privateIp := by
  unfold insertEndpoint at h
  split at h
  · cases h
  split at h
  · cases h
  next hfree =>
  split at h
  · next t ht =>
    cases h
    refine ⟨t, ht, rfl, fun x hx heq => hfree (List.any_eq_true.mpr ⟨x, hx, ?_⟩)⟩
    simp [heq]
  · cases h

theorem orgOf_insertService (hs : db.services.find? service = some s₀)
    (h : insertService s db = .ok db') : db'.orgOf service = db.orgOf service := by
  obtain ⟨t, ht, rfl⟩ := insertService_ok h
  simp [EndpointDB.orgOf, Table.find?_insert?_of_some ht hs, hs]

theorem endpointsOf_insertService (hdb : db.Sound) (h : insertService s db = .ok db') (org : Id) :
    db'.endpointsOf org = db.endpointsOf org := by
  have hrows : db'.endpoints = db.endpoints := by
    obtain ⟨t, -, rfl⟩ := insertService_ok h
    rfl
  rw [EndpointDB.endpointsOf, hrows]
  refine List.filter_congr fun e he => ?_
  obtain ⟨s₀, hs₀⟩ := hdb.service e he
  rw [orgOf_insertService hs₀ h]

theorem Sound.insertService (hdb : db.Sound) (hp : db.projects.find? s.projectId = some p)
    (h : insertService s db = .ok db') : db'.Sound := by
  obtain ⟨t, ht, rfl⟩ := insertService_ok h
  refine ⟨hdb.hosts, hdb.distinct, fun e he => ?_, fun s' hs' => ?_⟩
  · obtain ⟨s₀, hs₀⟩ := hdb.service e he
    exact ⟨s₀, Table.find?_insert?_of_some ht hs₀⟩
  · rcases (Table.mem_insert? ht).mp hs' with hs' | rfl
    · exact hdb.project s' hs'
    · exact ⟨p, hp⟩

theorem mem_endpointsOf_insertEndpoint (h : insertEndpoint e db = .ok db')
    (hx : x ∈ db'.endpointsOf org) :
    x ∈ db.endpointsOf org ∨ (x = e ∧ db.orgOf e.serviceId = some org) := by
  obtain ⟨t, ht, rfl, -⟩ := insertEndpoint_ok h
  obtain ⟨hmem, horg⟩ := mem_endpointsOf.mp hx
  rcases (Table.mem_insert? ht).mp hmem with hmem | rfl
  · exact .inl (mem_endpointsOf.mpr ⟨hmem, horg⟩)
  · exact .inr ⟨rfl, horg⟩

theorem Sound.insertEndpoint (hdb : db.Sound) (hbits : e.privateIp.bits = 32)
    (hs : db.services.find? e.serviceId = some s) (h : insertEndpoint e db = .ok db') :
    db'.Sound := by
  obtain ⟨t, ht, rfl, hfresh⟩ := insertEndpoint_ok h
  refine ⟨fun x hx => ?_, fun x hx x' hx' heq => ?_, fun x hx => ?_, hdb.project⟩
  · rcases (Table.mem_insert? ht).mp hx with hx | rfl
    · exact hdb.hosts x hx
    · exact hbits
  · rcases (Table.mem_insert? ht).mp hx with hold | rfl
    · rcases (Table.mem_insert? ht).mp hx' with hold' | rfl
      · exact hdb.distinct x hold x' hold' heq
      · exact absurd heq (hfresh x hold)
    · rcases (Table.mem_insert? ht).mp hx' with hold' | rfl
      · exact absurd heq.symm (hfresh x' hold')
      · rfl
  · rcases (Table.mem_insert? ht).mp hx with hx | rfl
    · exact hdb.service x hx
    · exact ⟨s, hs⟩

end statements

/-! ## Requests -/

def EndpointEvent.creates (db : EndpointDB) : EndpointEvent → Option Id
  | serviceCreate s .. => (db.projects.find? s.projectId).map (·.orgId)
  | serviceEndpointCreate service .. => db.orgOf service
  | _ => none

/-- What a request for an organization does to the tables: an endpoint that is new belongs to the
organization, and has its next address. -/
structure EndpointStep (target : Option Id) (db db' : EndpointDB) : Prop where
  sound : db'.Sound
  networks : db'.orgNetworks = db.orgNetworks
  addresses : ∀ org n, db.orgNetworks.find? org = some n → ∀ e ∈ db'.endpointsOf org,
    e ∈ db.endpointsOf org ∨ (target = some org ∧ nextPrivateIp db org n.cidr = .ok e.privateIp)

namespace EndpointStep
variable {target : Option Id} {db : EndpointDB} (hdb : db.Sound)
include hdb

theorem refl : EndpointStep target db db := ⟨hdb, rfl, fun _ _ _ _ h => .inl h⟩

theorem of_ok {r : Except Err EndpointDB} (h : ∀ db', r = .ok db' → EndpointStep target db db') :
    EndpointStep target db (r.toOption.getD db) := by
  cases r with
  | ok db' => exact h db' rfl
  | error e => exact refl hdb

omit hdb in
theorem of_fewer (hsound : db'.Sound) (hnet : db'.orgNetworks = db.orgNetworks)
    (h : ∀ org, ∀ e ∈ db'.endpointsOf org, e ∈ db.endpointsOf org) : EndpointStep target db db' :=
  ⟨hsound, hnet, fun org _ _ e he => .inl (h org e he)⟩

theorem serviceCreate {id : Id} (h : serviceCreate s publicDefault id now db = .ok db') :
    EndpointStep ((db.projects.find? s.projectId).map (·.orgId)) db db' := by
  unfold Kindling.serviceCreate at h
  split at h
  · cases h
  next p hp =>
  cases hservice : insertService s db with
  | error e =>
    rw [hservice] at h
    cases h
  | ok db₁ =>
  rw [hservice] at h
  have hsound := Sound.insertService hdb hp hservice
  have hsame := endpointsOf_insertService hdb hservice
  obtain ⟨t, ht, rfl⟩ := insertService_ok hservice
  split at h
  · cases h
    exact ⟨hsound, rfl, fun org _ _ e he => .inl (hsame org ▸ he)⟩
  next n hn =>
  cases hip : nextPrivateIp db p.orgId n.cidr with
  | error e =>
    rw [hip] at h
    cases h
  | ok ip =>
  rw [hip] at h
  have h : insertEndpoint { id, serviceId := s.id, name := "web", createdAt := now, privateIp := ip
                            visibility := if publicDefault then .publicOpen else .privateOnly }
    { db with services := t } = .ok db' := h
  have hs : t.find? s.id = some s := (Table.find?_insert? ht _).trans (if_pos rfl)
  refine ⟨Sound.insertEndpoint hsound (nextPrivateIp_host hdb hip) hs h, ?_, fun org n' hn' e he => ?_⟩
  · obtain ⟨t', -, rfl, -⟩ := insertEndpoint_ok h
    rfl
  · rcases mem_endpointsOf_insertEndpoint h he with hold | ⟨rfl, horg⟩
    · exact .inl (hsame org ▸ hold)
    · have horg' : some p.orgId = some org := by
        simpa only [EndpointDB.orgOf, hs, Option.bind_some, hp, Option.map_some] using horg
      cases horg'
      cases hn.symm.trans hn'
      exact .inr ⟨by rw [hp]; rfl, hip⟩

theorem serviceEndpointCreate {service id : Id} {name : String}
    (h : serviceEndpointCreate service id name protocol targetPort visibility now db = .ok db') :
    EndpointStep (db.orgOf service) db db' := by
  unfold Kindling.serviceEndpointCreate at h
  split at h
  · cases h
  next org horg =>
  split at h
  · cases h
  next n hn =>
  cases hip : nextPrivateIp db org n.cidr with
  | error e =>
    rw [hip] at h
    cases h
  | ok ip =>
  rw [hip] at h
  obtain ⟨s, hs, -⟩ := Option.bind_eq_some_iff.mp horg
  refine ⟨Sound.insertEndpoint hdb (nextPrivateIp_host hdb hip) hs h, ?_, fun org' n' hn' e he => ?_⟩
  · obtain ⟨t', -, rfl, -⟩ := insertEndpoint_ok h
    rfl
  · refine (mem_endpointsOf_insertEndpoint h he).imp_right fun ⟨hnew, horg'⟩ => ?_
    cases horg.symm.trans horg'
    cases hn.symm.trans hn'
    rw [hnew]
    exact ⟨horg, hip⟩

theorem projectCreate (h : projectCreate project serviceId db = .ok db') :
    EndpointStep target db db' := by
  unfold Kindling.projectCreate at h
  split at h
  · cases h
  next t ht =>
  have hprojects : ∀ s ∈ db.services, ∃ p, t.find? s.projectId = some p := fun s hs => by
    obtain ⟨p, hp⟩ := hdb.project s hs
    exact ⟨p, Table.find?_insert?_of_some ht hp⟩
  have hdb₁ : EndpointDB.Sound { db with projects := t } :=
    ⟨hdb.hosts, hdb.distinct, hdb.service, hprojects⟩
  have hself : t.find? project.id = some project := (Table.find?_insert? ht _).trans (if_pos rfl)
  refine of_fewer (Sound.insertService hdb₁ hself h) ?_ fun org e he => ?_
  · obtain ⟨t', -, rfl⟩ := insertService_ok h
    rfl
  · rw [endpointsOf_insertService hdb₁ h] at he
    obtain ⟨hmem, horg⟩ := mem_endpointsOf.mp he
    refine mem_endpointsOf.mpr ⟨hmem, ?_⟩
    obtain ⟨s, hs⟩ := hdb.service e hmem
    obtain ⟨p, hp⟩ := hdb.project s (Table.mem_of_find? hs)
    simpa only [EndpointDB.orgOf, hs, Option.bind_some, hp, Table.find?_insert?_of_some ht hp] using horg

theorem serviceEndpointDelete (id service : Id) :
    EndpointStep target db (serviceEndpointDeleteByIDAndServiceID id service db) := by
  have hkeep {e : AddressedEndpoint}
      (he : e ∈ (serviceEndpointDeleteByIDAndServiceID id service db).endpoints) : e ∈ db.endpoints :=
    (Table.mem_keep.mp he).1
  refine of_fewer ⟨fun e he => hdb.hosts e (hkeep he),
    fun e he e' he' => hdb.distinct e (hkeep he) e' (hkeep he'), fun e he => hdb.service e (hkeep he),
    hdb.project⟩ rfl fun org e he => ?_
  obtain ⟨hmem, horg⟩ := mem_endpointsOf.mp he
  exact mem_endpointsOf.mpr ⟨hkeep hmem, horg⟩

theorem projectDelete (id org : Id) : EndpointStep target db (projectDeleteByIDAndOrg id org db) := by
  unfold projectDeleteByIDAndOrg
  split
  · -- what is left of an endpoint: its service, and the project of its service
    have hkeep {e : AddressedEndpoint} (he : e ∈ db.endpoints.keep fun e =>
        (db.services.find? e.serviceId).all (·.projectId != id)) :
        e ∈ db.endpoints ∧ ∃ s, db.services.find? e.serviceId = some s ∧
          (db.services.keep (·.projectId != id)).find? e.serviceId = some s ∧ s.projectId ≠ id := by
      obtain ⟨hmem, hall⟩ := Table.mem_keep.mp he
      obtain ⟨s, hs⟩ := hdb.service e hmem
      rw [hs, Option.all_some, bne_iff_ne] at hall
      refine ⟨hmem, s, hs, ?_, hall⟩
      rw [Table.find?_keep, hs, Option.filter_some, if_pos (bne_iff_ne.mpr hall)]
    have hproject {s : Service} (hs : s ∈ db.services) (hne : s.projectId ≠ id) : ∃ p,
        db.projects.find? s.projectId = some p ∧
          (db.projects.keep (·.id != id)).find? s.projectId = some p := by
      obtain ⟨p, hp⟩ := hdb.project s hs
      refine ⟨p, hp, ?_⟩
      rw [Table.find?_keep, hp, Option.filter_some, if_pos]
      rw [bne_iff_ne, Table.find?_key hp]
      exact hne
    refine of_fewer ⟨fun e he => hdb.hosts e (hkeep he).1,
      fun e he e' he' => hdb.distinct e (hkeep he).1 e' (hkeep he').1, fun e he => ?_, fun s hs => ?_⟩
      rfl fun org e he => ?_
    · obtain ⟨-, s, -, hs, -⟩ := hkeep he
      exact ⟨s, hs⟩
    · obtain ⟨hmem, hne⟩ := Table.mem_keep.mp hs
      obtain ⟨p, -, hp⟩ := hproject hmem (bne_iff_ne.mp hne)
      exact ⟨p, hp⟩
    · obtain ⟨hmem, horg⟩ := mem_endpointsOf.mp he
      obtain ⟨hmem, s, hs, hs', hne⟩ := hkeep hmem
      obtain ⟨p, hp, hp'⟩ := hproject (Table.mem_of_find? hs) hne
      refine mem_endpointsOf.mpr ⟨hmem, ?_⟩
      simpa only [EndpointDB.orgOf, hs, hs', Option.bind_some, hp, hp'] using horg
  · exact refl hdb

end EndpointStep

theorem EndpointEvent.step (hdb : db.Sound) (ev : EndpointEvent) :
    EndpointStep (ev.creates db) db (ev.next db) := by
  cases ev with
  | serviceCreate => exact .of_ok hdb fun _ h => .serviceCreate hdb h
  | serviceEndpointCreate => exact .of_ok hdb fun _ h => .serviceEndpointCreate hdb h
  | serviceEndpointDelete id service => exact .serviceEndpointDelete hdb id service
  | projectCreate => exact .of_ok hdb fun _ h => .projectCreate hdb h
  | projectDelete id org => exact .projectDelete hdb id org

/-! ## Sequences -/

def runEndpoints (evs : List EndpointEvent) (db : EndpointDB) : EndpointDB :=
  evs.foldl EndpointEvent.next db

def CreatedBeforeLast (org : Id) (cidr : Cidr) : List EndpointEvent → EndpointDB → Prop
  | [], _ => True
  | ev :: evs, db => (ev.creates db = some org → db.LastFree org cidr) ∧
      CreatedBeforeLast org cidr evs (ev.next db)

instance decidableCreatedBeforeLast (org : Id) (cidr : Cidr) : (evs : List EndpointEvent) →
    (db : EndpointDB) → Decidable (CreatedBeforeLast org cidr evs db)
  | [], _ => .isTrue trivial
  | ev :: evs, db =>
    have := decidableCreatedBeforeLast org cidr evs (ev.next db)
    inferInstanceAs (Decidable (_ ∧ _))

section runs
variable {org : Id} {n : OrgNetwork} {db : EndpointDB}

/-- A request keeps the addresses in the block exactly when the last address is free, or no endpoint
of the organization is new. -/
theorem EndpointEvent.inBlock_iff (hdb : db.Sound) (hblock : db.InBlock org n.cidr)
    (hn : db.orgNetworks.find? org = some n) (hbits : n.cidr.bits = 24) (ev : EndpointEvent) :
    (ev.next db).InBlock org n.cidr ↔
      db.LastFree org n.cidr ∨ ∀ e ∈ (ev.next db).endpointsOf org, e ∈ db.endpointsOf org := by
  have haddresses := (ev.step hdb).addresses org n hn
  constructor
  · intro hnext
    refine or_iff_not_imp_left.mpr fun hlast e he => ?_
    refine (haddresses e he).resolve_right fun hnew => hlast ?_
    exact (nextPrivateIp_contained_iff hdb hblock hbits hnew.2).mp (hnext e he)
  · intro hfree e he
    rcases haddresses e he with hold | ⟨-, hip⟩
    · exact hblock e hold
    · rcases hfree with hfree | hold
      · exact (nextPrivateIp_contained_iff hdb hblock hbits hip).mpr hfree
      · exact hblock e (hold e he)

theorem EndpointEvent.inBlock (hdb : db.Sound) (hblock : db.InBlock org n.cidr)
    (hn : db.orgNetworks.find? org = some n) (hbits : n.cidr.bits = 24) {ev : EndpointEvent}
    (hev : ev.creates db = some org → db.LastFree org n.cidr) : (ev.next db).InBlock org n.cidr := by
  refine (ev.inBlock_iff hdb hblock hn hbits).mpr ?_
  by_cases htarget : ev.creates db = some org
  · exact .inl (hev htarget)
  · exact .inr fun e he =>
      ((ev.step hdb).addresses org n hn e he).resolve_right fun h => htarget h.1

theorem runEndpoints_inBlock (hdb : db.Sound) (hblock : db.InBlock org n.cidr)
    (hn : db.orgNetworks.find? org = some n) (hbits : n.cidr.bits = 24)
    (hevs : CreatedBeforeLast org n.cidr evs db) :
    (runEndpoints evs db).Sound ∧ (runEndpoints evs db).InBlock org n.cidr ∧
      (runEndpoints evs db).orgNetworks.find? org = some n := by
  induction evs generalizing db with
  | nil => exact ⟨hdb, hblock, hn⟩
  | cons ev evs ih =>
    have hstep := ev.step hdb
    exact ih hstep.sound (ev.inBlock hdb hblock hn hbits hevs.1) (hstep.networks ▸ hn) hevs.2

end runs

/-- **Addresses of endpoints.** Let services, endpoints and projects be created and deleted in any
order. If an endpoint is created for an organization with a `/24` block only while the last address of
the block is free, the endpoints of the organization always have addresses in the block, no two of them
the same. In such a state a request keeps this exactly when the last address is free or the request
adds no endpoint to the organization. -/
theorem endpoint_addresses_in_block (org : Id) (n : OrgNetwork) (db : EndpointDB) (hdb : db.Sound)
    (hn : db.orgNetworks.find? org = some n) (hbits : n.cidr.bits = 24)
    (hblock : db.InBlock org n.cidr) (evs : List EndpointEvent)
    (hevs : CreatedBeforeLast org n.cidr evs db) :
    (runEndpoints evs db).InBlock org n.cidr ∧
    (∀ e ∈ (runEndpoints evs db).endpointsOf org, ∀ e' ∈ (runEndpoints evs db).endpointsOf org,
      e.privateIp = e'.privateIp → e = e') ∧
    ∀ ev : EndpointEvent, (ev.next (runEndpoints evs db)).InBlock org n.cidr ↔
      (runEndpoints evs db).LastFree org n.cidr ∨
        ∀ e ∈ (ev.next (runEndpoints evs db)).endpointsOf org, e ∈ (runEndpoints evs db).endpointsOf org := by
  obtain ⟨hsound, hin, hnet⟩ := runEndpoints_inBlock hdb hblock hn hbits hevs
  refine ⟨hin, fun e he e' he' => ?_, fun ev => ev.inBlock_iff hsound hin hnet hbits⟩
  exact hsound.distinct e (mem_endpointsOf.mp he).1 e' (mem_endpointsOf.mp he').1

/-- Service 4 of project 3, in organization 1 with the block `172.19.255.0/24`, has no endpoint. -/
def endpointDB : EndpointDB where
  projects := .single { id := 3, orgId := 1 }
  services := .single { id := 4, projectId := 3 }
  orgNetworks := .single (⟨1, baseOrgNetwork⟩)

theorem endpointDB_sound : endpointDB.Sound where
  hosts _ he := absurd he List.not_mem_nil
  distinct _ he := absurd he List.not_mem_nil
  service _ he := absurd he List.not_mem_nil
  project s hs := by
    cases List.mem_singleton.mp hs
    exact ⟨_, rfl⟩

def replacements : Nat → List EndpointEvent
  | 0 => [.serviceEndpointCreate 4 0 "a" .tcp 5432 .privateOnly 0]
  | k + 1 => replacements k ++
    [.serviceEndpointCreate 4 (k + 1) (if k % 2 = 0 then "b" else "a") .tcp 5432 .privateOnly 0,
      .serviceEndpointDelete k 4]

/-- After 246 replacements the only endpoint of the organization has the address `172.20.0.0`, which is
not in its block. -/
theorem address_outside_block :
    (endpointDB.endpointsOf 1 = [] ∧ endpointDB.orgNetworks.find? 1 = some ⟨1, baseOrgNetwork⟩) ∧
    ((runEndpoints (replacements 246) endpointDB).endpointsOf 1).map
      (fun e => (e.id, e.privateIp.addr, baseOrgNetwork.contains e.privateIp.addr)) =
      [(246, 172 * 2 ^ 24 + 20 * 2 ^ 16, false)] := by
  decide +kernel

/-- The first 245 replacements stay in the block. -/
theorem replacements_in_block :
    (runEndpoints (replacements 245) endpointDB).InBlock 1 baseOrgNetwork :=
  (endpoint_addresses_in_block 1 ⟨1, baseOrgNetwork⟩ endpointDB endpointDB_sound rfl rfl
    (fun _ he => absurd he List.not_mem_nil) (replacements 245) (by decide +kernel)).1

end Kindling
