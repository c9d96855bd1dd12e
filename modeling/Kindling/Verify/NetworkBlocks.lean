import Kindling.Network.Allocation

/-!
# Network blocks are not disjoint

The next block is the greatest block plus one address, cast to a network. The cast clears the address
that was added, so the next block is the greatest block again.
-/

namespace Kindling

/-- The block after a block with more than one address is the block itself. -/
theorem nextBlock_eq (hsize : 1 < c.size) (hfits : c.addr + 1 < 2 ^ 32) : nextBlock c = .ok c := by
  have hadd : c.add 1 = some { c.toInet with addr := c.addr + 1, addr_lt := hfits } := dif_pos hfits
  rw [nextBlock, hadd]
  exact congrArg Except.ok (Cidr.toCidr_add hsize hadd)

theorem nextBlock_server : nextBlock firstServerRange = .ok firstServerRange :=
  nextBlock_eq (by decide) (by decide)

theorem nextBlock_org : nextBlock baseOrgNetwork = .ok baseOrgNetwork :=
  nextBlock_eq (by decide) (by decide)

section registration
variable {id : Id} {hostname internalIp : String} {ipRange : Cidr} {now : Time} {db : NetworkDB}

theorem serverRegister_new (h : db.servers.find? id = none) :
    ∃ server db', serverRegister id hostname internalIp ipRange now db = (.ok server, db') ∧
      server.ipRange = ipRange := by
  have hinsert : ∃ t, db.servers.insert?
      { id, hostname, internalIp, ipRange, lastHeartbeatAt := now } = some t := ⟨_, dif_pos h⟩
  obtain ⟨t, ht⟩ := hinsert
  refine ⟨{ id, hostname, internalIp, ipRange, lastHeartbeatAt := now }, { db with servers := t }, ?_,
    rfl⟩
  simp [serverRegister, ht]

theorem serverRegister_known (h : db.servers.find? id = some s) :
    (serverRegister id hostname internalIp ipRange now db).2 =
      { db with servers := (db.servers.updateKey id (fun _ => true)
        (·.refresh hostname internalIp now) fun _ => rfl).2 } := by
  have hinsert : db.servers.insert?
      { id, hostname, internalIp, ipRange, lastHeartbeatAt := now } = none := dif_neg (by simp [h])
  simp [serverRegister, hinsert]

end registration

/-- Requests that are refused whatever blocks are given out: a server that is known already, or that
has no address of its own, and an organization whose identifier or slug is taken. -/
def NetworkEvent.unallocated (loopback : String → Bool) (db : NetworkDB) : NetworkEvent → Bool
  | registerServer id _ internalIp _ =>
    (db.servers.find? id).isSome || refusesServer loopback id internalIp db
  | organizationCreate org => db.orgTaken org

/-- The request is given a block that is disjoint from those given out before. -/
def NetworkEvent.GivenDisjoint (loopback : String → Bool) (db : NetworkDB) : NetworkEvent → Prop
  | registerServer id hostname internalIp now => ∃ server,
    (Kindling.registerServer loopback id hostname internalIp now db).1 = .ok server ∧
    ∀ s ∈ db.servers, server.ipRange.Disjoint s.ipRange
  | organizationCreate org => ∃ network, (Kindling.organizationCreate org db).1 = .ok org ∧
    (Kindling.organizationCreate org db).2.orgNetworks.find? org.id = some network ∧
    ∀ n ∈ db.orgNetworks, network.cidr.Disjoint n.cidr

/-- Every new server and organization of a sequence is given a block that is disjoint from those given
out before. -/
def AllocatesDisjoint (loopback : String → Bool) : NetworkDB → List NetworkEvent → Prop
  | _, [] => True
  | db, e :: es => (e.unallocated loopback db = false → e.GivenDisjoint loopback db) ∧
    AllocatesDisjoint loopback (e.next loopback db) es

/-! ## Sequences -/

def registrations (es : List NetworkEvent) : List (Id × String) := es.filterMap fun
  | .registerServer id _ internalIp _ => some (id, internalIp)
  | .organizationCreate _ => none

def creations (es : List NetworkEvent) : List Organization := es.filterMap fun
  | .registerServer .. => none
  | .organizationCreate org => some org

def likeDefault (org : Organization) : Bool :=
  org.id == defaultOrganization.id || org.slug == defaultOrganization.slug

/-- The servers of `db` are one server, or none, with the first block, and its organizations are those
of the migrated schema. -/
structure OneOfEach (known : Option Id) (db : NetworkDB) : Prop where
  servers : db.servers.rows.map (fun s => (s.id, s.ipRange)) =
    (known.map fun id => (id, firstServerRange)).toList
  organizations : db.organizations = migratedDB.organizations
  orgNetworks : db.orgNetworks = migratedDB.orgNetworks

theorem migratedDB_oneOfEach : OneOfEach none migratedDB := ⟨rfl, rfl, rfl⟩

namespace OneOfEach
variable {known : Option Id} {db : NetworkDB} {loopback : String → Bool} {f id : Id}
  {hostname internalIp : String} {now : Time} {org : Organization}

theorem orgTaken (h : OneOfEach known db) (org : Organization) : db.orgTaken org = likeDefault org := by
  simp [NetworkDB.orgTaken, likeDefault, h.organizations, migratedDB, Bool.beq_comm]

theorem organizationCreate_eq (h : OneOfEach known db) (org : Organization) :
    organizationCreate org db = (.error (.of .uniqueViolation), db) := by
  unfold organizationCreate
  split
  · rfl
  have hcidr : orgNetworkCidr db = .ok baseOrgNetwork := by
    rw [orgNetworkCidr, h.orgNetworks]
    exact nextBlock_org
  have htaken : db.orgNetworks.rows.any (·.cidr == baseOrgNetwork) = true := by
    rw [h.orgNetworks]
    decide
  rw [hcidr]
  exact if_pos htaken

theorem create_unallocated (h : OneOfEach known db) (hlike : likeDefault org = true) :
    (NetworkEvent.organizationCreate org).unallocated loopback db = true :=
  (h.orgTaken org).trans hlike

theorem create_fails (h : OneOfEach known db) (hlike : likeDefault org = false) :
    (NetworkEvent.organizationCreate org).unallocated loopback db = false ∧
      ¬(NetworkEvent.organizationCreate org).GivenDisjoint loopback db := by
  refine ⟨(h.orgTaken org).trans hlike, fun ⟨network, hok, _⟩ => ?_⟩
  rw [h.organizationCreate_eq org] at hok
  cases hok

theorem rows_eq_nil (h : OneOfEach none db) : db.servers.rows = [] := by
  simpa using h.servers

theorem exists_server (h : OneOfEach (some f) db) :
    ∃ s, db.servers.rows = [s] ∧ s.id = f ∧ s.ipRange = firstServerRange := by
  have hrows := h.servers
  cases hdb : db.servers.rows with
  | nil => simp [hdb] at hrows
  | cons s rest =>
    simp only [hdb, List.map_cons, Option.map_some, Option.toList_some, List.cons.injEq,
      Prod.mk.injEq, List.map_eq_nil_iff] at hrows
    obtain ⟨⟨hid, hrange⟩, rfl⟩ := hrows
    exact ⟨s, rfl, hid, hrange⟩

theorem register_first (h : OneOfEach none db) :
    (NetworkEvent.registerServer id hostname internalIp now).GivenDisjoint loopback db ∧
      OneOfEach (some id)
        ((NetworkEvent.registerServer id hostname internalIp now).next loopback db) := by
  obtain ⟨⟨rows, hnodup⟩, orgs, networks⟩ := db
  have hrows : rows = [] := h.rows_eq_nil
  subst hrows
  refine ⟨⟨{ id, hostname, internalIp, ipRange := firstServerRange, lastHeartbeatAt := now }, rfl,
    fun s hs => absurd hs List.not_mem_nil⟩, rfl, h.organizations, h.orgNetworks⟩

theorem register_known (h : OneOfEach (some f) db) :
    (NetworkEvent.registerServer f hostname internalIp now).unallocated loopback db = true ∧
      OneOfEach (some f)
        ((NetworkEvent.registerServer f hostname internalIp now).next loopback db) := by
  obtain ⟨s, hrows, rfl, hrange⟩ := h.exists_server
  have hfind : db.servers.find? s.id = some s := by simp [Table.find?, hrows]
  have hrefused : refusesServer loopback s.id internalIp db = false := by
    simp [refusesServer, hrows]
  refine ⟨by simp [NetworkEvent.unallocated, hfind], ?_⟩
  simp only [NetworkEvent.next, registerServer, hrefused, hfind, serverRegister_known hfind]
  refine ⟨?_, h.organizations, h.orgNetworks⟩
  simp [Table.updateKey, Table.updateWhere, Table.modify, hrows, RegisteredServer.refresh, hrange]

theorem register_refused (h : OneOfEach (some f) db) (hid : id ≠ f) (hip : loopback internalIp = true) :
    (NetworkEvent.registerServer id hostname internalIp now).unallocated loopback db = true ∧
      OneOfEach (some f)
        ((NetworkEvent.registerServer id hostname internalIp now).next loopback db) := by
  obtain ⟨s, hrows, rfl, hrange⟩ := h.exists_server
  have hrefused : refusesServer loopback id internalIp db = true := by
    simp [refusesServer, hrows, hip, Ne.symm hid]
  refine ⟨by simp [NetworkEvent.unallocated, hrefused], ?_⟩
  simpa [NetworkEvent.next, registerServer, hrefused] using h

theorem register_second (h : OneOfEach (some f) db) (hid : id ≠ f)
    (hip : loopback internalIp = false) :
    (NetworkEvent.registerServer id hostname internalIp now).unallocated loopback db = false ∧
      ¬(NetworkEvent.registerServer id hostname internalIp now).GivenDisjoint loopback db := by
  obtain ⟨s, hrows, rfl, hrange⟩ := h.exists_server
  have hrefused : refusesServer loopback id internalIp db = false := by
    simp [refusesServer, hip]
  have hfind : db.servers.find? id = none := by
    simp [Table.find?, hrows, Ne.symm hid]
  refine ⟨by simp [NetworkEvent.unallocated, hrefused, hfind], ?_⟩
  rintro ⟨server, hok, hdisjoint⟩
  have halloc : serverAllocateIPRange db = .ok firstServerRange := by
    rw [serverAllocateIPRange, hrows, List.map_singleton, hrange]
    exact nextBlock_server
  obtain ⟨server', db', hregister, hserver⟩ : ∃ server db', serverRegister id hostname internalIp
    firstServerRange now db = (.ok server, db') ∧ server.ipRange = firstServerRange :=
    serverRegister_new hfind
  simp only [registerServer, hrefused, hfind, allocateAndRegisterServer, halloc, hregister] at hok
  cases hok
  have hself := hdisjoint s (by simp [Table.mem_def, hrows])
  rw [hserver, hrange] at hself
  exact firstServerRange.not_disjoint_self hself

end OneOfEach

/-- The servers that a sequence registers after the first have the identifier of the first, or no
address of their own. -/
def OneServer (loopback : String → Bool) : List (Id × String) → Prop
  | [] => True
  | first :: rest => ∀ r ∈ rest, r.1 = first.1 ∨ loopback r.2 = true

/-- The same, when a server is known at the start. -/
def OnlyServer (loopback : String → Bool) (known : Option Id) (rs : List (Id × String)) : Prop :=
  match known with
  | none => OneServer loopback rs
  | some f => ∀ r ∈ rs, r.1 = f ∨ loopback r.2 = true

theorem allocatesDisjoint_iff (h : OneOfEach known db) :
    AllocatesDisjoint loopback db es ↔
      OnlyServer loopback known (registrations es) ∧ ∀ org ∈ creations es, likeDefault org = true := by
  induction es generalizing known db with
  | nil => cases known <;> simp [AllocatesDisjoint, OnlyServer, OneServer, registrations, creations]
  | cons e es ih =>
    -- either the request goes through and the state stays of this kind, or it fails the claim
    have hgood : ∀ known', (e.unallocated loopback db = false → e.GivenDisjoint loopback db) →
        OneOfEach known' (e.next loopback db) → (AllocatesDisjoint loopback db (e :: es) ↔
          OnlyServer loopback known' (registrations es) ∧
            ∀ org ∈ creations es, likeDefault org = true) := fun known' hgiven hnext =>
      (and_iff_right hgiven).trans (ih hnext)
    have hskip : ∀ known', e.unallocated loopback db = true → OneOfEach known' (e.next loopback db) →
        (AllocatesDisjoint loopback db (e :: es) ↔ OnlyServer loopback known' (registrations es) ∧
          ∀ org ∈ creations es, likeDefault org = true) := fun known' hun hnext =>
      hgood known' (fun hun' => nomatch hun.symm.trans hun') hnext
    have hbad : e.unallocated loopback db = false ∧ ¬e.GivenDisjoint loopback db →
        ¬AllocatesDisjoint loopback db (e :: es) := fun hfail hall => hfail.2 (hall.1 hfail.1)
    cases e with
    | registerServer id hostname internalIp now =>
      cases known with
      | none =>
        rw [hgood (some id) (fun _ => h.register_first.1) h.register_first.2]
        rfl
      | some f =>
        have hregistrations : OnlyServer loopback (some f)
            (registrations (.registerServer id hostname internalIp now :: es)) ↔
            (id = f ∨ loopback internalIp = true) ∧ OnlyServer loopback (some f) (registrations es) :=
          List.forall_mem_cons
        rw [hregistrations]
        by_cases hid : id = f
        · subst hid
          rw [hskip (some id) h.register_known.1 h.register_known.2]
          simp [creations]
        · cases hip : loopback internalIp with
          | true =>
            rw [hskip (some f) (h.register_refused hid hip).1 (h.register_refused hid hip).2]
            simp [creations]
          | false => simpa [hid] using hbad (h.register_second hid hip)
    | organizationCreate org =>
      have hcreations : (∀ o ∈ creations (.organizationCreate org :: es), likeDefault o = true) ↔
          likeDefault org = true ∧ ∀ o ∈ creations es, likeDefault o = true := List.forall_mem_cons
      rw [hcreations]
      cases hlike : likeDefault org with
      | true =>
        have hnext : OneOfEach known ((NetworkEvent.organizationCreate org).next loopback db) := by
          rw [NetworkEvent.next, h.organizationCreate_eq org]
          exact h
        rw [hskip known (h.create_unallocated hlike) hnext]
        simp [registrations]
      | false => simpa using hbad (h.create_fails hlike)

/-- **Network blocks.** Let any requests register servers and create organizations on a migrated
database. Every new server and organization is given a block that is disjoint from those given out
before, and none of them fails because of those, if and only if there is one server and no
organization besides the default one: every later registration is of the same server, or refused for
its address, and every organization is refused for its identifier or slug. -/
theorem blocks_disjoint_iff (loopback : String → Bool) (es : List NetworkEvent) :
    AllocatesDisjoint loopback migratedDB es ↔
      OneServer loopback (registrations es) ∧ ∀ org ∈ creations es, likeDefault org = true :=
  allocatesDisjoint_iff migratedDB_oneOfEach

/-- The second server is given the block of the first, and the second organization is refused. -/
theorem second_block_not_disjoint :
    (registerServer (fun _ => false) 2 "b" "10.1.0.2" 1
      (registerServer (fun _ => false) 1 "a" "10.1.0.1" 0 migratedDB).2).1.map (·.ipRange) =
      .ok firstServerRange ∧
    (registerServer (fun _ => false) 1 "a" "10.1.0.1" 0 migratedDB).1.map (·.ipRange) =
      .ok firstServerRange ∧
    ¬firstServerRange.Disjoint firstServerRange ∧
    (organizationCreate { id := 2, name := "acme", slug := "acme" } migratedDB).1 =
      .error (.of .uniqueViolation) :=
  ⟨rfl, rfl, firstServerRange.not_disjoint_self, rfl⟩

end Kindling
