import Kindling.Rpc.Domains

/-!
# Certificates on demand

Whether the edge proxy may ask for a certificate is decided by `DecisionFunc` of
`internal/edgeproxy/edgeproxy.go`, from the hosts of the control plane and the table of domains. Names
of domains are unique, which the table of this module carries as an invariant.
-/

namespace Kindling

/-! ## The table of domains -/

/-- `domain_name TEXT NOT NULL UNIQUE` -/
def UniqueNames (t : DomainTable) : Prop := ∀ x ∈ t, ∀ y ∈ t, x.domainName = y.domainName → x = y

/-- A write of the table of domains that succeeds. -/
inductive DomainWrite : Type 1
  /-- A creation or a verification, by a request. -/
  | request {β : Type} (s : ApiDomainStmt β)
  /-- A write of managed domains, of preview domains or of the deployment of domains. -/
  | route {β : Type} (s : DomainStmt β)
  | delete (id projectId : Id)
  | deleteByServiceID (id serviceId : Id)
  /-- Domains go with their project and with their preview environment (`ON DELETE CASCADE`). -/
  | projectDeleted (projectId : Id)
  | previewEnvironmentDeleted (id : Id)

def DomainWrite.exec (now : Time) : DomainWrite → DomainTable → DomainTable
  | request s, t => (s.exec now t).2
  | route s, t => (s.exec now t).2
  | delete id p, t => t.keep fun d => !(d.id == id && d.projectId == p)
  | deleteByServiceID id s, t => t.keep fun d => !(d.id == id && d.serviceId == some s)
  | projectDeleted p, t => t.keep fun d => d.projectId != p
  | previewEnvironmentDeleted e, t => t.keep fun d => d.previewEnvironmentId != some e

section unique
variable {t : DomainTable}

theorem UniqueNames.keep (h : UniqueNames t) (p : Domain → Bool) : UniqueNames (t.keep p) :=
  fun x hx y hy => h x (Table.mem_keep.mp hx).1 y (Table.mem_keep.mp hy).1

theorem UniqueNames.inserting (h : UniqueNames t) (hd : ∀ x ∈ t, x.domainName ≠ d.domainName) :
    UniqueNames (inserting t d).2 := by
  unfold Kindling.inserting
  split
  · next t' ht =>
    intro x hx y hy hxy
    rcases (Table.mem_insert? ht).mp hx with hold | hnew <;>
      rcases (Table.mem_insert? ht).mp hy with hold' | hnew'
    · exact h x hold y hold' hxy
    · exact absurd (hnew' ▸ hxy) (hd x hold)
    · exact absurd (hnew ▸ hxy.symm) (hd y hold')
    · exact hnew.trans hnew'.symm
  · exact h

theorem UniqueNames.updateWhere (hf : ∀ d, (f d).id = d.id)
    (h : ∀ x ∈ t, ∀ y ∈ t, (if p x then f x else x).domainName = (if p y then f y else y).domainName →
      x = y) : UniqueNames (t.updateWhere p f hf) := by
  intro x hx y hy hxy
  obtain ⟨x₀, hx₀, rfl⟩ := Table.mem_updateWhere.mp hx
  obtain ⟨y₀, hy₀, rfl⟩ := Table.mem_updateWhere.mp hy
  rw [h x₀ hx₀ y₀ hy₀ hxy]

theorem UniqueNames.updateWhere_of_name (h : UniqueNames t) (hf : ∀ d, (f d).id = d.id)
    (hname : ∀ d, (f d).domainName = d.domainName) :
    UniqueNames (t.updateWhere p f hf) := by
  have hkeep (d : Domain) : (if p d then f d else d).domainName = d.domainName := by
    split
    · exact hname d
    · rfl
  refine updateWhere hf fun x hx y hy hxy => h x hx y hy ?_
  rwa [hkeep, hkeep] at hxy

/-- A condition that at most one row of a list satisfies. -/
theorem eq_of_countP_le_one {l : List α} (h : ¬1 < l.countP p) (hx : x ∈ l) (hpx : p x = true)
    (hy : y ∈ l) (hpy : p y = true) : x = y := by
  have hlen : (l.filter p).length ≤ 1 := by rw [← List.countP_eq_length_filter]; omega
  have hx' : x ∈ l.filter p := List.mem_filter.mpr ⟨hx, hpx⟩
  have hy' : y ∈ l.filter p := List.mem_filter.mpr ⟨hy, hpy⟩
  match hl : l.filter p, hlen with
  | [], _ => rw [hl] at hx'; cases hx'
  | [z], _ =>
    rw [hl, List.mem_singleton] at hx' hy'
    rw [hx', hy']

theorem UniqueNames.domainStmt (h : UniqueNames t) (now : Time) (s : DomainStmt β) :
    UniqueNames (s.exec now t).2 := by
  cases s with
  | updateDeploymentForService => exact h.updateWhere_of_name (fun _ => by rfl) fun _ => rfl
  | deleteManagedByServiceID => exact h.keep _
  | updateDeploymentForDomainID => exact h.updateWhere_of_name (fun _ => by rfl) fun _ => rfl
  | create d =>
    simp only [DomainStmt.exec]
    split
    · exact h
    · next hany =>
      exact h.inserting fun x hx hname =>
        hany (List.any_eq_true.mpr ⟨x, hx, beq_iff_eq.mpr hname⟩)
  | updateManagedByServiceID s host dep =>
    simp only [DomainStmt.exec]
    split
    · exact h
    next hfree =>
    rw [Bool.or_eq_true, not_or] at hfree
    -- The new name is the name of no other row, and at most one row gets it.
    have hother : ∀ x ∈ t, x.managedBy s = false → x.domainName ≠ host := by
      intro x hx hm hname
      refine hfree.1 (List.any_eq_true.mpr ⟨x, hx, ?_⟩)
      simp [hm, hname]
    have hone : ¬1 < t.rows.countP (Domain.managedBy s) := by simpa using hfree.2
    refine updateWhere (fun _ => by rfl) fun x hx y hy hxy => ?_
    cases hmx : x.managedBy s <;> cases hmy : y.managedBy s <;> simp only [hmx, hmy] at hxy
    · exact h x hx y hy hxy
    · exact absurd hxy (hother x hx hmx)
    · exact absurd hxy.symm (hother y hy hmy)
    · exact eq_of_countP_le_one hone hx hmx hy hmy

theorem UniqueNames.apiDomainStmt (h : UniqueNames t) (now : Time) (s : ApiDomainStmt β) :
    UniqueNames (s.exec now t).2 := by
  cases s with
  | create d =>
    simp only [ApiDomainStmt.exec]
    split
    · exact h
    · next hany =>
      exact h.inserting fun x hx hname =>
        hany (List.any_eq_true.mpr ⟨x, hx, beq_iff_eq.mpr hname⟩)
  | setVerified | setVerifiedByServiceID | updateDeploymentForProject =>
    exact h.updateWhere_of_name (fun _ => by rfl) fun _ => rfl

theorem UniqueNames.write (h : UniqueNames t) (now : Time) (w : DomainWrite) :
    UniqueNames (w.exec now t) := by
  cases w with
  | request s => exact h.apiDomainStmt now s
  | route s => exact h.domainStmt now s
  | _ => exact h.keep _

end unique

structure Domains where
  table : DomainTable
  unique : UniqueNames table

def Domains.empty : Domains := ⟨Table.empty, fun _ h => absurd h List.not_mem_nil⟩

def Domains.write (t : Domains) (now : Time) (w : DomainWrite) : Domains :=
  ⟨w.exec now t.table, t.unique.write now w⟩

def Domains.writeAll (t : Domains) (ws : List (Time × DomainWrite)) : Domains :=
  ws.foldl (fun t w => t.write w.1 w.2) t

def normalizeControlPlaneHosts (hosts : List String) : List String := hosts.foldl (fun out h =>
    let h := lower (trimSpace h)
    if h == "" || out.contains h then out else out ++ [h]) []

/-- `SELECT verified_at FROM domains WHERE domain_name = $1` -/
def Domains.domainVerified (t : Domains) (name : String) : Except Err (Option Time) :=
  one ((t.table.rows.find? (·.domainName == name)).map (·.verifiedAt))

/-- The decision about a name, with `answer` whether the database answers. The time of the verification
is not looked at, only whether the query fails. -/
def decisionFunc (controlPlaneHosts : List String) (t : Domains) (answer : Answer) (name : String) :
    Except Err Unit :=
  let cpHosts := normalizeControlPlaneHosts controlPlaneHosts
  if cpHosts.any fun h => h != "" && equalFold name h then .ok ()
  else
  match if answer.fail then .error (.of .unavailable) else t.domainVerified name with
  | .error _ => .error (.of (.message ("domain not authorized: " ++ name)))
  | .ok _ => .ok ()

end Kindling
