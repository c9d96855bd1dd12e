import Kindling.Deploy.Executions
import Kindling.Edge.Certificates

/-!
# Which hosts get certificates

The query behind the decision returns a row for every domain that exists, with an empty time for one
that is not verified, and the decision takes any row for a permission.
-/

namespace Kindling

def ControlPlaneHost (controlPlaneHosts : List String) (name : String) : Prop :=
  ∃ h ∈ controlPlaneHosts, trimSpace h ≠ "" ∧ equalFold name (lower (trimSpace h)) = true

def Domains.Verified (t : Domains) (name : String) : Prop :=
  ∃ d ∈ t.table, d.domainName = name ∧ d.verifiedAt.isSome = true

def Domains.Pending (t : Domains) (name : String) : Prop :=
  ∃ d ∈ t.table, d.domainName = name ∧ d.verifiedAt = none

theorem lower_eq_empty : lower s = "" ↔ s = "" := by
  constructor
  · intro h
    have hlist : s.toList.map lowerChar = [] := by
      rw [← String.toList_ofList (l := s.toList.map lowerChar)]
      exact congrArg String.toList h
    exact String.toList_eq_nil_iff.mp (List.map_eq_nil_iff.mp hlist)
  · rintro rfl
    rfl

theorem mem_normalizeControlPlaneHosts :
    x ∈ normalizeControlPlaneHosts hosts ↔
      ∃ h ∈ hosts, trimSpace h ≠ "" ∧ x = lower (trimSpace h) := by
  -- The accumulator holds the hosts that are done.
  suffices h : ∀ (hosts out : List String), x ∈ hosts.foldl (fun out h =>
        let h := lower (trimSpace h)
        if h == "" || out.contains h then out else out ++ [h]) out ↔
      x ∈ out ∨ ∃ h ∈ hosts, trimSpace h ≠ "" ∧ x = lower (trimSpace h) by
    simpa [normalizeControlPlaneHosts] using h hosts []
  intro hosts
  induction hosts with
  | nil => simp
  | cons h hosts ih =>
    intro out
    rw [List.foldl_cons, ih]
    by_cases hblank : trimSpace h = ""
    · simp [hblank, lower_eq_empty]
    · have hne : lower (trimSpace h) ≠ "" := mt lower_eq_empty.mp hblank
      grind

theorem any_controlPlaneHosts :
    ((normalizeControlPlaneHosts hosts).any fun h => h != "" && equalFold name h) = true ↔
      ControlPlaneHost hosts name := by
  simp only [List.any_eq_true, mem_normalizeControlPlaneHosts, Bool.and_eq_true, bne_iff_ne]
  constructor
  · rintro ⟨_, ⟨h, hh, hne, rfl⟩, -, hfold⟩
    exact ⟨h, hh, hne, hfold⟩
  · rintro ⟨h, hh, hne, hfold⟩
    exact ⟨_, ⟨h, hh, hne, rfl⟩, mt lower_eq_empty.mp hne, hfold⟩

theorem Domains.domainVerified_ok {t : Domains} {name : String} :
    (∃ v, t.domainVerified name = .ok v) ↔ t.Verified name ∨ t.Pending name := by
  unfold domainVerified
  constructor
  · rintro ⟨v, h⟩
    obtain ⟨d, hd, rfl⟩ := Option.map_eq_some_iff.mp (one_ok h)
    have hmem := List.mem_of_find?_eq_some hd
    have hname : d.domainName = name := by simpa using List.find?_some hd
    cases hv : d.verifiedAt with
    | some v => exact .inl ⟨d, hmem, hname, by rw [hv]; rfl⟩
    | none => exact .inr ⟨d, hmem, hname, hv⟩
  · intro h
    obtain ⟨d, hmem, hname⟩ : ∃ d ∈ t.table, d.domainName = name := by
      rcases h with ⟨d, hmem, hname, -⟩ | ⟨d, hmem, hname, -⟩ <;> exact ⟨d, hmem, hname⟩
    cases hd : t.table.rows.find? (·.domainName == name) with
    | some d => exact ⟨d.verifiedAt, rfl⟩
    | none => exact absurd (List.find?_eq_none.mp hd d hmem) (by simp [hname])

theorem decisionFunc_ok :
    decisionFunc hosts t answer name = .ok () ↔
      ControlPlaneHost hosts name ∨ answer.fail = false ∧ (t.Verified name ∨ t.Pending name) := by
  rw [← any_controlPlaneHosts, ← Domains.domainVerified_ok]
  simp only [decisionFunc]
  generalize (normalizeControlPlaneHosts hosts).any (fun h => h != "" && equalFold name h) = host
  cases host with
  | true => simp
  | false => cases answer.fail <;> cases t.domainVerified name <;> simp

theorem Domains.Verified.not_pending {t : Domains} {name : String} (h : t.Verified name) :
    ¬t.Pending name := by
  rintro ⟨y, hy, hyname, hpending⟩
  obtain ⟨x, hx, hxname, hverified⟩ := h
  rw [t.unique x hx y hy (hxname.trans hyname.symm), hpending] at hverified
  cases hverified

/-- After every sequence of writes, certificates are issued for the hosts of the control plane and for
verified domains only, exactly when the name is not that of a domain that waits for its verification, or
is also a host of the control plane. -/
theorem certificates_only_for_verified (hosts : List String) (t : Domains)
    (ws : List (Time × DomainWrite)) (name : String) :
    (∀ answer, decisionFunc hosts (t.writeAll ws) answer name = .ok () →
      ControlPlaneHost hosts name ∨ (t.writeAll ws).Verified name) ↔
    (¬(t.writeAll ws).Pending name ∨ ControlPlaneHost hosts name) := by
  constructor
  · intro h
    rw [or_iff_not_imp_left, not_not]
    intro hpending
    refine (h { fail := false } (decisionFunc_ok.mpr (.inr ⟨rfl, .inr hpending⟩))).resolve_right ?_
    exact fun hverified => hverified.not_pending hpending
  · intro h answer hok
    rcases decisionFunc_ok.mp hok with hhost | ⟨-, hverified | hpending⟩
    · exact .inl hhost
    · exact .inr hverified
    · exact .inl (h.resolve_left fun hn => hn hpending)

/-- A domain that a request has just created gets a certificate before it is verified. -/
theorem pending_domain_gets_certificate :
    let t := Domains.empty.writeAll [(5, .request (.create
      { id := 1, projectId := 2, serviceId := some 3, domainName := "app.example.com"
        verificationToken := "00ff" }))]
    decisionFunc ["kindling.example.org"] t {} "app.example.com" = .ok () ∧
      ¬ControlPlaneHost ["kindling.example.org"] "app.example.com" ∧
      ¬t.Verified "app.example.com" := by
  refine ⟨by decide +kernel, ?_, ?_⟩
  · unfold ControlPlaneHost
    decide +kernel
  · rintro ⟨d, hd, -, hv⟩
    cases List.mem_singleton.mp hd
    cases hv

end Kindling
