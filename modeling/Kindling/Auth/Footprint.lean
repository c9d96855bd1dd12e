import Kindling.Auth.Handlers

/-!
# What the handlers write

Each statement writes one table. For the programs that the handlers share, these are the tables that
their statements write; what is not among them is as it was.
-/

namespace Kindling

open Fallible

/-- The tables, what an administrator configures, and the context of the request. -/
inductive AuthPart
  | users | organizations | memberships | sessions | apiKeys | identities | setup | context
  deriving DecidableEq, Repr

def AuthStmt.part : AuthStmt β → AuthPart
  | userCreate _ | userUpdatePasswordHash .. | userUpdateDisplayName .. | userSetPlatformAdmin .. =>
    .users
  | organizationCreate _ | organizationUpdateEmailDomain .. => .organizations
  | organizationMembershipCreate _ | organizationMembershipUpsertOwner ..
  | organizationMembershipUpsert .. | organizationMembershipUpdatePendingStatus .. => .memberships
  | userSessionCreate _ | userSessionDelete _ | userSessionDeleteAllForUser _
  | userSessionDeleteOthersByTokenHash .. | userSessionUpdateCurrentOrg .. => .sessions
  | userApiKeyCreate _ | userApiKeyRevoke .. => .apiKeys
  | userIdentityCreate _ | userIdentityUpdateByID .. => .identities

/-- The call writes nothing but the given parts. -/
def WritesOnly (T : List AuthPart) (β : Type) : AuthOp β → Prop
  | .write s => s.part ∈ T
  | .withPrincipal _ => .context ∈ T
  | .configure _ => .setup ∈ T
  | _ => True

def AuthOp.createsUser : AuthOp β → Bool
  | .write (.userCreate _) => true
  | _ => false

section frame
variable {T : List AuthPart} {db : AuthDB}

theorem AuthStmt.users_exec {s : AuthStmt β} (h : s.part ≠ .users) (now : Time) :
    (s.exec now db).2.users = db.users := by
  cases s with
  | userCreate | userUpdatePasswordHash | userUpdateDisplayName | userSetPlatformAdmin =>
    exact absurd rfl h
  | userIdentityUpdateByID =>
    dsimp only [exec]
    split
    · rfl
    · rfl
  | _ => rfl

theorem AuthStmt.identities_exec {s : AuthStmt β} (h : s.part ≠ .identities) (now : Time) :
    (s.exec now db).2.identities = db.identities := by
  cases s with
  | userIdentityCreate | userIdentityUpdateByID => exact absurd rfl h
  | _ => rfl

theorem WritesOnly.users_step (h : WritesOnly T β op) (hT : .users ∉ T)
    (a : AuthAnswer) : (op.step a db).2.users = db.users := by
  cases op with
  | write s =>
    dsimp only [AuthOp.step]
    split
    · rfl
    · exact AuthStmt.users_exec (fun hs => hT (hs ▸ h)) a.now
  | _ => rfl

theorem WritesOnly.identities_step (h : WritesOnly T β op) (hT : .identities ∉ T)
    (a : AuthAnswer) : (op.step a db).2.identities = db.identities := by
  cases op with
  | write s =>
    dsimp only [AuthOp.step]
    split
    · rfl
    · exact AuthStmt.identities_exec (fun hs => hT (hs ▸ h)) a.now
  | _ => rfl

theorem WritesOnly.not_createsUser (h : WritesOnly T β op) (hT : .users ∉ T) :
    op.createsUser ≠ true := by
  intro hcreates
  cases op with
  | write s =>
    cases s with
    | userCreate u => exact hT h
    | _ => cases hcreates
  | _ => cases hcreates

end frame

section programs
variable {T T' : List AuthPart}

theorem WritesOnly.mono (hT : T ⊆ T') {β : Type} {op : AuthOp β} (h : WritesOnly T β op) :
    WritesOnly T' β op := by
  cases op with
  | write s => exact hT h
  | withPrincipal p => exact hT h
  | configure s => exact hT h
  | _ => trivial

attribute [local simp] WritesOnly AuthStmt.part authQuery authStmt context

theorem authQuery_writes : Uses (WritesOnly T) (authQuery q) := by simp

theorem requireTrustedOrigin_writes : Uses (WritesOnly []) (requireTrustedOrigin cfg r) := by
  simp [requireTrustedOrigin]

theorem mustPrincipal_writes : Uses (WritesOnly []) (mustPrincipal p) := by
  cases p <;> simp [mustPrincipal]

theorem requireOrgAdmin_writes : Uses (WritesOnly []) (requireOrgAdmin p) := by
  simp [requireOrgAdmin]

theorem byToken_writes : Uses (WritesOnly T) (byToken q message) := by simp [byToken]

theorem memberOf_writes : Uses (WritesOnly T) (memberOf user org) := by simp [memberOf]

theorem withPrincipal_writes : Uses (WritesOnly [.context]) (withPrincipal p) := by
  simp [withPrincipal]

theorem admitSession_writes : Uses (WritesOnly [.context]) (admitSession cfg r) := by
  unfold admitSession
  split
  · exact .throw
  simp only [uses_bind, uses_ite, uses_ofTotal]
  refine ⟨trivial, fun _ _ => ⟨fun _ => .throw, fun _ => ?_⟩⟩
  split <;> simp [byToken_writes, memberOf_writes, withPrincipal_writes]

theorem middleware_writes : Uses (WritesOnly [.context]) (middleware cfg r) := by
  unfold middleware
  split
  · exact .pure
  split <;> simp [admitAPIKey, admitWorker, byToken_writes, memberOf_writes, withPrincipal_writes,
    admitSession_writes]

theorem chooseOrganization_writes (user : Id) (orgs : List Organization)
    (chosen : Option (Organization × OrgRole)) :
    Uses (WritesOnly []) (chooseOrganization user orgs chosen) := by
  induction orgs generalizing chosen with
  | nil => exact .pure
  | cons candidate rest ih => simp [chooseOrganization, ih]

theorem issueSessionForUser_writes :
    Uses (WritesOnly [.sessions]) (issueSessionForUser cfg user) := by
  refine .bind authQuery_writes fun orgs => .bind
    ((chooseOrganization_writes ..).mono fun _ _ => .mono (List.nil_subset _)) fun r => ?_
  split <;> simp

theorem updateIdentity_writes {id : Id} :
    Uses (WritesOnly [.identities]) (updateIdentity id identity) := by
  simp [updateIdentity]

theorem linkExternalIdentity_writes :
    Uses (WritesOnly [.identities]) (linkExternalIdentity user provider identity) := by
  simp [linkExternalIdentity, updateIdentity_writes]

theorem joinByDomain_writes : Uses (WritesOnly [.memberships]) (joinByDomain user emailDomain) := by
  simp [joinByDomain]

theorem allocateOrganization_writes {name : String} :
    Uses (WritesOnly [.organizations, .memberships])
      (allocateOrganization user name slugBase l) := by
  induction l with
  | nil => exact .throw
  | cons i rest ih => simp [allocateOrganization, ih]

theorem createPersonalOrganization_writes :
    Uses (WritesOnly [.organizations, .memberships])
      (createPersonalOrganization cfg user identity emailDomain matched) := by
  simp [createPersonalOrganization, createOwnedOrganizationForUser, allocateOrganization_writes]

theorem joinGitHubOrganizations_writes :
    Uses (WritesOnly [.memberships]) (joinGitHubOrganizations user provider orgLogins) := by
  simp [joinGitHubOrganizations]

theorem enrolUser_writes : Uses (WritesOnly [.organizations, .memberships, .identities])
      (enrolUser cfg user provider identity orgLogins) := by
  refine .bind (joinByDomain_writes.mono fun _ _ => .mono (by decide)) fun _ =>
    .bind (createPersonalOrganization_writes.mono fun _ _ => .mono (by decide)) fun _ => ?_
  refine .bind (joinGitHubOrganizations_writes.mono fun _ _ => .mono (by decide))
    fun _ => .bind (context_uses ?_) fun _ => .pure
  exact linkExternalIdentity_writes.mono fun _ _ => .mono (by decide)

theorem readExternalAuthState_writes : Uses (WritesOnly []) (readExternalAuthState cookie) := by
  cases cookie <;> simp [readExternalAuthState]

theorem callbackIdentity_writes : Uses (WritesOnly []) (callbackIdentity cb s) := by
  simp [callbackIdentity]

theorem linkCallback_writes :
    Uses (WritesOnly [.identities]) (linkCallback cfg provider identity linkUser) := by
  unfold linkCallback
  split <;> simp [linkExternalIdentity_writes]

end programs

end Kindling
