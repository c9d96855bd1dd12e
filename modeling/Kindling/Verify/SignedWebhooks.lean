import Kindling.Deploy.Executions
import Kindling.Webhook.GitHub

/-!
# Webhooks are signed

The calls before the check of the signature only read, and every event passes the check.
-/

namespace Kindling

open Fallible

def HookHandler.Names (h : HookHandler) (w : HookWorld) (body : Bytes) (project : Project) : Prop :=
  ∃ fullName, h.tools.unmarshalGeneric body = some fullName ∧
    w.db.projects.rows.find? (·.githubRepository == normalizeRepo (trimSpace fullName)) = some project

/-- The secret behind an event: of an integration of the project's organization, which the event names by
its owner, or of the project. -/
def HookHandler.Secret (h : HookHandler) (w : HookWorld) (event : String) (body : Bytes)
    (project : Project) (secret : String) : Prop :=
  if event = "workflow_job" then
    ∃ wjEvent integration, h.tools.unmarshalWorkflowJob body = some wjEvent ∧
      resolveIntegrationForOwner (h.integrations (w.connectionsOf project.orgId)) wjEvent.owner =
        some integration ∧
      secret = integration.credentials.webhookSecret
  else secret = project.githubWebhookSecret

/-- The header is the HMAC of the body under the secret, in hexadecimal digits. -/
def HookTools.Signs (tools : HookTools) (secret : String) (body : Bytes) (signature : String) : Prop :=
  ∃ digits, signature.toList = signatureScheme.toList ++ digits ∧
    hexDecode digits = some (tools.hmacSHA256 secret body)

def HookHandler.Signed (h : HookHandler) (w : HookWorld) (r : HookRequest) : Prop :=
  ∃ body project secret, r.body = some body ∧ h.Names w body project ∧
    h.Secret w r.event body project secret ∧ trimSpace secret ≠ "" ∧
    h.tools.Signs secret body r.signature

/-! ## The check -/

theorem enforceSignature_ok (h : enforceSignature tools body signature secret = .ok ()) :
    trimSpace secret ≠ "" ∧ tools.Signs secret body signature := by
  unfold enforceSignature at h
  split at h
  · cases h
  next hblank =>
  split at h
  · cases h
  split at h
  · cases h
  next hscheme =>
  split at h
  · cases h
  next sig hsig =>
  split at h
  · next hmac =>
    have hpre : signatureScheme.toList <+: signature.toList :=
      List.isPrefixOf_iff_prefix.mp (by simpa [hasPrefix] using hscheme)
    obtain ⟨digits, hdigits⟩ := hpre
    refine ⟨by simpa using hblank, digits, hdigits.symm, ?_⟩
    have hrest : (trimPrefix signatureScheme signature).toList = digits := by
      unfold trimPrefix
      rw [if_pos (List.isPrefixOf_iff_prefix.mpr ⟨digits, hdigits⟩), String.toList_ofList, ← hdigits]
      exact List.drop_left' rfl
    rw [← hrest, hsig, beq_iff_eq.mp hmac]
  · cases h

theorem HookTools.parseProviderCredentials_trimmed {tools : HookTools} {creds : ProviderCredentials}
    (h : tools.parseProviderCredentials raw = some creds) :
    trimSpace creds.webhookSecret = creds.webhookSecret := by
  simp only [parseProviderCredentials, Option.ite_none_left_eq_some] at h
  obtain ⟨creds₀, -, rfl⟩ := Option.map_eq_some_iff.mp (Option.filter_eq_some_iff.mp h.2).1
  exact trimSpace_trimSpace

theorem trimSpace_webhookSecret {h : HookHandler} {owner : String} {i : Integration}
    (hi : resolveIntegrationForOwner (h.integrations rows) owner = some i) :
    trimSpace i.credentials.webhookSecret = i.credentials.webhookSecret := by
  have hmem : i ∈ h.integrations rows := by
    simp only [resolveIntegrationForOwner, Option.ite_none_left_eq_some] at hi
    exact List.mem_of_find?_eq_some hi.2
  obtain ⟨row, -, hrow⟩ := List.mem_filterMap.mp hmem
  simp only [Option.bind_eq_bind, Option.ite_none_left_eq_some, Option.bind_eq_some_iff] at hrow
  obtain ⟨-, decrypt, -, plain, -, hconn⟩ := hrow
  unfold HookTools.integrationFromConnection at hconn
  simp only [Option.bind_eq_bind, Option.ite_none_left_eq_some, Option.bind_eq_some_iff] at hconn
  obtain ⟨metadata, -, -, creds, hcreds, -, hi⟩ := hconn
  cases hi
  exact HookTools.parseProviderCredentials_trimmed hcreds

section reading
variable {h : HookHandler} {w : HookWorld} {r : HookRequest} {G : Prog.Guard HookOp Answer HookWorld}

theorem hookQuery_keeps : Keeps G (· = w) (hookQuery q) fun b => q.eval w = .ok b := by
  refine .ofCall fun as s _ hs => ?_
  subst hs
  refine ⟨rfl, fun b hb => ?_⟩
  change (if (as.headD default).fail then _ else q.eval s) = .ok b at hb
  split at hb
  · cases hb
  · exact hb

theorem orThrow_keeps : Keeps G (· = w) (orThrow e a?) fun a => a? = some a := by
  cases a? with
  | some a => exact .pure rfl
  | none => exact .throw

theorem webhookSecret_keeps :
    Keeps G (· = w) (webhookSecret h event body project) (h.Secret w event body project) := by
  refine .ite (fun hevent => ?_) fun hevent => ?_
  · refine .bind orThrow_keeps fun wjEvent hwj => .mapError (.bind hookQuery_keeps fun rows hrows => ?_)
    cases hrows
    split
    · exact .throw
    · next integration hi =>
      refine .pure ?_
      rw [HookHandler.Secret, if_pos (beq_iff_eq.mp hevent)]
      exact ⟨wjEvent, integration, hwj, hi, trimSpace_webhookSecret hi⟩
  · refine .pure ?_
    rw [HookHandler.Secret, if_neg (by simpa using hevent)]

/-- The calls before the check only read, and a request that passes it is signed. -/
theorem authenticate_keeps : Keeps G (· = w) (authenticate h r) fun _ => h.Signed w r := by
  refine .ite (fun _ => .throw) fun _ => .bind orThrow_keeps fun body hbody => ?_
  refine .ite (fun _ => .throw) fun _ => .bind orThrow_keeps fun fullName hname => ?_
  refine .ite (fun _ => .throw) fun _ => .bind (.mapError hookQuery_keeps) fun project hproject => ?_
  refine .bind webhookSecret_keeps fun secret hsecret => ?_
  refine .bind (.ofResult fun _ h => h) fun _ hsigned => .pure ?_
  obtain ⟨hblank, hsigns⟩ := enforceSignature_ok hsigned
  exact ⟨body, project, secret, hbody, ⟨fullName, hname, one_ok hproject⟩, hsecret, hblank, hsigns⟩

end reading

/-- **Webhooks are signed.** Whatever a request to the webhook is, and whatever its calls are answered, a
state that it brings about and that is not the one it found means that the request carries the HMAC of its
body under the secret of the project or of the integration that was looked up, and that the secret is
not blank. -/
theorem webhook_changes_only_when_signed (h : HookHandler) (r : HookRequest) (as : List Answer)
    (w s : HookWorld) (hs : s ∈ Prog.visits (serveHTTP h r) as w) (hne : s ≠ w) : h.Signed w r := by
  have hauth := authenticate_keeps (h := h) (r := r) (G := Prog.unguarded) w rfl
  have hserve : Prog.Holds Prog.unguarded (fun s => s = w ∨ h.Signed w r) (serveHTTP h r)
      (fun _ _ => True) w := by
    refine Prog.Holds.bind (hauth.guard_mono (fun _ _ _ _ hg => hg) fun _ => .inl) fun res s' hres => ?_
    cases res with
    | error e => trivial
    | ok v =>
      have hsigned := hres.2 v rfl
      exact (Prog.holds_of_call_invariant (fun _ _ _ _ _ _ => .inr hsigned) _ (.inr hsigned)).mono
        fun _ _ _ => trivial
  exact ((hserve.run (Prog.meets_unguarded _ as w)).2 s hs).resolve_left hne

/-- Project 3 of the repository `acme/app`, with a service. -/
def hookSampleWorld : HookWorld where
  db := { projects := .single { id := 3, githubRepository := "acme/app", githubWebhookSecret := "k" }
          services := .single { id := 4, projectId := 3 } }

def hookSampleHandler : HookHandler where
  tools := {
    unmarshalGeneric := fun _ => some "acme/app"
    unmarshalPush := fun _ => some { ref := "refs/heads/main", after := "c1" }
    unmarshalPullRequest := fun _ => none
    unmarshalWorkflowJob := fun _ => none
    unmarshalMetadata := fun _ => none
    unmarshalCredentials := fun _ => none
    hmacSHA256 := fun secret body => secret.toList.map (fun c => UInt8.ofNat c.toNat) ++ body }

def signedPush : HookRequest :=
  { method := .post, body := some [1], event := "push", signature := "sha256=6b01" }

theorem signedPush_visits :
    (Prog.visits (serveHTTP hookSampleHandler signedPush) [] hookSampleWorld).length = 4 := by
  decide +kernel

/-- A push that is signed creates a deployment. -/
theorem signed_push_creates : hookSampleHandler.Signed hookSampleWorld signedPush := by
  refine webhook_changes_only_when_signed hookSampleHandler signedPush [] hookSampleWorld _
    (List.getElem_mem (n := 3) (by rw [signedPush_visits]; decide)) fun heq => ?_
  have hrows := congrArg (fun s : HookWorld => s.db.deployments.rows.length) heq
  revert hrows
  decide +kernel

end Kindling
