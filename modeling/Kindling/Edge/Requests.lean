import Kindling.Autoscale.Idle
import Kindling.Edge.Certificates
import Kindling.Edge.RouteTable

/-!
# Requests to the edge proxy

`serveHTTPS` of `internal/edgeproxy/edgeproxy.go`, with its wake-up of what is scaled to zero and its
retry of a backend that fails. Each use of what the goroutines share, each query and each attempt at a
backend is one call, and any result of it is possible.
-/

namespace Kindling.EdgeProxy

open Prog (lift)

/-! ## The handler -/

structure DomainEdgeLookupRow extends EdgeLookup where
  redirectTo : Option String
  redirectStatusCode : Option Int
  previewClosedAt : Option Time
  domainKind : String
  runningBackendCount : Int

inductive Response
  | proxied
  | redirect (target : String) (code : Int)
  | error (code : Nat) (text : String)

inductive RequestOp : Type → Type 1
  /-- `s.routes[host]`, under the lock. -/
  | route (host : String) : RequestOp (Option Route)
  | loadRoutes : RequestOp (Except Err Unit)
  | domainEdgeLookup (host : String) : RequestOp (Except Err DomainEdgeLookupRow)
  | proxyControlPlane : RequestOp Unit
  /-- `s.backendRR.Add(1) - 1` -/
  | backendRR : RequestOp Nat
  /-- One attempt, with the status of the response. -/
  | proxyToBackend (b : Backend) : RequestOp (Except Err Int)
  /-- The activity is recorded by a goroutine of its own. -/
  | recordRequestActivity (preview : Bool) (project deployment : Option Id) : RequestOp Unit
  | maybeDeploymentScaleHint (deployment : Id) : RequestOp Unit
  | idle {β : Type} (op : IdleOp β) : RequestOp β
  | wakeDeployment (deployment : Id) : RequestOp Unit
  /-- Whether the context of the request is done. -/
  | done : RequestOp Bool
  | now : RequestOp Time
  /-- Whether the time passes before the context is done. -/
  | wait (d : Time) : RequestOp Bool

/-- `serveRedirect` and its like for a lookup. -/
def redirect (target : String) (code : Int) : Response :=
  .redirect target (if code < 300 ∨ code > 399 then 301 else code)

def pickBackend (route : Route) : Prog RequestOp (Option Backend) :=
  if route.backends = [] then return none
  else do
    let i ← lift .backendRR
    return route.backends[i % route.backends.length]?

def badGateway : Response := .error 502 "Bad Gateway"

def routeWithBackends (host : String) : Prog RequestOp (Option Route) := do
  return (← lift (.route host)).filter (·.backends ≠ [])

/-- A round of the loop of `reverseProxy`, with what is done when the attempt fails. -/
def tryBackend (deployment : Option Id) (route : Route) (failed : Prog RequestOp Response) :
    Prog RequestOp Response := do
  match ← pickBackend route with
  | none => return .error 404 "Service Not Found"
  | some b => match ← lift (.proxyToBackend b), deployment with
    | .error _, _ => failed
    | .ok _, none => return .proxied
    | .ok status, some d =>
      if 200 ≤ status ∧ status < 300 ∧ ¬equalFold route.deploymentKind "preview" then
        lift (.maybeDeploymentScaleHint d)
      return .proxied

/-- The loop goes round again at most `retries` times. -/
def proxyRounds (host : String) (deployment : Option Id) : (retries : Nat) → Route →
    Prog RequestOp Response
  | 0, route => tryBackend deployment route (return badGateway)
  | retries + 1, route => tryBackend deployment route do
    if ← lift .done then return badGateway
    else match ← lift .loadRoutes with
      | .error _ => return badGateway
      | .ok _ => match ← routeWithBackends host with
        | none => return badGateway
        | some route => proxyRounds host deployment retries route

def reverseProxy (host : String) (route : Route) : Prog RequestOp Response := do
  let preview := equalFold route.deploymentKind "preview"
  lift (.recordRequestActivity preview route.projectId route.deploymentId)
  proxyRounds host route.deploymentId 1 route

/-- The table is read again when the lookup has found running backends. -/
def reload (host : String) (lookup : DomainEdgeLookupRow) : Prog RequestOp (Option Route) :=
  if 0 < lookup.runningBackendCount then do
    let _ ← lift .loadRoutes
    routeWithBackends host
  else return none

def coldStartLookupPollInterval : Time := second / 5

/-- The loop of `waitForBackend`, for at most `rounds` rounds. -/
def waitRounds (host : String) (deadline : Time) : Nat → Prog RequestOp (Option Route)
  | 0 => return none
  | rounds + 1 => do
    if deadline ≤ (← lift .now) then return none
    else match ← routeWithBackends host with
      | some route => return some route
      | none => match ← lookAgain with
        | some route => return some route
        | none =>
          let now ← lift .now
          if deadline ≤ now then return none
          else if ← lift (.wait (min coldStartLookupPollInterval (deadline - now))) then
            waitRounds host deadline rounds
          else return none
where
  lookAgain : Prog RequestOp (Option Route) := do
    match ← lift (.domainEdgeLookup host) with
    | .ok lookup => reload host lookup
    | .error _ => return none

structure EdgeConfig where
  apiBackend : Bool
  controlPlaneHosts : List String
  coldStartTimeout : Time
  rounds : Nat

def EdgeConfig.controlPlane (cfg : EdgeConfig) (host : String) : Bool :=
  cfg.apiBackend && cfg.controlPlaneHosts.any fun h => h != "" && equalFold host h

def waitForBackend (cfg : EdgeConfig) (host : String) : Prog RequestOp (Option Route) := do
  let now ← lift .now
  waitRounds host (now + cfg.coldStartTimeout) cfg.rounds

def previewLookupShouldReturnGone (lookup : DomainEdgeLookupRow) : Bool :=
  lookup.previewClosedAt.isSome && hasPrefix lookup.domainKind "preview_"

def requestColdStart (lookup : DomainEdgeLookupRow) (deployment : Id) : Go RequestOp Unit := do
  let preview := lookup.deploymentKind == some .preview
  Fallible.ofTotal (.recordRequestActivity preview lookup.projectId (some deployment))
  Fallible.hoist (fun _ => .idle) (Kindling.requestColdStart lookup.toEdgeLookup)
  Fallible.ofTotal (.wakeDeployment deployment)

/-- The part of `serveHTTPS` for a host that the table has no backends for. -/
def serveCold (cfg : EdgeConfig) (host : String) (lookup : DomainEdgeLookupRow) :
    Prog RequestOp Response :=
  match lookup.redirectTo, lookup.deploymentId with
  | some target, _ => return redirect target (lookup.redirectStatusCode.getD 0)
  | none, deployment =>
    if previewLookupShouldReturnGone lookup then return .error 410 "Preview Environment Gone"
    else match deployment with
      | none => return .error 404 "Service Not Found"
      | some d => do
        match ← reload host lookup with
        | some route => reverseProxy host route
        | none => match ← requestColdStart lookup d with
          | .error _ => return .error 500 "Internal Server Error"
          | .ok _ => match ← waitForBackend cfg host with
            | some route => reverseProxy host route
            | none =>
              if ← lift .done then return .error 408 "Request Timeout"
              else return .error 503 "Service Unavailable"

def serveHTTPS (cfg : EdgeConfig) (host : String) : Prog RequestOp Response := do
  if cfg.controlPlane host then
    lift .proxyControlPlane
    return .proxied
  else
    let route ← lift (.route host)
    match route.filter (·.redirectTo ≠ ""), route.filter (·.backends ≠ []) with
    | some route, _ => return redirect route.redirectTo route.redirectStatusCode
    | none, some route => reverseProxy host route
    | none, none => match ← lift (.domainEdgeLookup host) with
      | .ok lookup => serveCold cfg host lookup
      | .error e =>
        if e.isNoRows then return .error 404 "Service Not Found"
        else return .error 500 "Internal Server Error"

/-! ## Where a request goes -/

/-- What a request has learnt: the entry of the table that it has read last, the lookup that it was let
in by, and the number of its attempts. -/
structure RequestSight where
  entry : Option Route := none
  lookup : Option DomainEdgeLookupRow := none
  attempts : Nat := 0

/-- A lookup that lets a request wake the deployment. -/
def DomainEdgeLookupRow.Wakes (lookup : DomainEdgeLookupRow) (deployment : Id) : Prop :=
  lookup.deploymentId = some deployment ∧ lookup.redirectTo = none ∧
    previewLookupShouldReturnGone lookup = false

/-- A request for a host asks for that host only. It goes to the control plane if the host is one of
its hosts; otherwise it goes to backends that the entry has which was read last, at most twice, and it
wakes the deployment of its own lookup. -/
def requestSight (cfg : EdgeConfig) (host : String) : Typestate RequestOp RequestSight where
  start := {}
  allows m
    | .route h | .domainEdgeLookup h => h = host
    | .proxyControlPlane => cfg.controlPlane host
    | .proxyToBackend b =>
      cfg.controlPlane host = false ∧ m.attempts < 2 ∧ ∃ route ∈ m.entry, b ∈ route.backends
    | .idle (.deploymentPreviewClearScaledToZero d) | .idle (.deploymentRequestWake d)
    | .wakeDeployment d => ∃ lookup ∈ m.lookup, lookup.Wakes d
    | .idle (.projectClearScaledToZero p) =>
      ∃ lookup ∈ m.lookup, lookup.projectId = some p ∧ ∃ d, lookup.Wakes d
    | .idle _ => False
    | _ => True
  possible _ _ _ := True
  next m
    | .route _, r => { m with entry := r }
    | .domainEdgeLookup _, r => { m with lookup := m.lookup <|> r.toOption }
    | .proxyToBackend _, _ => { m with attempts := m.attempts + 1 }
    | _, _ => m

/-- What a response says: a redirect has a status for it, and something has been proxied. -/
def Response.Sound (cfg : EdgeConfig) (host : String) : Response → RequestSight → Prop
  | .proxied, m => cfg.controlPlane host = true ∨ 0 < m.attempts
  | .redirect _ code, _ => 300 ≤ code ∧ code ≤ 399
  | .error .., _ => True

section sight
variable {cfg : EdgeConfig} {host : String} {m : RequestSight} {route : Route}
  {lookup : DomainEdgeLookupRow}

theorem redirect_sound (target code) : (redirect target code).Sound cfg host m := by
  dsimp only [redirect, Response.Sound]
  split <;> omega

/-- What a request has learnt, with an entry it has read. -/
structure Found (lookup : Option DomainEdgeLookupRow) (attempts : Nat) (route : Option Route)
    (m : RequestSight) : Prop where
  lookup : m.lookup = lookup
  attempts : m.attempts = attempts
  entry : ∀ r ∈ route, r ∈ m.entry

theorem routeWithBackends_admits (h : Found found n none m) :
    (requestSight cfg host).Admits (routeWithBackends host) (Found found n) m :=
  ⟨rfl, fun _ _ => ⟨h.lookup, h.attempts, fun _ hr => (Option.mem_filter_iff.mp hr).1⟩⟩

theorem reload_admits (h : Found found n none m) :
    (requestSight cfg host).Admits (reload host lookup) (Found found n) m := by
  unfold reload
  split
  · exact ⟨trivial, fun _ _ => routeWithBackends_admits h⟩
  · exact h

theorem lookAgain_admits (h : Found (some lookup) 0 none m) :
    (requestSight cfg host).Admits (waitRounds.lookAgain host) (Found (some lookup) 0) m := by
  refine ⟨rfl, fun r _ => ?_⟩
  have hnext : Found (some lookup) 0 none ((requestSight cfg host).next m (.domainEdgeLookup host) r) :=
    ⟨by simp [requestSight, h.lookup], h.attempts, by simp⟩
  cases r with
  | ok l => exact reload_admits hnext
  | error e => exact hnext

theorem waitRounds_admits (h : Found (some lookup) 0 none m) (rounds : Nat) :
    (requestSight cfg host).Admits (waitRounds host deadline rounds) (Found (some lookup) 0) m := by
  induction rounds generalizing m with
  | zero => exact h
  | succ rounds ih =>
    refine ⟨trivial, fun now _ => ?_⟩
    dsimp only [Prog.ret_bind]
    split
    · exact h
    refine (routeWithBackends_admits h).bind ?_
    rintro (_ | route) m₁ h₁
    case some => exact h₁
    refine (lookAgain_admits h₁).bind ?_
    rintro (_ | route) m₂ h₂
    case some => exact h₂
    refine ⟨trivial, fun now _ => ?_⟩
    dsimp only [Prog.ret_bind]
    split
    · exact h₂
    refine ⟨trivial, ?_⟩
    rintro (_ | _) -
    · exact h₂
    · exact ih h₂

theorem requestColdStart_follows (h : Found (some lookup) 0 none m) (hd : lookup.Wakes d) :
    (requestSight cfg host).Follows (requestColdStart lookup d) (fun _ m' => m' = m) m := by
  have hwakes : ∃ d, lookup.Wakes d := ⟨d, hd⟩
  have hdb : ((requestSight cfg host).comap fun _ => .idle).Follows
      (Kindling.requestColdStart lookup.toEdgeLookup) (fun _ m' => m' = m) m := by
    refine .of_uses ?_
    unfold Kindling.requestColdStart clearScaledToZero
    rw [hd.1]
    split <;> simp_all [context, requestWake, requestSight, h.lookup]
  refine ⟨trivial, fun _ _ => Typestate.Follows.bind (.hoist hdb) ?_ fun _ _ hm => hm⟩
  rintro _ _ rfl
  exact ⟨⟨lookup, h.lookup, hd⟩, fun _ _ => rfl⟩

theorem pickBackend_admits : (requestSight cfg host).Admits (pickBackend route)
    (fun b m' => m' = m ∧ ∀ x ∈ b, x ∈ route.backends) m := by
  unfold pickBackend
  split
  · exact ⟨rfl, by simp⟩
  · exact ⟨trivial, fun i _ => ⟨rfl, fun x hx => List.mem_of_getElem? hx⟩⟩

variable (hhost : cfg.controlPlane host = false)
include hhost

theorem tryBackend_admits {failed : Prog RequestOp Response} (hn : n < 2)
    (h : Found found n (some route) m) (hfailed : ∀ m', Found found (n + 1) none m' →
      (requestSight cfg host).Admits failed (Response.Sound cfg host) m') :
    (requestSight cfg host).Admits (tryBackend dep route failed) (Response.Sound cfg host) m := by
  refine pickBackend_admits.bind ?_
  rintro (_ | b) m' ⟨rfl, hb⟩
  case none => trivial
  refine ⟨⟨hhost, h.attempts.trans_lt hn, route, h.entry route rfl, hb b rfl⟩, fun r _ => ?_⟩
  have hsent : Response.Sound cfg host .proxied
      ((requestSight cfg host).next m' (.proxyToBackend b) r) := .inr (Nat.succ_pos _)
  cases r with
  | error e => exact hfailed _ ⟨h.lookup, congrArg (· + 1) h.attempts, by simp⟩
  | ok status =>
    cases dep with
    | none => exact hsent
    | some d =>
      dsimp only [Prog.ret_bind]
      split
      · exact ⟨trivial, fun _ _ => hsent⟩
      · exact hsent

theorem proxyRounds_admits (hn : n + retries < 2) (h : Found found n (some route) m) :
    (requestSight cfg host).Admits (proxyRounds host dep retries route)
      (Response.Sound cfg host) m := by
  induction retries generalizing n route m with
  | zero => exact tryBackend_admits hhost hn h fun _ _ => trivial
  | succ retries ih =>
    refine tryBackend_admits hhost (by omega) h fun m₁ h₁ => ⟨trivial, ?_⟩
    rintro (_ | _) -
    case true => trivial
    refine ⟨trivial, ?_⟩
    rintro (_ | _) -
    case error => trivial
    refine (routeWithBackends_admits h₁).bind ?_
    rintro (_ | route) m₂ h₂
    · trivial
    · exact ih (by omega) h₂

theorem reverseProxy_admits (h : Found found 0 (some route) m) :
    (requestSight cfg host).Admits (reverseProxy host route) (Response.Sound cfg host) m :=
  ⟨trivial, fun _ _ => proxyRounds_admits hhost (by decide) h⟩

theorem serveCold_admits (h : Found (some lookup) 0 none m) : (requestSight cfg host).Admits
    (serveCold cfg host lookup) (Response.Sound cfg host) m := by
  unfold serveCold
  split
  · exact redirect_sound ..
  next hredirect =>
  split
  · trivial
  next hgone =>
  cases hd : lookup.deploymentId with
  | none => trivial
  | some d =>
    have hwakes : lookup.Wakes d := ⟨hd, hredirect, by simpa using hgone⟩
    refine (reload_admits h).bind ?_
    rintro (_ | route) m₁ h₁
    case some => exact reverseProxy_admits hhost h₁
    refine Typestate.Admits.bind (requestColdStart_follows h₁ hwakes) ?_
    rintro (_ | _) _ rfl
    case error => trivial
    refine ⟨trivial, fun now _ => (waitRounds_admits h₁ _).bind ?_⟩
    rintro (_ | route) m₂ h₂
    case some => exact reverseProxy_admits hhost h₂
    refine ⟨trivial, ?_⟩
    rintro (_ | _) - <;> trivial

end sight

/-- The clock as a request sees it, and the number of its lookups. -/
def waitClock : Typestate RequestOp (Nat × Nat) where
  start := (0, 0)
  allows _ _ := True
  possible m
    | .now, t => m.1 ≤ t
    | _, _ => True
  next m
    | .now, t => (t, m.2)
    | .wait d, true => (m.1 + d, m.2)
    | .domainEdgeLookup _, _ => (m.1, m.2 + 1)
    | _, _ => m

/-- The lookups that may still come before the deadline fit under the bound. -/
structure Within (bound deadline : Nat) (m : Nat × Nat) : Prop where
  ahead : m.1 < deadline → (m.2 + 1) * coldStartLookupPollInterval + (deadline - m.1) ≤ bound
  made : m.2 * coldStartLookupPollInterval < bound

theorem Within.waited {t : Nat} (h : Within bound deadline m) (ht : m.1 ≤ t) (hlt : t < deadline) :
    Within bound deadline (t + min coldStartLookupPollInterval (deadline - t), m.2 + 1) := by
  have hahead := h.ahead (ht.trans_lt hlt)
  rw [Nat.add_mul] at hahead
  constructor <;> simp only [Nat.add_mul] <;> omega

theorem routeWithBackends_waits {m : Nat × Nat} :
    waitClock.Admits (routeWithBackends host) (fun _ m' => m' = m) m :=
  ⟨trivial, fun _ _ => rfl⟩

theorem lookAgain_looks {m : Nat × Nat} :
    waitClock.Admits (waitRounds.lookAgain host) (fun _ m' => m' = (m.1, m.2 + 1)) m := by
  refine ⟨trivial, fun r _ => ?_⟩
  cases r with
  | error e => rfl
  | ok lookup =>
    dsimp only [Prog.ret_bind, reload]
    split
    · exact ⟨trivial, fun _ _ => routeWithBackends_waits⟩
    · rfl

theorem waitRounds_looks {m : Nat × Nat} (h : Within bound deadline m) (rounds : Nat) :
    waitClock.Admits (waitRounds host deadline rounds)
      (fun _ m' => m'.2 * coldStartLookupPollInterval < bound) m := by
  induction rounds generalizing m with
  | zero => exact h.made
  | succ rounds ih =>
    refine ⟨trivial, fun t ht => ?_⟩
    dsimp only [Prog.ret_bind]
    split
    · exact h.made
    next hlt =>
    have hwaited : ∀ t', t ≤ t' → t' < deadline → _ := fun t' ht' =>
      h.waited (le_trans (show m.1 ≤ t from ht) ht')
    have hmade := (hwaited t le_rfl (not_le.mp hlt)).made
    refine routeWithBackends_waits.bind ?_
    rintro (_ | route) _ rfl
    case some => exact h.made
    refine lookAgain_looks.bind ?_
    rintro (_ | route) _ rfl
    case some => exact hmade
    refine ⟨trivial, fun t' ht' => ?_⟩
    dsimp only [Prog.ret_bind]
    split
    · exact hmade
    next hlt' =>
    refine ⟨trivial, ?_⟩
    rintro (_ | _) -
    · exact hmade
    · exact ih (hwaited t' ht' (not_le.mp hlt'))

/-- **Waiting is bounded.** On a clock that does not go back, and on which a wait takes its time, a
request that waits for a backend looks its host up at most as often as the poll interval begins in the
time it may wait. -/
theorem lookups_bounded (cfg : EdgeConfig) (host : String) (m : Nat × Nat) :
    waitClock.Admits (waitForBackend cfg host) (fun _ m' =>
      m'.2 * coldStartLookupPollInterval <
        (m.2 + 1) * coldStartLookupPollInterval + cfg.coldStartTimeout) m := by
  refine ⟨trivial, fun now _ => waitRounds_looks ⟨fun _ => ?_, ?_⟩ _⟩
  · exact Nat.add_le_add_left (Nat.add_sub_cancel_left ..).le _
  · rw [Nat.add_mul, Nat.add_assoc]
    exact Nat.lt_add_of_pos_right (Nat.add_pos_left (by decide) _)

end Kindling.EdgeProxy
