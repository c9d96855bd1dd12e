import Kindling.Deploy.Effects

/-!
# The addresses that the runtimes publish

A runtime publishes a loopback or wildcard address; the crun and cloud-hypervisor runtimes put the
advertised host of their server in its place, if there is one (`applyAdvertisedHost` in
`internal/runtime/crun.go`). The deployer parses what is published (`parseRuntimeAddress` in
`internal/deploy/runtime_address.go`).
-/

namespace Kindling

def applyAdvertisedHost (hostPort : List Char) (advertiseHost : String) :
    Except AddrError (List Char) := do
  let (host, port) ← splitHostPort hostPort
  let adv := (trimSpace advertiseHost).toList
  if adv = [] then return hostPort
  if host = "0.0.0.0".toList ∨ host = "127.0.0.1".toList ∨ host = "localhost".toList then
    return joinHostPort adv port
  if host = "::".toList ∨ host = "[::]".toList then return joinHostPort adv port
  return hostPort

theorem digit_ne_separator (h : c.isDigit) : c ≠ ':' ∧ c ≠ '[' ∧ c ≠ ']' := by
  refine ⟨?_, ?_, ?_⟩ <;> rintro rfl <;> exact absurd h (by decide)

theorem applyAdvertisedHost_ok {hostPort host port : List Char}
    (h : splitHostPort hostPort = .ok (host, port)) :
    ∃ ip, applyAdvertisedHost hostPort advertiseHost = .ok ip := by
  unfold applyAdvertisedHost
  rw [h]
  dsimp only [bind, Except.bind]
  repeat' split
  all_goals exact ⟨_, rfl⟩

/-- Every port has an address. -/
theorem applyAdvertisedHost_wildcard :
    ∃ ip, applyAdvertisedHost (joinHostPort "0.0.0.0".toList (Nat.toDigits 10 hostPort))
      advertiseHost = .ok ip := by
  have hdigits : ∀ c ∈ Nat.toDigits 10 hostPort, c ≠ ':' ∧ c ≠ '[' ∧ c ≠ ']' := fun c hc =>
    digit_ne_separator (Nat.isDigit_of_mem_toDigits (Nat.succ_pos 9) le_rfl hc)
  exact applyAdvertisedHost_ok (splitHostPort_join (by simp) hdigits)

/-- What `runtime.NewDetectedRuntime` is given on a server: the runtime it has, and the
`advertise_host` of its settings. -/
structure HostSettings where
  runtime : RuntimeName
  advertiseHost : String := ""

def HostSettings.publish (s : HostSettings) (hostPort : Nat) : Except AddrError (List Char) :=
  let port := Nat.toDigits 10 hostPort
  match s.runtime with
  | .crun => applyAdvertisedHost ("127.0.0.1:".toList ++ port) s.advertiseHost
  | .cloudHypervisor => applyAdvertisedHost (joinHostPort "0.0.0.0".toList port) s.advertiseHost
  | .appleVz => .ok (joinHostPort "127.0.0.1".toList port)

/-- `netip.ParseAddr`, and the host that `url.Parse` finds. -/
structure AddressTools where
  parseAddr : List Char → Option Nat
  urlHost : List Char → Option (List Char)

def parseRuntimeAddress (tools : AddressTools) (raw : List Char) : Address := do
  let s := (trimSpace (String.ofList raw)).toList
  if s = [] then none
  let hostPort ← if (cut "://".toList s).isSome then tools.urlHost s else some s
  match splitHostPort hostPort with
  | .error _ => none
  | .ok (host, portStr) =>
    let addr ← tools.parseAddr host
    let port ← atoi portStr
    if port < 1 ∨ port > 65535 then none else some (addr, port.toNat)

/-- The copy of the migration reconciler (`internal/migrationreconcile/reconcile.go`). -/
def Migration.parseRuntimeAddress (tools : AddressTools) (raw : List Char) : Option (Nat × Int) := do
  let s := (trimSpace (String.ofList raw)).toList
  if s = [] then none
  let hostPort ← if (cut "://".toList s).isSome then tools.urlHost s else some s
  match splitHostPort hostPort with
  | .error _ => none
  | .ok (host, portStr) =>
    let ip ← tools.parseAddr host
    let port ← atoi portStr
    some (ip, port)

section parsers
variable {tools : AddressTools} {raw : List Char}

/-- The texts of a runtime address in which the address and the port stand. -/
def runtimeHostPort (tools : AddressTools) (raw : List Char) : Option (List Char × List Char) := do
  let s := (trimSpace (String.ofList raw)).toList
  let hostPort ← if (cut "://".toList s).isSome then tools.urlHost s else some s
  (splitHostPort hostPort).toOption

/-- A number that stands behind an address is a port. -/
def PortsInRange (tools : AddressTools) (raw : List Char) : Prop :=
  ∀ host port, runtimeHostPort tools raw = some (host, port) → (tools.parseAddr host).isSome = true →
    ∀ n, atoi port = some n → 1 ≤ n ∧ n ≤ 65535

/-- Both parsers accept the text, with the same address and the same port, or neither does; and what
is accepted is a port. -/
def ParsersAgree (tools : AddressTools) (raw : List Char) : Prop :=
  Migration.parseRuntimeAddress tools raw =
      (parseRuntimeAddress tools raw).map (fun (addr, port) => (addr, (port : Int))) ∧
    ∀ addr port, Migration.parseRuntimeAddress tools raw = some (addr, port) → 1 ≤ port ∧ port ≤ 65535

/-- Both parsers read the same texts; only the deployer's tests the port. -/
theorem parseRuntimeAddress_eq :
    (Migration.parseRuntimeAddress tools raw = (runtimeHostPort tools raw).bind fun (host, port) =>
        (tools.parseAddr host).bind fun ip => (atoi port).map (ip, ·)) ∧
    parseRuntimeAddress tools raw =
      (Migration.parseRuntimeAddress tools raw).bind fun (addr, port) =>
        if port < 1 ∨ port > 65535 then none else some (addr, port.toNat) := by
  simp only [parseRuntimeAddress, Migration.parseRuntimeAddress, runtimeHostPort]
  generalize (trimSpace (.ofList raw)).toList = s
  by_cases hs : s = []
  · subst hs; exact ⟨rfl, rfl⟩
  generalize cut "://".toList s = scheme
  cases scheme with
  | none =>
    cases hp : splitHostPort s <;>
      simp [hs, hp, Except.toOption, Option.map_eq_bind, Option.bind_assoc]
  | some _ =>
    cases hu : tools.urlHost s with
    | none => simp
    | some hostPort =>
      cases hp : splitHostPort hostPort <;>
        simp [hs, hp, Except.toOption, Option.map_eq_bind, Option.bind_assoc]

theorem parsers_agree_iff (tools : AddressTools) (raw : List Char) :
    ParsersAgree tools raw ↔ PortsInRange tools raw := by
  constructor
  · rintro ⟨-, hr⟩ host port hh ha n hn
    obtain ⟨addr, ha⟩ := Option.isSome_iff_exists.mp ha
    exact hr addr n (by simp [parseRuntimeAddress_eq.1, hh, ha, hn])
  · intro h
    have hr : ∀ addr port, Migration.parseRuntimeAddress tools raw = some (addr, port) →
        1 ≤ port ∧ port ≤ 65535 := by
      intro addr port hm
      simp only [parseRuntimeAddress_eq.1, Option.bind_eq_some_iff, Option.map_eq_some_iff,
        Prod.mk.injEq] at hm
      obtain ⟨⟨host, portStr⟩, hh, addr, ha, n, hn, -, rfl⟩ := hm
      exact h host portStr hh (by simp [ha]) n hn
    refine ⟨?_, hr⟩
    rw [parseRuntimeAddress_eq.2]
    cases hm : Migration.parseRuntimeAddress tools raw with
    | none => rfl
    | some found =>
      have hp := hr found.1 found.2 hm
      simp [show ¬(found.2 < 1 ∨ found.2 > 65535) by omega, Int.toNat_of_nonneg (by omega : 0 ≤ found.2)]

/-- The migration reconciler takes a port that no start would store. -/
theorem parsers_disagree : ∃ tools : AddressTools,
    Migration.parseRuntimeAddress tools "10.0.0.1:70000".toList = some (0x0a000001, 70000) ∧
      parseRuntimeAddress tools "10.0.0.1:70000".toList = none :=
  ⟨⟨fun host => if host = "10.0.0.1".toList then some 0x0a000001 else none, fun _ => none⟩,
    by decide +kernel, by decide +kernel⟩

end parsers

/-- The servers of an installation. -/
structure Hosts extends AddressTools where
  settings : Id → HostSettings

def Hosts.Publishes (h : Hosts) (server : Id) (addr : Address) : Prop :=
  ∃ hostPort raw, (h.settings server).publish hostPort = .ok raw ∧
    addr = parseRuntimeAddress h.toAddressTools raw

/-- Some published address of the server has this IP address. -/
def Hosts.Advertises (h : Hosts) (server : Id) (ip : Nat) : Prop :=
  ∃ port, h.Publishes server (some (ip, port))

/-- A runtime that starts a workload answers with an address that its server publishes. -/
def publishing (h : Hosts) : Prog.Guard Op Answer World
  | _, .runtime server (.start _), as, _ | _, .runtime server (.startClone ..), as, _ =>
    (as.headD default).fail = false → h.Publishes server (as.headD default).address
  | _, _, _, _ => True

end Kindling
