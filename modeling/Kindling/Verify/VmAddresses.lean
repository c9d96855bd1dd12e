import Kindling.Runtime.Address
import Kindling.Deploy.Footprint

/-!
# Addresses of VMs and their organizations

The worker DNS finds the organization of a query by the VM row that carries the source address. The
stored address is what the runtime of the server has published, and a server publishes one host for
all its workloads.
-/

namespace Kindling

open Fallible

variable {v org : Id} {G : Prog.Guard Op Answer World}

def World.orgOf (w : World) (deployment : Id) : Option Id :=
  (w.deployments.find? deployment).bind fun dep => (w.projects.find? dep.projectId).map (·.orgId)

def World.instanceOrg (w : World) (i : Id) : Option Id :=
  (w.instances.find? i).bind fun r => w.orgOf r.deploymentId

/-- An instance of the organization refers to the VM. -/
def World.VmOf (w : World) (vm org : Id) : Prop :=
  ∃ i r, w.instances.find? i = some r ∧ r.vmId = some vm ∧ w.orgOf r.deploymentId = some org

/-- Live VM rows of different organizations carry different addresses. -/
def World.Isolated (w : World) : Prop :=
  ∀ v ∈ w.vms, ∀ v' ∈ w.vms, v.id ≠ v'.id → v.undeleted = true → v'.undeleted = true →
    ∀ org org', w.VmOf v.id org → w.VmOf v'.id org' → org ≠ org' → v.ipAddress ≠ v'.ipAddress

/-- The foreign key of `deployment_instances.vm_id`. -/
def World.VmsKnown (w : World) : Prop :=
  ∀ i r v, w.instances.find? i = some r → r.vmId = some v → (w.vms.find? v).isSome = true

/-- The server advertises no address of a live VM of an organization other than the instance's. -/
def Hosts.Separate (h : Hosts) (server i : Id) (w : World) : Prop :=
  ∀ org, w.instanceOrg i = some org → ∀ v ∈ w.vms, v.undeleted = true →
    ∀ org', w.VmOf v.id org' → org' ≠ org → ¬h.Advertises server v.ipAddress

/-- What holds while an instance is started on a server. -/
structure Safe (h : Hosts) (server i : Id) (w : World) : Prop where
  known : w.VmsKnown
  isolated : w.Isolated
  separate : h.Separate server i w

/-! ## Steps that give no VM an address or an owner -/

/-- No VM comes to life, and no instance gets another VM. -/
structure Shrinks (w w' : World) : Prop where
  orgs : w'.orgOf = w.orgOf
  vms : ∀ v' ∈ w'.vms, v'.undeleted = true →
    ∃ v ∈ w.vms, v.undeleted = true ∧ v.id = v'.id ∧ v.ipAddress = v'.ipAddress
  known : ∀ v, (w.vms.find? v).isSome = true → (w'.vms.find? v).isSome = true
  instances : ∀ i, (w'.instances.find? i).map (fun r => (r.deploymentId, r.vmId)) =
    (w.instances.find? i).map fun r => (r.deploymentId, r.vmId)

variable {h : Hosts} {server i : Id} {w w' : World}

theorem Shrinks.refl (w : World) : Shrinks w w where
  orgs := rfl
  vms v hv hlive := ⟨v, hv, hlive, rfl, rfl⟩
  known _ := id
  instances _ := rfl

theorem Shrinks.find? (hs : Shrinks w w') (hr : w'.instances.find? i = some r') :
    ∃ r, w.instances.find? i = some r ∧ r.deploymentId = r'.deploymentId ∧ r.vmId = r'.vmId := by
  have hmap := hs.instances i
  rw [hr, Option.map_some, eq_comm, Option.map_eq_some_iff] at hmap
  obtain ⟨r, hr, heq⟩ := hmap
  exact ⟨r, hr, (Prod.mk.inj heq).1, (Prod.mk.inj heq).2⟩

theorem Shrinks.vmOf (hs : Shrinks w w') (hv : w'.VmOf v org) : w.VmOf v org := by
  obtain ⟨j, r', hr', hvm, horg⟩ := hv
  obtain ⟨r, hr, hdep, hvm'⟩ := hs.find? hr'
  rw [hs.orgs, ← hdep] at horg
  exact ⟨j, r, hr, hvm'.trans hvm, horg⟩

theorem Shrinks.instanceOrg (hs : Shrinks w w') (ho : w'.instanceOrg i = some org) :
    w.instanceOrg i = some org := by
  obtain ⟨r', hr', horg⟩ := Option.bind_eq_some_iff.mp ho
  obtain ⟨r, hr, hdep, -⟩ := hs.find? hr'
  rw [hs.orgs, ← hdep] at horg
  exact Option.bind_eq_some_iff.mpr ⟨r, hr, horg⟩

theorem Safe.shrinks (hw : Safe h server i w) (hs : Shrinks w w') : Safe h server i w' where
  known j r' v hr' hv := by
    obtain ⟨r, hr, -, hvm⟩ := hs.find? hr'
    exact hs.known v (hw.known j r v hr (hvm.trans hv))
  isolated v₁ h₁ v₂ h₂ hne hlive₁ hlive₂ o₁ o₂ ho₁ ho₂ hdiff := by
    obtain ⟨u₁, hu₁, hlive₁, hid₁, hip₁⟩ := hs.vms v₁ h₁ hlive₁
    obtain ⟨u₂, hu₂, hlive₂, hid₂, hip₂⟩ := hs.vms v₂ h₂ hlive₂
    rw [← hip₁, ← hip₂]
    refine hw.isolated u₁ hu₁ u₂ hu₂ ?_ hlive₁ hlive₂ o₁ o₂ ?_ ?_ hdiff
    · rwa [hid₁, hid₂]
    · exact hid₁ ▸ hs.vmOf ho₁
    · exact hid₂ ▸ hs.vmOf ho₂
  separate org horg v hv hlive org' horg' hne := by
    obtain ⟨u, hu, hlive, hid, hip⟩ := hs.vms v hv hlive
    rw [← hip]
    exact hw.separate org (hs.instanceOrg horg) u hu hlive org' (hid ▸ hs.vmOf horg') hne

/-- Statements that set the status of an instance or of a VM, delete a VM, or write no such row. -/
def Stmt.Mild (β : Type) : Stmt β → Prop
  | .query _ | .volumes _ | .newUUID => True
  | .instances (.updateStatus ..) => True
  | .vms (.updateStatus ..) | .vms (.softDelete _) => True
  | _ => False

def Op.Mild (β : Type) : Op β → Prop
  | .db s => s.Mild
  | .tx _ => False
  | _ => True

theorem shrinks_updateVM (hf : ∀ r, (f r).id = r.id) (hip : ∀ r, (f r).ipAddress = r.ipAddress)
    (hlive : ∀ r, (f r).undeleted = true → r.undeleted = true) :
    Shrinks w (w.withVms (w.vms.updateKey v (fun _ => true) f hf).2) where
  orgs := rfl
  vms v' hv' hlive' := by
    rw [World.withVms_vms] at hv'
    obtain ⟨v₀, hv₀, rfl⟩ := Table.mem_updateKey.mp hv'
    refine ⟨v₀, hv₀, ?_⟩
    split at hlive'
    · next hcond =>
      rw [if_pos hcond]
      exact ⟨hlive _ hlive', (hf _).symm, (hip _).symm⟩
    · next hcond =>
      rw [if_neg hcond]
      exact ⟨hlive', rfl, rfl⟩
  known x hx := by
    rw [World.withVms_vms, Table.find?_updateKey, Option.isSome_map]
    exact hx
  instances _ := rfl

theorem Stmt.Mild.step {s : Stmt β} (hs : s.Mild) (a : Answer) (w : World) :
    Shrinks w (s.step a w).2 := by
  cases s with
  | query q => exact .refl w
  | newUUID => exact .refl w
  | volumes s => exact onTable_elim (.refl w) fun _ => .mk rfl (Shrinks.refl w).vms (fun _ => id) fun _ => rfl
  | instances s =>
    cases s with
    | updateStatus j st =>
      refine onTable_elim (.refl w) fun _ => ⟨rfl, (Shrinks.refl w).vms, fun _ => id, fun k => ?_⟩
      exact w.instances.find?_updateKey_map j _ ({ · with status := st }) (fun _ => rfl) (fun _ => rfl) k
    | _ => exact hs.elim
  | vms s =>
    cases s with
    | updateStatus v st =>
      exact onTable_elim (.refl w) fun _ => shrinks_updateVM (f := ({ · with status := st }))
        (fun _ => rfl) (fun _ => rfl) fun _ => id
    | softDelete v =>
      exact onTable_elim (.refl w) fun _ => shrinks_updateVM (f := ({ · with deletedAt := some a.now }))
        (fun _ => rfl) (fun _ => rfl) fun _ => nofun
    | _ => exact hs.elim
  | _ => exact hs.elim

theorem Op.Mild.exec {op : Op β} (hop : op.Mild) (as : List Answer) (w : World) :
    Shrinks w (Effect.exec op as w).state := by
  cases op with
  | db s => exact Stmt.Mild.step hop _ w
  | tx p => exact hop.elim
  | runtime server c =>
    exact Op.runtime_elim fun _ _ => .mk rfl (Shrinks.refl w).vms (fun _ => id) fun _ => rfl
  | healthCheck | now => exact .refl w
  | scheduleRetry | scheduleServer => exact .mk rfl (Shrinks.refl w).vms (fun _ => id) fun _ => rfl

/-- A program of mild calls keeps the addresses of organizations apart. -/
theorem mild_keeps (hp : Fallible.Uses Op.Mild p) : Keeps G (Safe h server i) p fun _ => True :=
  hp.keeps fun _ _ hop as w hw => hw.shrinks (hop.exec as w)

/-! ## Starting an instance -/

attribute [local simp] Op.Mild Stmt.Mild instanceStmt vmStmt volumeStmt WritesVolumes.volumes context
  Deployer.runtime discard

@[simp] theorem markFailed_mild : Uses Op.Mild (markFailed inst) := by
  simp [markFailed]

theorem finishStart_mild : Uses Op.Mild (finishStart d dep inst v addr vol) := by
  cases vol <;> simp [finishStart, goLive, awaitHealthy, attachVolume, abandonStart]

theorem coldStart_publishes {start : RuntimeInstance} :
    Keeps (publishing h) (Safe h server i) (coldStart d start inst t)
      fun r => h.Publishes d.serverId r.1 := by
  have hfill : ∀ md, Uses Op.Mild (fillLiveMigrationMetadata d start.id md) := by
    intro md
    unfold fillLiveMigrationMetadata
    split
    · refine .bind (.attempt (.ofCall trivial)) fun r => ?_
      split <;> exact .pure
    · exact .pure
  have hstart : Keeps (publishing h) (Safe h server i) (d.runtime (.start start))
      fun addr => h.Publishes d.serverId addr := by
    have hmild : Op.Mild _ (.runtime d.serverId (.start start)) := trivial
    refine .ofCall fun as w hg hw => ⟨hw.shrinks (hmild.exec as w), fun addr haddr => ?_⟩
    have hval : (RuntimeCall.step d.serverId (.start start) (as.headD default) w).1 = .ok addr := haddr
    simp only [RuntimeCall.step] at hval
    split at hval
    · cases hval
    · next hfail =>
      cases hval
      exact hg (Bool.eq_false_iff.mpr hfail)
  refine .bind hstart.attempt fun r hr => ?_
  split
  · exact .bind (mild_keeps markFailed_mild) fun _ _ => .throw
  · exact .bind (mild_keeps (hfill _)) fun _ _ => .pure (hr _ rfl)

theorem launchInstance_publishes {start : RuntimeInstance} {ref : String} :
    Keeps (publishing h) (Safe h server i) (launchInstance d start ref src inst mode)
      fun r => h.Publishes d.serverId r.1 := by
  have hclone : Keeps (publishing h) (Safe h server i) (d.runtime (.startClone start ref src))
      fun r => h.Publishes d.serverId r.1 := by
    have hmild : Op.Mild _ (.runtime d.serverId (.startClone start ref src)) := trivial
    refine .ofCall fun as w hg hw => ⟨hw.shrinks (hmild.exec as w), fun r hr => ?_⟩
    have hval : (RuntimeCall.step d.serverId (.startClone start ref src) (as.headD default) w).1 =
      .ok r := hr
    simp only [RuntimeCall.step] at hval
    split at hval
    · cases hval
    · next hfail =>
      cases hval
      exact hg (Bool.eq_false_iff.mpr hfail)
  unfold launchInstance
  split
  · refine .bind hclone.attempt fun r hr => ?_
    split
    · split
      · exact coldStart_publishes
      · exact .bind (mild_keeps markFailed_mild) fun _ _ => .throw
    · exact .pure (hr _ rfl)
  · exact coldStart_publishes

structure Spare (h : Hosts) (server v : Id) (w : World) : Prop where
  row : ∃ vm, w.vms.find? v = some vm ∧ h.Advertises server vm.ipAddress
  nobody : ∀ j r, w.instances.find? j = some r → r.vmId ≠ some v

theorem Safe.create (hw : Safe h server i w) (hip : h.Advertises server vm.ipAddress)
    (hok : ((VmStmt.create vm).exec now w.vms).1 = .ok x) :
    Safe h server i (w.withVms ((VmStmt.create vm).exec now w.vms).2) ∧
      Spare h server vm.id (w.withVms ((VmStmt.create vm).exec now w.vms).2) := by
  obtain ⟨rfl, hins⟩ := inserting_ok hok
  have hnobody : ∀ j r, w.instances.find? j = some r → r.vmId ≠ some vm.id := by
    intro j r hr hvm
    have hfresh := Table.insert?_fresh hins
    exact Option.isSome_iff_ne_none.mp (hw.known j r vm.id hr hvm) hfresh
  have hold : ∀ v ∈ (w.withVms ((VmStmt.create vm).exec now w.vms).2).vms, ∀ org, w.VmOf v.id org →
      v ∈ w.vms := by
    rintro v hv org ⟨j, r, hr, hvm, -⟩
    rcases (Table.mem_insert? hins).mp hv with hv | rfl
    · exact hv
    · exact absurd hvm (hnobody j r hr)
  refine ⟨⟨fun j r v hr hv => ?_, ?_, fun org horg v hv hlive org' horg' => ?_⟩, ⟨?_, hnobody⟩⟩
  · obtain ⟨u, hu⟩ := Option.isSome_iff_exists.mp (hw.known j r v hr hv)
    exact Option.isSome_iff_exists.mpr ⟨u, Table.find?_insert?_of_some hins hu⟩
  · intro v₁ h₁ v₂ h₂ hne hlive₁ hlive₂ o₁ o₂ ho₁ ho₂
    exact hw.isolated v₁ (hold v₁ h₁ o₁ ho₁) v₂ (hold v₂ h₂ o₂ ho₂) hne hlive₁ hlive₂ o₁ o₂ ho₁ ho₂
  · exact hw.separate org horg v (hold v hv org' horg') hlive org' horg'
  · exact ⟨{ vm with deletedAt := none, createdAt := now },
      (Table.find?_insert? hins vm.id).trans (if_pos rfl), hip⟩

theorem Safe.attach (hw : Safe h server i w) (hv : Spare h server v w) :
    Safe h server i (w.withInstances ((InstanceStmt.attachVM i v st).exec now w.instances).2) := by
  obtain ⟨vm, hvm, hip⟩ := hv.row
  let w' := w.withInstances ((InstanceStmt.attachVM i v st).exec now w.instances).2
  have hfind : ∀ {j r'}, w'.instances.find? j = some r' → ∃ r, w.instances.find? j = some r ∧
      r.deploymentId = r'.deploymentId ∧ (r.vmId = r'.vmId ∨ j = i ∧ r'.vmId = some v) := by
    intro j r' hr'
    have hmap := w.instances.find?_updateKey i (·.undeleted) ({ · with vmId := some v, status := st })
      (fun _ => rfl) j
    obtain ⟨r, hr, rfl⟩ := Option.map_eq_some_iff.mp (hmap.symm.trans hr')
    refine ⟨r, hr, ?_⟩
    split
    · next hcond => exact ⟨rfl, .inr ⟨hcond.1, rfl⟩⟩
    · exact ⟨rfl, .inl rfl⟩
  -- a VM of an organization was one before, or it is the new one, of the instance's organization
  have hvmOf : ∀ {x org}, w'.VmOf x org →
      w.VmOf x org ∧ x ≠ v ∨ x = v ∧ w.instanceOrg i = some org := by
    rintro x org ⟨j, r', hr', hx, horg⟩
    obtain ⟨r, hr, hdep, hsame | ⟨rfl, hnew⟩⟩ := hfind hr'
    · refine .inl ⟨⟨j, r, hr, hsame.trans hx, hdep ▸ horg⟩, ?_⟩
      rintro rfl
      exact hv.nobody j r hr (hsame.trans hx)
    · refine .inr ⟨Option.some.inj (hx.symm.trans hnew), ?_⟩
      exact Option.bind_eq_some_iff.mpr ⟨r, hr, hdep ▸ horg⟩
  have horg : ∀ {org}, w'.instanceOrg i = some org → w.instanceOrg i = some org := by
    intro org ho
    obtain ⟨r', hr', ho⟩ := Option.bind_eq_some_iff.mp ho
    obtain ⟨r, hr, hdep, -⟩ := hfind hr'
    exact Option.bind_eq_some_iff.mpr ⟨r, hr, hdep ▸ ho⟩
  -- the new VM against an old one of another organization
  have hnew : ∀ x ∈ w.vms, x.undeleted = true → ∀ {u : Vm}, u ∈ w.vms → u.id = v →
      ∀ {org org'}, w.instanceOrg i = some org → w.VmOf x.id org' → org' ≠ org →
      u.ipAddress ≠ x.ipAddress := by
    intro x hx hlive u hu hid org org' hi hx' hne heq
    have hu' : u = vm := Option.some.inj ((hid ▸ Table.find?_of_mem hu).symm.trans hvm)
    refine hw.separate org hi x hx hlive org' hx' hne ?_
    rw [← heq, hu']
    exact hip
  refine ⟨fun j r' x hr' hx => ?_, ?_, fun org ho x hx hlive org' hx' hne => ?_⟩
  · obtain ⟨r, hr, -, hsame | ⟨-, hnew⟩⟩ := hfind hr'
    · exact hw.known j r x hr (hsame.trans hx)
    · obtain rfl : v = x := Option.some.inj (hnew.symm.trans hx)
      exact Option.isSome_iff_exists.mpr ⟨vm, hvm⟩
  · intro v₁ h₁ v₂ h₂ hne hlive₁ hlive₂ o₁ o₂ ho₁ ho₂ hdiff
    rcases hvmOf ho₁ with ⟨ho₁, -⟩ | ⟨hid₁, ho₁⟩ <;> rcases hvmOf ho₂ with ⟨ho₂, -⟩ | ⟨hid₂, ho₂⟩
    · exact hw.isolated v₁ h₁ v₂ h₂ hne hlive₁ hlive₂ o₁ o₂ ho₁ ho₂ hdiff
    · exact (hnew v₁ h₁ hlive₁ h₂ hid₂ ho₂ ho₁ hdiff).symm
    · exact hnew v₂ h₂ hlive₂ h₁ hid₁ ho₁ ho₂ hdiff.symm
    · exact absurd (hid₁.trans hid₂.symm) hne
  · rcases hvmOf hx' with ⟨hx', -⟩ | ⟨-, hi⟩
    · exact hw.separate org (horg ho) x hx hlive org' hx' hne
    · exact absurd (Option.some.inj (hi.symm.trans (horg ho))) hne

theorem createVM_safe (hw : Safe h server i w) (hip : h.Advertises server vm.ipAddress) :
    KeepsFrom G (Safe h server i) (vmStmt (.create vm)) (fun _ => Spare h server vm.id) w := by
  intro as _
  have hexec : Effect.exec (Op.db (.vms (.create vm))) as w = _ := onTable_outcome
  rw [hexec]
  split
  · exact ⟨hw, hw, fun _ hx => by cases hx⟩
  · cases hres : ((VmStmt.create vm).exec (as.headD default).now w.vms).1 with
    | ok x =>
      obtain ⟨hsafe, hspare⟩ := hw.create hip hres
      exact ⟨hsafe, hsafe, fun _ _ => hspare⟩
    | error e =>
      have hsame : ((VmStmt.create vm).exec (as.headD default).now w.vms).2 = w.vms := inserting_error hres
      have hsafe : Safe h server i (w.withVms ((VmStmt.create vm).exec (as.headD default).now w.vms).2) := by
        rw [hsame]
        exact hw
      exact ⟨hsafe, hsafe, fun _ hx => by cases hx⟩

theorem attachVM_safe (hw : Safe h server i w) (hv : Spare h server v w) :
    KeepsFrom G (Safe h server i) (instanceStmt (.attachVM i v st)) (fun _ _ => True) w := by
  intro as _
  have hexec : Effect.exec (Op.db (.instances (.attachVM i v st))) as w = _ := onTable_outcome
  rw [hexec]
  split
  · exact ⟨hw, hw, fun _ _ => trivial⟩
  · exact ⟨hw.attach hv, hw.attach hv, fun _ _ => trivial⟩

theorem persistInstanceVMMetadata_safe (haddr : h.Publishes server addr) :
    Keeps G (Safe h server i) (persistInstanceVMMetadata i img srv vs st addr env md)
      fun _ => True := by
  refine .bind (mild_keeps (context_uses (.ofCall trivial))) fun inst _ => ?_
  split
  · exact .pure trivial
  split
  · split
    · next ip port =>
      have hip : h.Advertises server ip := ⟨port, haddr⟩
      refine .bind (mild_keeps (.ofTotal trivial)) fun vmId _ => ?_
      refine .bind_from (fun w hw => .wrap (createVM_safe hw hip)) fun _ w hw hspare => ?_
      refine .attempt_bind (attachVM_safe hw hspare) fun r => ?_
      split
      · exact .pure trivial
      · exact .bind (mild_keeps (discard_uses (.ofCall trivial))) fun _ _ => .throw
    · exact .throw
  · exact .throw

theorem startNewInstance_safe (d : Deployer) (dep : Deployment) (inst : DeploymentInstance)
    (imageRef : String) (env : List String) (ref : String) (src : Option Id)
    (vol : Option PersistentVolumeMount) :
    Keeps (publishing h) (Safe h d.serverId inst.id)
      (startNewInstance d dep inst imageRef env ref src vol) fun _ => True := by
  unfold startNewInstance
  split
  · refine mild_keeps ?_
    split
    · exact .bind (context_uses (.ofCall trivial)) fun _ => .pure
    · exact .pure
  refine .bind (mild_keeps (context_uses (.ofCall trivial))) fun _ _ =>
    .bind launchInstance_publishes fun started hstarted =>
    .bind (persistInstanceVMMetadata_safe hstarted).attempt fun r _ => ?_
  split
  · exact mild_keeps (.bind (discard_uses (.ofCall trivial)) fun _ =>
      .bind markFailed_mild fun _ => .throw)
  · exact mild_keeps finishStart_mild

structure Start where
  d : Deployer
  dep : Deployment
  inst : DeploymentInstance
  imageRef : String := ""
  env : List String := []
  templateRef : String := ""
  templateSourceVmId : Option Id := none
  persistentVolume : Option PersistentVolumeMount := none

def Start.prog (s : Start) : Go Op Unit :=
  startNewInstance s.d s.dep s.inst s.imageRef s.env s.templateRef s.templateSourceVmId
    s.persistentVolume

/-- The states between the starts of a sequence that begins in `w₀`; each start meets the condition
`C` in the state before it. -/
inductive StartRun (h : Hosts) (C : Start → World → Prop) (w₀ : World) : World → Prop
  | init : StartRun h C w₀ w₀
  | start {w : World} (s : Start) (as : List Answer) : StartRun h C w₀ w → C s w →
      Meets (publishing h) s.prog as w → StartRun h C w₀ (s.prog.outcome as w).state

/-- The states that a sequence of starts passes through. -/
inductive StartRun.Reached (h : Hosts) (C : Start → World → Prop) (w₀ : World) : World → Prop
  | between {w : World} : StartRun h C w₀ w → Reached h C w₀ w
  | during {w w' : World} (s : Start) (as : List Answer) : StartRun h C w₀ w → C s w →
      Meets (publishing h) s.prog as w → w' ∈ Prog.visits s.prog as w → Reached h C w₀ w'

/-- The start is on a server that advertises no address of another organization's VM. -/
def Start.Separate (h : Hosts) (s : Start) (w : World) : Prop := h.Separate s.d.serverId s.inst.id w

theorem Start.safe {s : Start} (hw : Safe h s.d.serverId s.inst.id w)
    (hm : Meets (publishing h) s.prog as w) :
    Safe h s.d.serverId s.inst.id (s.prog.outcome as w).state ∧
      ∀ w' ∈ Prog.visits s.prog as w, Safe h s.d.serverId s.inst.id w' := by
  have hkeeps := startNewInstance_safe s.d s.dep s.inst s.imageRef s.env s.templateRef
    s.templateSourceVmId s.persistentVolume w hw
  exact ⟨(hkeeps.run hm).1.1, (hkeeps.run hm).2⟩

theorem StartRun.safe (hknown : w₀.VmsKnown) (hiso : w₀.Isolated)
    (hr : StartRun h (Start.Separate h) w₀ w) : w.VmsKnown ∧ w.Isolated := by
  induction hr with
  | init => exact ⟨hknown, hiso⟩
  | start s as _ hsep hm ih =>
    obtain ⟨hsafe, -⟩ := Start.safe ⟨ih.1, ih.2, hsep⟩ hm
    exact ⟨hsafe.known, hsafe.isolated⟩

def Hosts.publishesOwn (h : Hosts) (server : Id) : Address → Bool
  | none => false
  | some (ip, port) =>
    match (h.settings server).publish port with
    | .ok raw => parseRuntimeAddress h.toAddressTools raw == some (ip, port)
    | .error _ => false

theorem publishes_of_own (ho : h.publishesOwn server addr = true) : h.Publishes server addr := by
  unfold Hosts.publishesOwn at ho
  split at ho
  · cases ho
  · next ip port =>
    split at ho
    · next raw hraw => exact ⟨port, raw, hraw, (beq_iff_eq.mp ho).symm⟩
    · cases ho

def publishingOwn (h : Hosts) : Prog.Guard Op Answer World
  | _, .runtime server (.start _), as, _ | _, .runtime server (.startClone ..), as, _ =>
    h.publishesOwn server (as.headD default).address = true
  | _, _, _, _ => True

instance : Decidable (publishingOwn h β op as w) := by
  unfold publishingOwn
  split <;> infer_instance

theorem publishing_of_own (hm : Meets (publishingOwn h) p as w) : Meets (publishing h) p as w := by
  refine .mono hm fun γ op as w hown => ?_
  unfold publishing
  split
  · exact fun _ => publishes_of_own hown
  · exact fun _ => publishes_of_own hown
  · trivial

/-- One server, whose crun runtime advertises 203.0.113.5. -/
def publicHosts : Hosts where
  parseAddr host := if host = "203.0.113.5".toList then some 3405803781 else none
  urlHost _ := none
  settings _ := { runtime := .crun, advertiseHost := "203.0.113.5" }

/-- Two organizations, each with a deployment whose instance waits to be started on server 5. -/
def unstartedWorld : World where
  projects := ⟨[{ id := 1, orgId := 100 }, { id := 2, orgId := 200 }], by decide⟩
  deployments := ⟨[{ id := 10, projectId := 1, imageId := some 7 },
    { id := 20, projectId := 2, imageId := some 7 }], by decide⟩
  instances := ⟨[{ id := 11, deploymentId := 10, serverId := some 5 },
    { id := 21, deploymentId := 20, serverId := some 5 }], by decide⟩

def startOf (dep inst project : Id) : Start where
  d := { serverId := 5 }
  dep := { id := dep, projectId := project, imageId := some 7 }
  inst := { id := inst, deploymentId := dep, serverId := some 5 }

def startAnswers (port : Nat) (vm : Id) : List Answer :=
  [{}, { address := some (3405803781, port) }, {}, { uuids := fun _ => vm }]

def firstStarted : World := ((startOf 10 11 1).prog.outcome (startAnswers 40001 1001) unstartedWorld).state

def bothStarted : World := ((startOf 20 21 2).prog.outcome (startAnswers 40002 1002) firstStarted).state

theorem isolated_of_no_vms (hv : w.vms.rows = []) : w.Isolated := by
  intro v hmem
  rw [Table.mem_def, hv] at hmem
  cases hmem

theorem vmsKnown_of_no_links (hv : ∀ r ∈ w.instances.rows, r.vmId = none) : w.VmsKnown := by
  intro i r v hr hvm
  rw [hv r (Table.mem_of_find? hr)] at hvm
  cases hvm

theorem vmOf_of_lookup
    (hi : (w.instances.find? i).map (fun r => (r.vmId, w.orgOf r.deploymentId)) = some (some v, some org))
    :
    w.VmOf v org := by
  obtain ⟨r, hr, heq⟩ := Option.map_eq_some_iff.mp hi
  exact ⟨i, r, hr, (Prod.mk.inj heq).1, (Prod.mk.inj heq).2⟩

theorem World.Isolated.lookup_ne (hiso : w.Isolated)
    (hv : (w.vms.find? v).map (fun x => (x.undeleted, x.ipAddress)) = some (true, ip))
    (hv' : (w.vms.find? v').map (fun x => (x.undeleted, x.ipAddress)) = some (true, ip'))
    (ho : w.VmOf v org) (ho' : w.VmOf v' org') (hne : v ≠ v') (horg : org ≠ org') : ip ≠ ip' := by
  obtain ⟨x, hx, heq⟩ := Option.map_eq_some_iff.mp hv
  obtain ⟨x', hx', heq'⟩ := Option.map_eq_some_iff.mp hv'
  obtain ⟨hlive, rfl⟩ := Prod.mk.inj heq
  obtain ⟨hlive', rfl⟩ := Prod.mk.inj heq'
  obtain rfl := Table.find?_key hx
  obtain rfl := Table.find?_key hx'
  exact hiso x (Table.mem_of_find? hx) x' (Table.mem_of_find? hx') hne hlive hlive' org org' ho ho' horg

end Kindling
