import Kindling.Verify.MigrationStates
import Kindling.Verify.Orphans

/-!
# Commits of migrations

The commit of a migration gives the instance a new VM and deletes the source VM. Neither the commit
nor the deployers look whether the other is at work.
-/

namespace Kindling

open Fallible

variable {row : InstanceMigration} {w : World} {as : List Answer} {server id : Id}

/-- The `vm_id` of an instance that is not deleted. -/
def World.instanceVm (w : World) (inst : Id) : Option (Option Id) :=
  ((w.instances.find? inst).filter (·.undeleted)).map (·.vmId)

theorem instanceVm_congr {w w' : World} (h : w'.instances.find? inst = w.instances.find? inst) :
    w'.instanceVm inst = w.instanceVm inst := by
  rw [World.instanceVm, h, World.instanceVm]

/-- The instance that is to move, and the VM that it is to leave. -/
def InstanceMigration.subject (m : InstanceMigration) : Id × Id :=
  (m.deploymentInstanceId, m.sourceVmId)

theorem MigrationUpdate.change_subject (u : MigrationUpdate) (m : InstanceMigration) :
    (u.change m).subject = m.subject := by
  cases u <;> rfl

theorem MigrationUpdate.change_state (u : MigrationUpdate) (m : InstanceMigration) :
    (u.change m).state = u.state := by
  cases u <;> rfl

theorem MigrationUpdate.find?_exec (u : MigrationUpdate) (t : MigrationTable) :
    (u.exec t).2 = t ∨ ∀ id, (u.exec t).2.find? id =
      (t.find? id).map fun m => if id = u.target then u.change m else m := by
  unfold MigrationUpdate.exec
  split
  · exact .inl rfl
  · refine .inr fun id => ?_
    simp [returning, Table.find?_updateKey]

theorem MigrationStmt.change_subject (s : MigrationStmt β) (m : InstanceMigration) :
    (s.change m).subject = m.subject := by
  cases s <;> rfl

theorem MigrationStmt.change_active (s : MigrationStmt β) (m : InstanceMigration) :
    (s.change m).active = false := by
  cases s <;> rfl

/-- The effect of a commit: the instance exists, and the source VM does not any more. -/
structure Commits (mig : InstanceMigration) (w w' : World) : Prop where
  undeleted : (w.instanceVm mig.deploymentInstanceId).isSome
  others : ∀ inst ≠ mig.deploymentInstanceId, w'.instanceVm inst = w.instanceVm inst
  found : (w.migrations.find? mig.id).isSome
  migrations : ∀ id, w'.migrations.find? id =
    (w.migrations.find? id).map fun m => if id = mig.id then { m with state := .completed } else m
  source : w'.liveVM mig.sourceVmId = false

theorem find?_updateServer_ne (h : j ≠ i) :
    ((InstanceStmt.updateServer i server).exec now t).2.find? j = t.find? j :=
  t.find?_updateKey_ne _ _ (by intro; rfl) h

theorem find?_attachVM_ne {status : InstanceStatus} (h : j ≠ i) :
    ((InstanceStmt.attachVM i vm status).exec now t).2.find? j = t.find? j :=
  t.find?_updateKey_ne _ _ (by intro; rfl) h

theorem commitMigrationTx_commits {ref : String}
    (hok : (commitMigrationTx mig inst vm ref ip port).outcome as w = ⟨.ok (), w', as'⟩) :
    Commits mig w w' := by
  obtain ⟨v, w₀, as₀, hv, hok⟩ := outcome_bind_ok hok
  cases hv
  obtain ⟨newVM, w₁, as₁, hcreate, hok⟩ := outcome_bind_ok hok
  obtain ⟨_, w₂, as₂, hserver, hok⟩ := outcome_bind_ok hok
  obtain ⟨_, w₃, as₃, hattach, hok⟩ := outcome_bind_ok hok
  obtain ⟨_, w₄, as₄, hdelete, hok⟩ := outcome_bind_ok hok
  obtain ⟨_, w₅, as₅, hcompleted, hok⟩ := outcome_bind_ok hok
  cases hok
  obtain ⟨now₁, -, rfl⟩ := vms_outcome_ok (context_ok.mp hcreate)
  obtain ⟨a₂, hstep₂⟩ := stmt_outcome (context_ok.mp hserver)
  obtain ⟨hres₂, rfl⟩ := instances_step_ok hstep₂
  obtain ⟨a₃, hstep₃⟩ := stmt_outcome (context_ok.mp hattach)
  obtain ⟨-, rfl⟩ := instances_step_ok hstep₃
  obtain ⟨now₄, -, hw₄⟩ := vms_outcome_ok (context_ok.mp hdelete)
  have hsource : w₄.liveVM mig.sourceVmId = false := hw₄ ▸ Bool.eq_false_iff.mpr softDelete_not_live
  subst hw₄
  obtain ⟨a₅, hstep₅⟩ := stmt_outcome (context_ok.mp hcompleted)
  obtain ⟨hres₅, rfl⟩ := onTable_ok hstep₅
  obtain ⟨row, hrow, hundeleted, -, -⟩ := Table.updateKey_fst_eq_some (returning_ok hres₂)
  obtain ⟨m, hm, -, -, -⟩ := Table.updateKey_fst_eq_some (returning_ok hres₅)
  refine ⟨?_, fun i hi => instanceVm_congr ?_, ?_, fun id => ?_, ?_⟩
  · have hfind : w.instances.find? mig.deploymentInstanceId = some row := hrow
    simp [World.instanceVm, hfind, hundeleted]
  · exact (find?_attachVM_ne hi).trans (find?_updateServer_ne hi)
  · rw [World.withVms_migrations, World.withInstances_migrations] at hm
    exact Option.isSome_iff_exists.mpr ⟨m, hm⟩
  · exact (MigrationStmt.updateCompleted mig.id).find?_exec w.migrations id
  · rwa [World.liveVM]

/-- A transaction that commits a migration does so, or leaves everything as it is. -/
theorem commitMigrationTx_state {ref : String} :
    ((MigrationOp.op (.tx (commitMigrationTx mig inst vm ref ip port))).exec as w).state = w ∨
      Commits mig w
        ((MigrationOp.op (.tx (commitMigrationTx mig inst vm ref ip port))).exec as w).state := by
  rcases tx_state with hsame | ⟨v, hv, hstate⟩
  · exact .inl hsame
  · rcases htx : (commitMigrationTx mig inst vm ref ip port).outcome as w with ⟨r, w', rest⟩
    obtain rfl : r = .ok v := by rw [← hv, htx]
    refine .inr ?_
    change Commits mig w (Effect.exec (Op.tx (commitMigrationTx mig inst vm ref ip port)) as w).state
    rw [hstate, htx]
    exact commitMigrationTx_commits htx

/-! ## The invariant -/

structure MigrationsSound (w : World) : Prop where
  source {id : Id} {m : InstanceMigration} : w.migrations.find? id = some m → m.active = true →
    ∀ v ∈ w.instanceVm m.deploymentInstanceId, v = some m.sourceVmId
  unique {id id' : Id} {m m' : InstanceMigration} : w.migrations.find? id = some m →
    w.migrations.find? id' = some m' → m.active = true → m'.active = true →
    m.deploymentInstanceId = m'.deploymentInstanceId → id = id'

section invariant
variable {w w' : World}

theorem MigrationsSound.evolve (h : MigrationsSound w)
    (hold : ∀ {id m'}, w'.migrations.find? id = some m' → m'.active = true →
      ∃ m, w.migrations.find? id = some m ∧ m.active = true ∧ m.subject = m'.subject)
    (hvm : ∀ {id m'}, w'.migrations.find? id = some m' → m'.active = true →
      ∀ v ∈ w'.instanceVm m'.deploymentInstanceId, w.instanceVm m'.deploymentInstanceId = some v) :
    MigrationsSound w' where
  source hm' hactive' v hv := by
    obtain ⟨m, hm, hactive, hsubject⟩ := hold hm' hactive'
    obtain ⟨hinst, hsource⟩ := Prod.mk.inj hsubject
    rw [← hsource]
    exact h.source hm hactive v (hinst ▸ hvm hm' hactive' v hv)
  unique h₁' h₂' hactive₁' hactive₂' hinst' := by
    obtain ⟨m₁, h₁, hactive₁, hsubject₁⟩ := hold h₁' hactive₁'
    obtain ⟨m₂, h₂, hactive₂, hsubject₂⟩ := hold h₂' hactive₂'
    refine h.unique h₁ h₂ hactive₁ hactive₂ ?_
    rw [(Prod.mk.inj hsubject₁).1, hinst', (Prod.mk.inj hsubject₂).1]

/-- One row is changed and keeps its subject; it is active only if it was. -/
theorem MigrationsSound.rewrite {f : InstanceMigration → InstanceMigration}
    (h : MigrationsSound w) (hf : ∀ m, (f m).subject = m.subject)
    (hmig : ∀ id, w'.migrations.find? id =
      (w.migrations.find? id).map fun m => if id = target then f m else m)
    (hactive : ∀ m, w.migrations.find? target = some m → (f m).active = true → m.active = true)
    (hvm : ∀ {id m'}, w'.migrations.find? id = some m' → m'.active = true →
      ∀ v ∈ w'.instanceVm m'.deploymentInstanceId, w.instanceVm m'.deploymentInstanceId = some v) :
    MigrationsSound w' := by
  refine h.evolve (fun {id m'} hm' hactive' => ?_) hvm
  rw [hmig] at hm'
  obtain ⟨m, hm, heq⟩ := Option.map_eq_some_iff.mp hm'
  refine ⟨m, hm, ?_⟩
  split at heq
  · next hid =>
    subst hid heq
    exact ⟨hactive m hm hactive', (hf m).symm⟩
  · subst heq
    exact ⟨hactive', rfl⟩

theorem MigrationsSound.congr (h : MigrationsSound w)
    (hmig : ∀ id, w'.migrations.find? id = w.migrations.find? id)
    (hvm : ∀ {id m}, w.migrations.find? id = some m → m.active = true →
      ∀ v ∈ w'.instanceVm m.deploymentInstanceId, w.instanceVm m.deploymentInstanceId = some v) :
    MigrationsSound w' :=
  h.evolve (fun {id _} hm' hactive' => ⟨_, (hmig id).symm.trans hm', hactive', rfl⟩)
    fun {id _} hm' hactive' => hvm ((hmig id).symm.trans hm') hactive'

theorem MigrationsSound.commit {mig m : InstanceMigration} (h : MigrationsSound w)
    (hm : w.migrations.find? mig.id = some m) (hactive : m.active = true)
    (hsubject : m.subject = mig.subject) (hcommit : Commits mig w w') : MigrationsSound w' := by
  refine h.rewrite (f := fun m => { m with state := .completed })
    (fun _ => rfl) hcommit.migrations (fun _ _ h => nomatch h) fun {id m'} hm' hactive' v hv => ?_
  rw [hcommit.migrations] at hm'
  obtain ⟨m₀, hm₀, heq⟩ := Option.map_eq_some_iff.mp hm'
  split at heq
  · subst heq
    cases hactive'
  · next hid =>
    subst heq
    rw [← hcommit.others]
    · exact hv
    · intro hinst
      refine hid (h.unique hm₀ hm hactive' hactive ?_)
      rw [hinst, (Prod.mk.inj hsubject).1]

theorem MigrationsSound.instanceVm_of_commit (h : MigrationsSound w)
    (hm : w.migrations.find? mig.id = some m) (hactive : m.active = true)
    (hsubject : m.subject = mig.subject) (hcommit : Commits mig w w') :
    w.instanceVm m.deploymentInstanceId = some (some m.sourceVmId) := by
  have hsome := hcommit.undeleted
  rw [← (Prod.mk.inj hsubject).1] at hsome
  obtain ⟨v, hv⟩ := Option.isSome_iff_exists.mp hsome
  rw [hv, h.source hm hactive v hv]

theorem MigrationsSound.create (h : MigrationsSound w)
    (hm : ∀ v ∈ w.instanceVm m.deploymentInstanceId, v = some m.sourceVmId) :
    MigrationsSound (w.withMigrations (createMigration m w.migrations).2) := by
  unfold createMigration
  split
  · exact h.congr (fun _ => rfl) fun _ _ _ hv => hv
  next hother =>
  cases hins : (inserting w.migrations m).1 with
  | error e => rw [inserting_error hins]; exact h.congr (fun _ => rfl) fun _ _ _ hv => hv
  | ok y =>
    obtain ⟨-, hinsert⟩ := inserting_ok hins
    have hfind : ∀ {id m'}, (inserting w.migrations m).2.find? id = some m' →
        w.migrations.find? id = some m' ∨ id = m.id ∧ m' = m := by
      intro id m' hm'
      rw [Table.find?_insert? hinsert] at hm'
      split at hm'
      · next hid => exact .inr ⟨hid.symm, (Option.some.inj hm').symm⟩
      · exact .inl hm'
    -- the index has not let the row pass next to another active one
    have hnew : ∀ {id m'}, w.migrations.find? id = some m' → m.active = true → m'.active = true →
        m.deploymentInstanceId = m'.deploymentInstanceId → False := by
      intro id m' hm' hactive hactive' hinst
      refine hother ?_
      rw [hactive, Bool.true_and, otherActive, List.any_eq_true]
      refine ⟨m', Table.mem_of_find? hm', ?_⟩
      have hne : m'.id ≠ m.id := by
        intro heq
        have hfresh := Table.insert?_fresh hinsert
        rw [← heq, Table.find?_key hm', hm'] at hfresh
        cases hfresh
      simp [hne, hinst, hactive']
    constructor
    · intro id m' hm' hactive' v hv
      rcases hfind hm' with hold | ⟨-, rfl⟩
      · exact h.source hold hactive' v hv
      · exact hm v hv
    · intro id id' m₁ m₂ h₁ h₂ hactive₁ hactive₂ hinst
      rcases hfind h₁ with hold₁ | ⟨rfl, rfl⟩
      · rcases hfind h₂ with hold₂ | ⟨rfl, rfl⟩
        · exact h.unique hold₁ hold₂ hactive₁ hactive₂ hinst
        · exact (hnew hold₁ hactive₂ hactive₁ hinst.symm).elim
      · rcases hfind h₂ with hold₂ | ⟨rfl, rfl⟩
        · exact (hnew hold₂ hactive₁ hactive₂ hinst).elim
        · rfl

end invariant

/-- The table has the migration that has been seen, perhaps in another state. -/
def Genuine (w : World) (row : InstanceMigration) : Prop :=
  ∃ m, w.migrations.find? row.id = some m ∧ m.subject = row.subject

section seen
variable {w w' : World} {row : InstanceMigration}

theorem Genuine.rewrite {f : InstanceMigration → InstanceMigration}
    (h : Genuine w row) (hf : ∀ m, (f m).subject = m.subject)
    (hmig : ∀ id, w'.migrations.find? id =
      (w.migrations.find? id).map fun m => if id = target then f m else m) : Genuine w' row := by
  obtain ⟨m, hm, hsubject⟩ := h
  refine ⟨if row.id = target then f m else m, by rw [hmig, hm]; rfl, ?_⟩
  split
  · rw [hf, hsubject]
  · exact hsubject

theorem Genuine.congr (h : Genuine w row)
    (hmig : w'.migrations.find? row.id = w.migrations.find? row.id) : Genuine w' row := by
  obtain ⟨m, hm, hsubject⟩ := h
  exact ⟨m, hmig.trans hm, hsubject⟩

theorem Genuine.fresh (h : Genuine w row) (hfresh : w.migrationState row.id = some row.state) :
    ∃ m, w.migrations.find? row.id = some m ∧ m.subject = row.subject ∧ m.active = row.active := by
  obtain ⟨m, hm, hsubject⟩ := h
  rw [World.migrationState, hm] at hfresh
  have hstate : m.state = row.state := Option.some.inj hfresh
  exact ⟨m, hm, hsubject, by rw [InstanceMigration.active, hstate]; rfl⟩

end seen

def MigrationOp.CreatesTimely (w : World) : MigrationOp β → Prop
  | .create m => ∀ v ∈ w.instanceVm m.deploymentInstanceId, v = some m.sourceVmId
  | _ => True

instance (op : MigrationOp β) : Decidable (op.CreatesTimely w) := by
  unfold MigrationOp.CreatesTimely
  induction op using MigrationOp.casesOn <;> infer_instance

def seenMigration (i : MigrationActor) (log : List (Call MigrationOp)) : Option InstanceMigration :=
  (MigrationActor.sees (fun _ => False) i).after log

/-- A pass changes migrations and instances only while the migration is in the state in which the
pass has last seen it; a request creates a migration only while the instance has the VM that the
request has read; and while an instance has an active migration, the deployers do not give it another
VM, or none, though they may delete it. -/
def SteadyInstances (i : MigrationActor) (log : List (Call MigrationOp)) :
    Prog.Guard MigrationOp Answer World := fun _ op as w =>
  match i with
  | .pass .. =>
    (op.exec as w).state.migrations.rows = w.migrations.rows ∧
      (op.exec as w).state.instances.rows = w.instances.rows ∨
    ∀ row ∈ seenMigration i log, w.migrationState row.id = some row.state
  | .request _ => op.CreatesTimely w
  | .deployer _ => ∀ m ∈ w.migrations.rows, m.active = true →
    ∀ v ∈ (op.exec as w).state.instanceVm m.deploymentInstanceId,
      w.instanceVm m.deploymentInstanceId = some v

instance : Decidable (SteadyInstances i log β op as w) := by
  unfold SteadyInstances
  split <;> infer_instance

/-! ## Calls keep the invariant -/

namespace MigrationActor
variable {i : MigrationActor} {m : Option InstanceMigration} {op : MigrationOp β}

theorem onTable_genuine (hf : ∀ {t}, (f t).1 = .ok row → (f t).2.find? row.id = some row)
    (h : (onTable a f World.migrations .withMigrations w).1 = .ok row) :
    Genuine (onTable a f World.migrations .withMigrations w).2 row := by
  unfold onTable at h ⊢
  split at h
  · cases h
  · next hfail =>
    rw [if_neg hfail]
    exact ⟨row, hf h, rfl⟩

theorem find?_update_returned {u : MigrationUpdate}
    (h : (u.exec t).1 = .ok row) : (u.exec t).2.find? row.id = some row := by
  unfold MigrationUpdate.exec at h ⊢
  split at h
  · cases h
  · next hindex =>
    rw [if_neg hindex]
    exact Table.find?_updateKey_returned (returning_ok h)

theorem read_genuine {id : Id}
    (h : (Stmt.step (.query (.instanceMigrationFirstByID id)) a w).1 = .ok row) :
    Genuine w row := by
  unfold Stmt.step at h
  dsimp only at h
  split at h
  · cases h
  · have hrow := one_ok h
    exact ⟨row, (Table.find?_key hrow).symm ▸ hrow, rfl⟩

theorem next_genuine (h : next m op (op.exec as w).value = some row) :
    m = some row ∨ Genuine (op.exec as w).state row := by
  cases op with
  | op o =>
    cases o with
    | db s =>
      cases s with
      | query q =>
        cases q with
        | instanceMigrationFirstByID id =>
          change next m _ (Stmt.step _ _ _).1 = _ at h
          cases hv : (Stmt.step (.query (.instanceMigrationFirstByID id)) (as.headD default) w).1 with
          | error e => exact .inl (by rwa [hv] at h)
          | ok r =>
            rw [hv] at h
            cases h
            exact .inr (read_genuine hv)
        | _ => exact .inl h
      | migrations s =>
        cases s with
        | updateCompleted => exact .inl h
        | updateFallbackEvacuating id code =>
          change next m _ (onTable _ _ _ _ _).1 = _ at h
          cases hv : (onTable (as.headD default)
              (MigrationStmt.updateFallbackEvacuating id code).exec World.migrations
              .withMigrations w).1 with
          | error e => exact .inl (by rwa [hv] at h)
          | ok r =>
            rw [hv] at h
            cases h
            exact .inr (onTable_genuine
              (fun hr => Table.find?_updateKey_returned (returning_ok hr)) hv)
      | _ => exact .inl h
    | _ => exact .inl h
  | update u =>
    change next m _ (onTable _ _ _ _ _).1 = _ at h
    cases hv : (onTable (as.headD default) u.exec World.migrations .withMigrations w).1 with
    | error e => exact .inl (by rwa [hv] at h)
    | ok r =>
      rw [hv] at h
      cases h
      exact .inr (onTable_genuine find?_update_returned hv)
  | _ => exact .inl h

theorem Acts.genuine (hop : Acts S m i op) (h : Genuine w row) :
    Genuine (op.exec as w).state row := by
  cases hop with
  | quiet hquiet => exact h.congr (by rw [(hquiet as w).1])
  | deploys hspares => exact h.congr ((hspares row.id).exec as w)
  | create m =>
    obtain ⟨r, hr, hsubject⟩ := h
    refine ⟨r, ?_, hsubject⟩
    dsimp only [MigrationOp.exec, answering, onTable]
    split
    · exact hr
    · dsimp only [createMigration]
      split
      · exact hr
      · exact find?_inserting hr
  | @update _ _ u =>
    dsimp only [MigrationOp.exec, answering, onTable]
    split
    · exact h
    · rcases u.find?_exec w.migrations with hsame | hmig
      · exact h.congr (congrArg (·.find? row.id) hsame)
      · exact h.rewrite u.change_subject hmig
  | @finish _ _ _ s =>
    change Genuine (Stmt.step (.migrations s) (as.headD default) w).2 row
    dsimp only [Stmt.step, onTable]
    split
    · exact h
    · exact h.rewrite s.change_subject (s.find?_exec w.migrations)
  | @commit _ _ mig inst vm ref ip port =>
    rcases commitMigrationTx_state with hsame | hcommit
    · rw [hsame]
      exact h
    · exact h.rewrite (f := fun m => { m with state := .completed }) (fun _ => rfl) hcommit.migrations

theorem Acts.sound_of_fresh (hop : Acts (fun _ => False) m (.pass server id) op) (h : MigrationsSound w)
    (hseen : ∀ row, m = some row → Genuine w row)
    (hfresh : ∀ row ∈ m, w.migrationState row.id = some row.state) :
    MigrationsSound (op.exec as w).state := by
  cases hop with
  | quiet hquiet =>
    refine h.congr (fun id => by rw [(hquiet as w).1]) fun _ _ v hv => ?_
    rwa [World.instanceVm, (hquiet as w).2] at hv
  | @update _ _ u hu =>
    dsimp only [MigrationOp.exec, answering, onTable]
    split
    · exact h
    · rcases u.find?_exec w.migrations with hsame | hmig
      · exact h.congr (fun id => congrArg (·.find? id) hsame) fun _ _ _ hv => hv
      · refine h.rewrite u.change_subject hmig (fun m₀ hm₀ hactive => ?_) fun _ _ _ hv => hv
        -- a migration that goes on has been seen before its end, and is still there
        have hgoes : u.state.terminal = false := by
          rw [InstanceMigration.active, u.change_state] at hactive
          exact (Bool.not_eq_true' _).mp hactive
        obtain ⟨row, hrow, hid, hrowActive⟩ := hu (.inr hgoes)
        obtain ⟨m₁, hm₁, -, hm₁Active⟩ := (hseen row hrow).fresh (hfresh row hrow)
        rw [hid, hm₀] at hm₁
        cases hm₁
        rw [hm₁Active, hrowActive]
  | @finish _ _ _ s =>
    change MigrationsSound (Stmt.step (.migrations s) (as.headD default) w).2
    dsimp only [Stmt.step, onTable]
    split
    · exact h
    · refine h.rewrite s.change_subject (s.find?_exec w.migrations) (fun m₀ _ hactive => ?_)
        fun _ _ _ hv => hv
      rw [s.change_active] at hactive
      cases hactive
  | @commit _ _ mig inst vm ref ip port hm hactive =>
    rcases commitMigrationTx_state with hsame | hcommit
    · rw [hsame]
      exact h
    · obtain ⟨m₀, hm₀, hsubject, hactive₀⟩ := (hseen mig hm).fresh (hfresh mig hm)
      exact h.commit hm₀ (hactive₀.trans hactive) hsubject hcommit

theorem Acts.sound (hop : Acts (fun _ => False) m i op) (hm : m = seenMigration i log)
    (hguard : SteadyInstances i log β op as w) (h : MigrationsSound w)
    (hseen : ∀ row, m = some row → Genuine w row) : MigrationsSound (op.exec as w).state := by
  cases i with
  | pass server id =>
    rcases hguard with ⟨hmig, hinst⟩ | hfresh
    · refine h.congr (fun id => congrArg (List.find? _) hmig) fun _ _ v hv => ?_
      rwa [instanceVm_congr (congrArg (List.find? _) hinst)] at hv
    · exact hop.sound_of_fresh h hseen (hm ▸ hfresh)
  | request n =>
    cases hop with
    | quiet hquiet =>
      refine h.congr (fun id => by rw [(hquiet as w).1]) fun _ _ v hv => ?_
      rwa [World.instanceVm, (hquiet as w).2] at hv
    | create row =>
      dsimp only [MigrationOp.exec, answering, onTable]
      split
      · exact h
      · exact h.create hguard
  | deployer n =>
    have hvm : ∀ {id r}, w.migrations.find? id = some r → r.active = true →
        ∀ v ∈ (op.exec as w).state.instanceVm r.deploymentInstanceId,
          w.instanceVm r.deploymentInstanceId = some v :=
      fun hr hactive => hguard _ (Table.mem_of_find? hr) hactive
    cases hop with
    | quiet hquiet => exact h.congr (fun id => by rw [(hquiet as w).1]) hvm
    | deploys hspares => exact h.congr (fun id => (hspares id).exec as w) hvm

end MigrationActor

/-- **Invariant of every run.** -/
theorem migrations_sound : Team.Keeps migrationStarts (fun _ w => w) SteadyInstances
    (MigrationActor.sees fun _ => False) (fun _ _ => True)
    fun M w => MigrationsSound w ∧ ∀ i row, M i = some row → Genuine w row where
  starts := MigrationActor.starts_see
  rest _ := trivial
  call M i log w β op as hM hallows hguard hI := by
    have hop := hallows.acts
    refine ⟨MigrationActor.possible_exec fun _ _ h => h.elim,
      hop.sound hM hguard hI.1 (hI.2 i), fun j row hrow => ?_⟩
    rw [Function.update_apply] at hrow
    split at hrow
    · rcases MigrationActor.next_genuine hrow with hold | hnew
      · exact hop.genuine (hI.2 i row hold)
      · exact hnew
    · exact hop.genuine (hI.2 j row hrow)
  start M i w _ hI := by
    refine ⟨hI.1, fun j row hrow => ?_⟩
    rw [Function.update_apply] at hrow
    split at hrow
    · cases hrow
    · exact hI.2 j row hrow
  crash M i w hI := by
    refine ⟨hI.1, fun j row hrow => ?_⟩
    rw [Function.update_apply] at hrow
    split at hrow
    · cases hrow
    · exact hI.2 j row hrow

theorem MigrationActor.Acts.commits {op : MigrationOp β} (hop : Acts S m (.pass server id) op)
    (hchange : (op.exec as w).state.instanceVm inst ≠ w.instanceVm inst) :
    ∃ mig, m = some mig ∧ mig.active = true ∧ Commits mig w (op.exec as w).state := by
  cases hop with
  | quiet hquiet => exact (hchange (instanceVm_congr (by rw [(hquiet as w).2]))).elim
  | update =>
    refine (hchange (instanceVm_congr ?_)).elim
    dsimp only [MigrationOp.exec, answering, onTable]
    split <;> rfl
  | @finish _ _ _ s =>
    refine (hchange (instanceVm_congr ?_)).elim
    change (Stmt.step (.migrations s) (as.headD default) w).2.instances.find? inst = _
    dsimp only [Stmt.step, onTable]
    split <;> rfl
  | @commit _ _ mig i vm ref ip port hm hactive =>
    rcases commitMigrationTx_state with hsame | hcommit
    · exact (hchange (by rw [hsame])).elim
    · exact ⟨mig, hm, hactive, hcommit⟩

/-- **Commits.** Let passes over migrations, requests and deployers interleave from a state in which
instances with an active migration have the source VM, such that every step meets the condition.
Whenever a pass changes the VM of an instance, it commits an active migration of the instance, the
instance is not deleted, and has the source VM, which is deleted in the same step. -/
theorem commit_replaces_source_vm (w : World) (hw : MigrationsSound w) (c : MigrationTeam)
    (hc : Team.Run migrationStarts (fun _ w => w) SteadyInstances (Team.idle (.ok ()) w) c)
    (server id : Id) (as : List Answer)
    (hguard : Team.TurnMeets SteadyInstances c (.pass server id) as) (inst : Id)
    (hchange : (c.turn (.pass server id) as).state.instanceVm inst ≠ c.state.instanceVm inst) :
    ∃ m, c.state.migrations.find? m.id = some m ∧ m.active = true ∧
      m.deploymentInstanceId = inst ∧ c.state.instanceVm inst = some (some m.sourceVmId) ∧
      (c.turn (.pass server id) as).state.migrationState m.id = some .completed ∧
      (c.turn (.pass server id) as).state.liveVM m.sourceVmId = false := by
  obtain ⟨hfollow, hsound, hseen⟩ := migrations_sound.run (migrations_sound.follow_idle _ w)
    ⟨hw, fun _ _ h => nomatch h⟩ hc
  have hallows := hfollow (.pass server id)
  unfold Team.TurnMeets at hguard
  unfold Team.turn at hchange ⊢
  cases hprog : c.prog (.pass server id) with
  | ret r =>
    rw [hprog] at hchange
    exact (hchange rfl).elim
  | call op k =>
    rw [hprog] at hchange hallows hguard
    have hop := MigrationActor.allows.acts (S := fun _ => False) (i := .pass server id) hallows.1
    obtain ⟨mig, hm, hactive, hcommit⟩ := hop.commits hchange
    rcases hguard with ⟨-, hsame⟩ | hfresh
    · exact (hchange (instanceVm_congr (congrArg (List.find? _) hsame))).elim
    · obtain ⟨m, hfind, hsubject, hactive'⟩ := (hseen _ mig hm).fresh (hfresh mig hm)
      have hid : m.id = mig.id := Table.find?_key hfind
      have hinst : m.deploymentInstanceId = inst := by
        by_contra hne
        refine hchange (hcommit.others inst ?_)
        rw [← (Prod.mk.inj hsubject).1]
        exact Ne.symm hne
      have hvm := hsound.instanceVm_of_commit hfind (hactive'.trans hactive) hsubject hcommit
      refine ⟨m, hid ▸ hfind, hactive'.trans hactive, hinst, hinst ▸ hvm, ?_, ?_⟩
      · refine (congrArg (Option.map _) (hcommit.migrations m.id)).trans ?_
        rw [hid, hfind, Option.map_some, if_pos rfl]
        rfl
      · rw [(Prod.mk.inj hsubject).2]
        exact hcommit.source

theorem migrationWorld_sound : MigrationsSound (migrationWorld state) where
  source hm _ v hv := by
    cases List.mem_singleton.mp (Table.mem_of_find? hm)
    exact (Option.some.inj hv).symm
  unique h₁ h₂ _ _ _ := by
    rw [← Table.find?_key h₁, ← Table.find?_key h₂,
      List.mem_singleton.mp (Table.mem_of_find? h₁), List.mem_singleton.mp (Table.mem_of_find? h₂)]

/-- Server 6 is about to commit. -/
def committingMigration : MigrationTeam :=
  (migrationPasses .received).turns (List.replicate 4 (.pass 6 7, []))

theorem committingMigration_replaces : ∃ m,
    committingMigration.state.migrations.find? m.id = some m ∧ m.active = true ∧
    m.deploymentInstanceId = 20 ∧
    committingMigration.state.instanceVm 20 = some (some m.sourceVmId) ∧
    (committingMigration.turn (.pass 6 7) []).state.migrationState m.id = some .completed ∧
    (committingMigration.turn (.pass 6 7) []).state.liveVM m.sourceVmId = false :=
  commit_replaces_source_vm (migrationWorld .received) migrationWorld_sound committingMigration
    (migrationPasses_run.trans (Team.Run.turns (by decide +kernel))) 6 7 []
    (by decide +kernel) 20 (by decide +kernel)

/-- Server 5 has sent the guest of instance 20 away, finds the instance without one, and restarts
it. -/
def restartMigrated : Pass Unit := restartInstance (migrationHandler 5)
    { dep := { id := 10, projectId := 1, imageId := some 40 }, proj := { id := 1 }, service := none
      desired := 1, persistentVolume := none }
    "" none { id := 20, deploymentId := 10, serverId := some 5, vmId := some 30, status := .running }

theorem restartMigrated_deploys : Uses Action.Deploys restartMigrated := by
  refine .bind (.ofTotal trivial) fun now => ?_
  split
  · exact .bind (discard_uses (.ofCall trivial)) fun _ => .pure
  refine .bind (.ofCall id) fun inst => .bind (.ofCall id) fun inst => ?_
  split
  · exact .pure
  · exact .ofCall id

def restartTeam : MigrationTeam := (migrationPasses .received).begin (.deployer 0)
    (hoist (fun _ => .op) (Prog.interp (fun _ (a : Action _) => a.prog) restartMigrated : Go Op Unit))

/-- The restart happens while server 6 is about to commit. -/
def restartedMigration : MigrationTeam :=
  restartTeam.turns (List.replicate 4 (.pass 6 7, []) ++ List.replicate 17 (.deployer 0, []))

/-- The commit then takes the VM of the restart from the instance, and leaves it running on server 5
without an owner. -/
theorem restarted_vm_overwritten : ∃ c : MigrationTeam,
    Team.Run migrationStarts (fun _ w => w) (fun _ _ => Prog.unguarded)
      (Team.idle (.ok ()) (migrationWorld .received)) restartedMigration ∧
    Team.Run migrationStarts (fun _ w => w) (fun _ _ => Prog.unguarded) restartedMigration c ∧
    restartedMigration.state.instanceVm 20 = some (some 1000) ∧
    c.state.migrationState 7 = some .completed ∧ c.state.instanceVm 20 = some (some 1001) ∧
    c.state.liveVM 1000 = true ∧ (∀ i ∈ c.state.instances.rows, i.vmId ≠ some 1000) ∧
    c.state.running.any (·.is 5 20) = true :=
  ⟨restartedMigration.turns [(.pass 6 7, [{ uuids := fun _ => 1001 }])],
    (migrationPasses_run.trans (Team.Run.begin (MigrationActor.deployer 0) _ rfl
      ⟨restartMigrated, restartMigrated_deploys, rfl⟩)).trans
      (Team.Run.turns (Team.turnsMeet_unguarded _ _)),
    Team.Run.turns (Team.turnsMeet_unguarded _ _), by decide +kernel, by decide +kernel,
    by decide +kernel, by decide +kernel, by decide +kernel, by decide +kernel⟩

end Kindling
