import Kindling.Deploy.Footprint
import Kindling.Migration.Handler

/-!
# Terminal migrations

A pass over a live migration reads the row, makes calls that can take an hour, and then writes the
state without looking again.
-/

namespace Kindling

open Fallible

namespace MigrationStmt

def target : MigrationStmt β → Id
  | updateCompleted id | updateFallbackEvacuating id _ => id

def change : MigrationStmt β → InstanceMigration → InstanceMigration
  | updateCompleted _, m => { m with state := .completed }
  | updateFallbackEvacuating _ code, m => { m with state := .fallbackEvacuating, failureCode := code }

theorem change_id (s : MigrationStmt β) (m : InstanceMigration) : (s.change m).id = m.id := by
  cases s <;> rfl

theorem exec_snd (s : MigrationStmt β) (t : MigrationTable) :
    (s.exec t).2 = (t.updateKey s.target (fun _ => true) s.change s.change_id).2 := by
  cases s <;> rfl

theorem find?_exec (s : MigrationStmt β) (t : MigrationTable) (mig : Id) :
    (s.exec t).2.find? mig = (t.find? mig).map fun m => if mig = s.target then s.change m else m := by
  simp [exec_snd, Table.find?_updateKey]

end MigrationStmt

def Stmt.SparesMigration (mig : Id) (β : Type) : Stmt β → Prop
  | .migrations s => s.target ≠ mig
  | _ => True

def Op.SparesMigration (mig : Id) (β : Type) : Op β → Prop
  | .db s => s.SparesMigration mig
  | .tx p => p.Uses (Stmt.SparesMigration mig)
  | _ => True

theorem Stmt.SparesMigration.step {s : Stmt β} (h : s.SparesMigration mig) (a : Answer) (w : World)
    : (s.step a w).2.migrations.find? mig = w.migrations.find? mig := by
  cases s with
  | query | newUUID => rfl
  | migrations s =>
    refine onTable_elim (P := fun w' => w'.migrations.find? mig = _) rfl fun _ => ?_
    simp [s.find?_exec, if_neg (Ne.symm h)]
  | _ => exact onTable_elim (P := fun w' => w'.migrations.find? mig = _) rfl fun _ => rfl

theorem Op.SparesMigration.exec {o : Op β} (h : o.SparesMigration mig) (as : List Answer)
    (w : World) : (o.exec as w).state.migrations.find? mig = w.migrations.find? mig := by
  cases o with
  | db s => exact Stmt.SparesMigration.step h _ w
  | tx p =>
    have hp : (p.run as w).state.migrations.find? mig = w.migrations.find? mig := Prog.Uses.run h
        (fun _ s hs as w' hw => (Stmt.SparesMigration.step hs _ w').trans hw) rfl
    exact Op.tx_elim (P := fun w' => w'.migrations.find? mig = _) rfl hp
  | runtime server c =>
    exact Op.runtime_elim (P := fun w' => w'.migrations.find? mig = _) fun _ _ => rfl
  | _ => rfl

theorem Stmt.InstanceLevel.sparesMigration {s : Stmt β} (h : s.InstanceLevel) (mig : Id) :
    s.SparesMigration mig := by
  cases s <;> first | exact h.elim | trivial

theorem Op.InstanceLevel.sparesMigration {o : Op β} (h : o.InstanceLevel) (mig : Id) :
    o.SparesMigration mig := by
  cases o with
  | db s => exact Stmt.InstanceLevel.sparesMigration h mig
  | tx p => exact .mono h fun _ _ hs => hs.sparesMigration mig
  | _ => trivial

theorem Action.Deploys.sparesMigration {a : Action β} (h : a.Deploys) :
    a.prog.Uses fun _ o => ∀ mig, o.SparesMigration mig := by
  cases a with
  | task t => exact (t.level h).mono fun _ _ ho => ho.sparesMigration
  | _ => exact ⟨fun _ => trivial, fun _ => trivial⟩

theorem commitMigrationTx_spares {id : Id} (h : mig.id ≠ id) {ref : String} :
    Uses (Stmt.SparesMigration id) (commitMigrationTx mig inst vm ref ip port) := by
  simp [commitMigrationTx, Stmt.SparesMigration, MigrationStmt.target, context, h]

/-! ## What a program has seen -/

inductive CommitsMigration (mig : InstanceMigration) :
    {β : Type} → Prog Stmt (Except Err β) → Prop
  | tx (inst : DeploymentInstance) (vm : Vm) (ref : String) (ip port : Nat) :
    CommitsMigration mig (commitMigrationTx mig inst vm ref ip port)

def SeenActive (id : Id) (m : Option InstanceMigration) : Prop :=
  ∃ row, m = some row ∧ row.id = id ∧ row.active = true

namespace MigrationActor

/-- A pass writes the state of a migration that it has seen before its end; for a migration outside
of `S` this is so at least when the migration is to go on. It commits the migration that it has last
seen. -/
def passAllows (S : Id → Prop) (m : Option InstanceMigration) : MigrationOp β → Prop
  | .update u => S u.target ∨ u.state.terminal = false → SeenActive u.target m
  | .op (.db (.query _)) | .op (.runtime ..) | .op .now | .op (.scheduleRetry ..) => True
  | .op (.db (.migrations s)) => S s.target → SeenActive s.target m
  | .op (.tx p) => ∃ mig, m = some mig ∧ mig.active = true ∧ CommitsMigration mig p
  | .op _ | .create _ => False
  | .findActiveByDeploymentInstanceID _ | .prepareMigrationTarget .. | .abortMigrationTarget ..
  | .migrationVersion .. | .sendMigration .. => True

def requestAllows : MigrationOp β → Prop
  | .op (.db (.query _)) | .op (.db .newUUID) | .op .now | .create _
  | .findActiveByDeploymentInstanceID _ => True
  | _ => False

def deployerAllows : MigrationOp β → Prop
  | .op o => ∀ mig, o.SparesMigration mig
  | _ => False

def allows (S : Id → Prop) : MigrationActor → Option InstanceMigration → MigrationOp β → Prop
  | .pass .., m, op => passAllows S m op
  | .request _, _, op => requestAllows op
  | .deployer _, _, op => deployerAllows op

def possible (S : Id → Prop) : MigrationOp β → β → Prop
  | .update (.aborted id _), .ok row => ¬S id ∧ row.id = id
  | .update u, .ok row => row.id = u.target ∧ row.state = u.state
  | _, _ => True

def next (m : Option InstanceMigration) : MigrationOp β → β → Option InstanceMigration
  | .op (.db (.query (.instanceMigrationFirstByID _))), .ok row | .update _, .ok row
  | .op (.db (.migrations (.updateFallbackEvacuating ..))), .ok row => some row
  | _, _ => m

@[simps] def sees (S : Id → Prop) (i : MigrationActor) : Typestate MigrationOp (Option InstanceMigration) :=
  ⟨none, allows S i, fun _ op v => possible S op v, next⟩

/-- What an allowed call can be: most of them leave migrations and instances as they are. -/
inductive Acts (S : Id → Prop) (m : Option InstanceMigration) :
    MigrationActor → {β : Type} → MigrationOp β → Prop
  | quiet {i : MigrationActor} {β : Type} {op : MigrationOp β}
      (h : ∀ as w, (op.exec as w).state.migrations = w.migrations ∧
        (op.exec as w).state.instances = w.instances) : Acts S m i op
  | deploys {n : Nat} {β : Type} {o : Op β} (h : ∀ mig, o.SparesMigration mig) :
    Acts S m (.deployer n) (.op o)
  | create {n : Nat} (row : InstanceMigration) : Acts S m (.request n) (.create row)
  | update {server id : Id} {u : MigrationUpdate}
      (h : S u.target ∨ u.state.terminal = false → SeenActive u.target m) :
    Acts S m (.pass server id) (.update u)
  | finish {server id : Id} {β : Type} {s : MigrationStmt β}
      (h : S s.target → SeenActive s.target m) :
    Acts S m (.pass server id) (.op (.db (.migrations s)))
  | commit {server id : Id} {mig : InstanceMigration} {inst : DeploymentInstance} {vm : Vm}
      {ref : String} {ip port : Nat} (hm : m = some mig) (hactive : mig.active = true) :
    Acts S m (.pass server id) (.op (.tx (commitMigrationTx mig inst vm ref ip port)))

theorem runtime_quiet (server : Id) (c : RuntimeCall β) (as : List Answer) (w : World) :
    ((MigrationOp.op (.runtime server c)).exec as w).state.migrations = w.migrations ∧
      ((MigrationOp.op (.runtime server c)).exec as w).state.instances = w.instances := by
  obtain ⟨r, s, hstep⟩ := c.step_state server (as.headD default) w
  simp only [MigrationOp.exec, Op.exec, hstep, and_self]

theorem sendMigration_quiet (server inst : Id) (url : String) (as : List Answer) (w : World) :
    ((MigrationOp.sendMigration server inst url).exec as w).state.migrations = w.migrations ∧
      ((MigrationOp.sendMigration server inst url).exec as w).state.instances = w.instances := by
  dsimp only [MigrationOp.exec, answering]
  split <;> exact ⟨rfl, rfl⟩

theorem allows.acts (h : allows S i m op) : Acts S m i op := by
  cases i with
  | deployer n =>
    cases op with
    | op o => exact .deploys h
    | _ => exact h.elim
  | request n =>
    cases op with
    | op o =>
      cases o with
      | db s =>
        cases s with
        | query | newUUID => exact .quiet fun _ _ => ⟨rfl, rfl⟩
        | _ => exact h.elim
      | now => exact .quiet fun _ _ => ⟨rfl, rfl⟩
      | _ => exact h.elim
    | create row => exact .create row
    | findActiveByDeploymentInstanceID => exact .quiet fun _ _ => ⟨rfl, rfl⟩
    | _ => exact h.elim
  | pass server id =>
    cases op with
    | op o =>
      cases o with
      | db s =>
        cases s with
        | query => exact .quiet fun _ _ => ⟨rfl, rfl⟩
        | migrations s => exact .finish h
        | _ => exact h.elim
      | tx p =>
        obtain ⟨mig, hm, hactive, ⟨⟩⟩ := h
        exact .commit hm hactive
      | runtime server c => exact .quiet (runtime_quiet server c)
      | now | scheduleRetry => exact .quiet fun _ _ => ⟨rfl, rfl⟩
      | healthCheck | scheduleServer => exact h.elim
    | update u => exact .update h
    | create => exact h.elim
    | sendMigration server inst url => exact .quiet (sendMigration_quiet server inst url)
    | _ => exact .quiet fun _ _ => ⟨rfl, rfl⟩

section passes
variable {S : Id → Prop} {server id : Id} {m : Option InstanceMigration} {mig : InstanceMigration}

abbrev ofPass (S : Id → Prop) (server id : Id) : Typestate MigrationOp (Option InstanceMigration) :=
  sees S (.pass server id)

attribute [local simp] allows passAllows possible.eq_def next.eq_def Yields Except.mapError context discard
  query Kindling.Reads.read migrationUpdate MigrationUpdate.target MigrationUpdate.state
  MigrationStmt.target Option.forall

theorem failMigration_follows (hm : SeenActive mig.id m) {step : String} :
    (ofPass S server id).Follows (failMigration mig code step) (fun _ _ => True) m := by
  simp [failMigration, hm]

theorem prepareDestination_follows (hm : SeenActive mig.id m) :
    (ofPass S server id).Follows (prepareDestination d mig) (fun _ _ => True) m := by
  simp [prepareDestination, hm, failMigration_follows]

theorem abortMigrationFromSource_follows (hm : SeenActive mig.id m) :
    (ofPass S server id).Follows (abortMigrationFromSource mig) (fun _ _ => True) m := by
  simp +contextual [abortMigrationFromSource, hm]

theorem sendMigration_follows (hm : SeenActive mig.id m) :
    (ofPass S server id).Follows (sendMigration d mig) (fun _ _ => True) m := by
  have hseen (row : InstanceMigration) (hid : row.id = mig.id) (hstate : row.state = .sending) :
      SeenActive mig.id (some row) := ⟨row, rfl, hid, by rw [InstanceMigration.active, hstate]; rfl⟩
  simp +contextual [Kindling.sendMigration, hm, hseen, failMigration_follows]

theorem sendFromSource_follows (hm : SeenActive mig.id m) :
    (ofPass S server id).Follows (sendFromSource d mig) (fun _ _ => True) m := by
  simp [sendFromSource, failMigration_follows hm]
  intros
  split
  · exact failMigration_follows hm
  · exact sendMigration_follows hm

theorem commitOnDestination_follows (hmig : mig.active = true) :
    (ofPass S server id).Follows (hoist (fun _ => .op) (commitOnDestination d mig))
      (fun _ _ => True) (some mig) := by
  refine .hoist ?_
  have hseen : SeenActive mig.id (some mig) := ⟨mig, rfl, rfl, hmig⟩
  simp [commitOnDestination, fallBack, hseen, Deployer.runtime, hmig, CommitsMigration.tx]
  intro _ _ outcome
  cases outcome <;> simp

theorem reconcileMigration_follows :
    (ofPass S server id).Follows (reconcileMigration d mid) (fun _ _ => True) none := by
  simp [reconcileMigration]
  intro mig
  have hseen (h : mig.state.terminal = false) : SeenActive mig.id (some mig) :=
    ⟨mig, rfl, rfl, by rw [InstanceMigration.active, h]; rfl⟩
  cases h : mig.state
  case sending =>
    cases mig.cutoverDeadlineAt <;>
      simp [h, abortMigrationFromSource_follows, hseen, MigrationState.terminal]
  case received =>
    simp [commitOnDestination_follows, InstanceMigration.active, h, MigrationState.terminal]
  all_goals
    simp [h, prepareDestination_follows, sendFromSource_follows, hseen, MigrationState.terminal, dropTarget,
      wakeDeployment]

end passes

@[simp] theorem query_requests :
    Uses (fun _ op => requestAllows op) (query q : Go MigrationOp β) := .ofCall trivial

theorem pickLeastLoaded_requests :
    Uses (fun _ op => requestAllows op) (pickLeastLoaded l best) := by
  induction l generalizing best with
  | nil => exact .pure
  | cons s l ih => simp [pickLeastLoaded, ih]

theorem requestMigration_uses :
    Uses (fun _ op => requestAllows op) (requestMigration inst serverId vmId) := by
  have hnew : requestAllows (.op (.db .newUUID)) ∧ requestAllows (.op .now) := ⟨trivial, trivial⟩
  have hcreate : ∀ m, requestAllows (.create m) := fun _ => trivial
  simp [requestMigration, pickLiveMigrationDestination, pickLeastLoaded_requests, context, hnew,
    hcreate]
  intros
  split <;> simp

theorem postDeploymentInstanceLiveMigrate_uses :
    Uses (fun _ op => requestAllows op) (postDeploymentInstanceLiveMigrate inst) := by
  have hfind : requestAllows (.findActiveByDeploymentInstanceID inst) := trivial
  simp [postDeploymentInstanceLiveMigrate]
  intros
  split <;> simp [context, hfind, requestMigration_uses]

theorem starts_see (i : MigrationActor) (p : Prog MigrationOp (Except Err Unit))
    (hp : migrationStarts i p) : (sees S i).Admits p (fun _ _ => True) none := by
  cases i with
  | pass server id =>
    obtain ⟨d, -, rfl⟩ := hp
    exact reconcileMigration_follows
  | request n =>
    obtain ⟨inst, rfl⟩ := hp
    exact .of_uses ((discard_uses postDeploymentInstanceLiveMigrate_uses).mono
      fun _ _ h _ => h) none
  | deployer n =>
    obtain ⟨q, hq, rfl⟩ := hp
    have hops : Prog.Uses (fun _ o => ∀ mig, o.SparesMigration mig)
        (.interp (fun _ a => a.prog) q) :=
      .interp hq fun _ _ ha => ha.sparesMigration
    have hcalls : Prog.Uses (fun _ op => ∀ m, (sees S (.deployer n)).allows m op)
        (.interp (fun _ o => .lift (.op o)) (.interp (fun _ a => a.prog) q)) :=
      .interp hops fun _ _ ho => ⟨fun _ => ho, fun _ => trivial⟩
    exact .of_uses hcalls none

end MigrationActor

/-! ## When a terminal migration stays as it is -/

def World.migrationState (w : World) (mig : Id) : Option MigrationState :=
  (w.migrations.find? mig).map (·.state)

theorem migrationState_congr {w w' : World} (h : w'.migrations.find? mig = w.migrations.find? mig) :
    w'.migrationState mig = w.migrationState mig := congrArg (Option.map _) h

def MigrationOp.Aborts (id : Id) : MigrationOp β → Prop
  | .update (.aborted id' _) => id' = id
  | _ => False

instance (op : MigrationOp β) : Decidable (op.Aborts mig) := by
  unfold MigrationOp.Aborts
  split <;> infer_instance

def NotAborted (mig : Id) : Prog.Guard MigrationOp Answer World := fun _ op as _ =>
  op.Aborts mig → (as.headD default).fail = true

instance : Decidable (NotAborted mig β op as w) :=
  inferInstanceAs (Decidable (op.Aborts mig → (as.headD default).fail = true))

/-- The migration is not aborted, and the table of migrations is changed only while the migration is
as the program has last seen it. -/
def TimelyMigration (mig : Id) (i : MigrationActor) (log : List (Call MigrationOp)) :
    Prog.Guard MigrationOp Answer World := fun β op as w =>
  NotAborted mig β op as w ∧
  ((op.exec as w).state.migrations.rows = w.migrations.rows ∨
    ∀ row ∈ (MigrationActor.sees (· = mig) i).after log, row.id = mig →
      w.migrationState mig = some row.state)

instance : Decidable (TimelyMigration mig i log β op as w) :=
  inferInstanceAs (Decidable (_ ∧ (_ ∨ ∀ row ∈ _, _ → _)))

theorem MigrationUpdate.find?_exec_ne (u : MigrationUpdate) (t : MigrationTable)
    (h : mig ≠ u.target) : (u.exec t).2.find? mig = t.find? mig := by
  unfold MigrationUpdate.exec
  split
  · rfl
  · exact t.find?_updateKey_ne _ _ u.change_id h

theorem MigrationUpdate.exec_ok {u : MigrationUpdate} {row : InstanceMigration}
    (h : (u.exec t).1 = .ok row) : row.id = u.target ∧ row.state = u.state := by
  unfold MigrationUpdate.exec at h
  split at h
  · cases h
  · obtain ⟨m, -, -, rfl, hid⟩ := Table.updateKey_fst_eq_some (returning_ok h)
    exact ⟨hid, by cases u <;> rfl⟩

theorem MigrationActor.possible_exec {op : MigrationOp β} {as : List Answer}
    (h : ∀ id, op.Aborts id → S id → (as.headD default).fail = true) :
    possible S op (op.exec as w).value := by
  cases op with
  | update u =>
    dsimp only [MigrationOp.exec, answering, onTable]
    split
    · cases u <;> trivial
    next hfail =>
    cases hrow : (u.exec w.migrations).1 with
    | error e => cases u <;> trivial
    | ok row =>
      obtain ⟨hid, hstate⟩ := MigrationUpdate.exec_ok hrow
      cases u with
      | aborted id code => exact ⟨fun hS => hfail (h id rfl hS), hid⟩
      | _ => exact ⟨hid, hstate⟩
  | _ => trivial

theorem NotAborted.possible {op : MigrationOp β} (h : NotAborted mig β op as w) :
    MigrationActor.possible (· = mig) op (op.exec as w).value :=
  MigrationActor.possible_exec fun _ hop hid => h (hid ▸ hop)

namespace MigrationActor
variable {mig : Id} {t : MigrationState} {m : Option InstanceMigration} {w : World}

/-- A migration that is at its end has not been seen before its end, if it is as it has been seen. -/
theorem not_seenActive (ht : t.terminal = true) (hw : w.migrationState mig = some t)
    (hfresh : ∀ row ∈ m, row.id = mig → w.migrationState mig = some row.state) :
    ¬SeenActive mig m := by
  rintro ⟨row, hm, hid, hactive⟩
  have hstate : t = row.state := Option.some.inj (hw.symm.trans (hfresh row hm hid))
  rw [InstanceMigration.active, ← hstate, ht] at hactive
  cases hactive

theorem allows_spares {op : MigrationOp β} (hallows : allows (· = mig) i m op)
    (hm : ¬SeenActive mig m) (as : List Answer) (w : World) {row : InstanceMigration}
    (hrow : w.migrations.find? mig = some row) :
    (op.exec as w).state.migrations.find? mig = some row := by
  have hop : ∀ {β : Type} {o : Op β}, o.SparesMigration mig →
      (o.exec as w).state.migrations.find? mig = some row := fun ho => (ho.exec as w).trans hrow
  cases hallows.acts with
  | quiet h => rw [(h as w).1, hrow]
  | deploys h => exact hop (h mig)
  | create m =>
    dsimp only [MigrationOp.exec, answering, onTable]
    split
    · exact hrow
    · dsimp only [createMigration]
      split
      · exact hrow
      · exact find?_inserting hrow
  | @update _ _ u h =>
    have hne : mig ≠ u.target := fun heq => hm (heq ▸ h (.inl heq.symm))
    dsimp only [MigrationOp.exec, answering, onTable]
    split
    · exact hrow
    · exact (u.find?_exec_ne w.migrations hne).trans hrow
  | @finish _ _ _ s h => exact hop fun heq => hm (heq ▸ h heq)
  | @commit _ _ mig' inst vm ref ip port hseen hactive =>
    exact hop (commitMigrationTx_spares (fun h => hm ⟨mig', hseen, h, hactive⟩))

end MigrationActor

theorem migrations_seen : Team.Keeps migrationStarts (fun _ w => w)
    (fun _ _ => NotAborted mig) (MigrationActor.sees (· = mig)) (fun _ _ => True) fun _ _ => True where
  starts := MigrationActor.starts_see
  rest _ := trivial
  call _ _ _ _ _ _ _ _ _ hguard _ := ⟨hguard.possible, trivial⟩
  start _ _ _ _ _ := trivial
  crash _ _ _ _ := trivial

theorem terminal_migration_kept (ht : t.terminal = true) :
    Team.Keeps migrationStarts (fun _ w => w) (TimelyMigration mig)
      (MigrationActor.sees (· = mig)) (fun _ _ => True) fun _ w => w.migrationState mig = some t where
  starts := MigrationActor.starts_see
  rest _ := trivial
  call M i log w β op as hM hallows hguard hw := by
    refine ⟨hguard.1.possible, ?_⟩
    obtain ⟨row, hrow, -⟩ := Option.map_eq_some_iff.mp hw
    rcases hguard.2 with hrows | hfresh
    · rw [← hw]
      refine migrationState_congr ?_
      exact congrArg (List.find? _) hrows
    · rw [← hw]
      refine migrationState_congr ?_
      rw [← hM] at hfresh
      rw [hrow]
      exact MigrationActor.allows_spares hallows (MigrationActor.not_seenActive ht hw hfresh) as w hrow
  start _ _ _ _ h := h
  crash _ _ _ h := h

/-- **Terminal migrations.** Let passes of any number of servers over migrations, requests for
migrations, and deployers interleave, from any state, such that the migration is not aborted for its
cutover deadline. Once it is completed, failed, aborted or left to evacuation, its state stays in
every run in which the table of migrations is changed only while the migration is as the program has
last seen it. -/
theorem terminal_migration_state_kept (w : World) (c c' : MigrationTeam) (mig : Id)
    (t : MigrationState)
    (hc : Team.Run migrationStarts (fun _ w => w) (fun _ _ => NotAborted mig)
      (Team.idle (.ok ()) w) c)
    (hmig : c.state.migrationState mig = some t) (ht : t.terminal = true)
    (hc' : Team.Run migrationStarts (fun _ w => w) (TimelyMigration mig) c c') :
    c'.state.migrationState mig = some t := by
  obtain ⟨hfollow, -⟩ := migrations_seen.run (migrations_seen.follow_idle _ w) trivial hc
  exact ((terminal_migration_kept ht).run hfollow hmig hc').2

def migrationWorld (state : MigrationState) : World where
  servers := ⟨[{ id := 5, internalIp := "10.0.0.5" }, { id := 6, internalIp := "10.0.0.6" }],
    by decide⟩
  componentStatuses :=
    [{ serverId := 6, worker := true, healthy := true, runtime := some .cloudHypervisor
       liveMigrationEnabled := true, sharedRootfsDir := "/rootfs" }]
  deployments := .single { id := 10, projectId := 1 }
  instances := .single { id := 20, deploymentId := 10, serverId := some 5, vmId := some 30
                         status := .running }
  vms := .single { id := 30, serverId := 5, imageId := 40, status := .running
                   runtime := .cloudHypervisor, sharedRootfsRef := "rootfs/20" }
  migrations := ⟨[{ id := 7, deploymentInstanceId := 20, sourceServerId := 5
                    destinationServerId := 6, sourceVmId := 30, state
                    receiveAddr := "10.0.0.6:4000", cutoverDeadlineAt := some 100 }],
    by simp⟩

def migrationHandler (server : Id) : Deployer where
  serverId := server
  rt := some { name := .cloudHypervisor, liveMigration := true }

/-- Passes of both servers over the migration. -/
def migrationPasses (state : MigrationState) : MigrationTeam :=
  ((Team.idle (.ok ()) (migrationWorld state)).begin (.pass 5 7)
    (reconcileMigration (migrationHandler 5) 7)).begin (.pass 6 7)
    (reconcileMigration (migrationHandler 6) 7)

theorem migrationPasses_run :
    Team.Run migrationStarts (fun _ w => w) G (.idle (.ok ()) (migrationWorld state))
      (migrationPasses state) :=
  (Team.Run.begin (.pass 5 7) _ rfl ⟨migrationHandler 5, rfl, rfl⟩).trans
    (Team.Run.begin (MigrationActor.pass 6 7) _ rfl ⟨migrationHandler 6, rfl, rfl⟩)

/-- Server 5 is sending when server 6 finds that the deadline has passed. -/
def abortedWhileSending : MigrationTeam :=
  (migrationPasses .destinationPrepared).turns (List.replicate 8 (.pass 5 7, []) ++
    [(.pass 6 7, []), (.pass 6 7, [{ now := 200 }]), (.pass 6 7, []), (.pass 6 7, [])])

/-- The source server then records that the migration has been received: its state leaves
`fallback_evacuating`, and the destination will commit it. -/
theorem aborted_migration_received : ∃ c : MigrationTeam,
    Team.Run migrationStarts (fun _ w => w) (fun _ _ => Prog.unguarded)
      (Team.idle (.ok ()) (migrationWorld .destinationPrepared)) abortedWhileSending ∧
    Team.Run migrationStarts (fun _ w => w) (fun _ _ => Prog.unguarded) abortedWhileSending c ∧
    abortedWhileSending.state.migrationState 7 = some .fallbackEvacuating ∧
    c.state.migrationState 7 = some .received :=
  ⟨abortedWhileSending.turns [(.pass 5 7, []), (.pass 5 7, [])],
    migrationPasses_run.trans (Team.Run.turns (Team.turnsMeet_unguarded _ _)),
    Team.Run.turns (Team.turnsMeet_unguarded _ _), by decide +kernel, by decide +kernel⟩

def committedMigration : MigrationTeam :=
  (migrationPasses .received).turns (List.replicate 5 (.pass 6 7, []))

theorem committedMigration_kept :
    committedMigration.state.migrationState 7 = some .completed ∧
    (committedMigration.turns [(.pass 5 7, [])]).state.migrationState 7 = some .completed :=
  ⟨by decide +kernel,
    terminal_migration_state_kept (migrationWorld .received) committedMigration _ 7 .completed
      (migrationPasses_run.trans (Team.Run.turns (by decide +kernel))) (by decide +kernel) rfl
      (Team.Run.turns (by decide +kernel))⟩

end Kindling
