import Kindling.Volumes.Footprint
import Kindling.Volumes.Operations

/-!
# Terminal volume operations

A pass over a volume operation reads its row once, works for a long time, and then writes the
operation, and after it the volume, whatever they have become in between.
-/

namespace Kindling

open Fallible

/-- The operation has not been read, or it was last seen in a status, or the pass has ended it, and
then written the volume. -/
inductive OperationSight
  | unseen
  | seen (status : OperationStatus)
  | ended
  | closed
  deriving DecidableEq

namespace OperationSight

/-- The pass has not ended the operation. -/
def Open (m : OperationSight) : Prop := m ≠ ended ∧ m ≠ closed

/-- The operation has been seen before its end. -/
def Live (m : OperationSight) : Prop := ∃ st, m = seen st ∧ st.terminal = false

theorem Live.isOpen {m : OperationSight} (h : m.Live) : m.Open := by
  obtain ⟨st, rfl, -⟩ := h
  exact ⟨nofun, nofun⟩

def written (status : OperationStatus) : OperationSight :=
  if status.terminal then ended else seen status

end OperationSight

def OperationStmt.writes : OperationStmt → OperationStatus
  | .create .. => .pending
  | .updateRunning _ => .running
  | .updateState _ _ status .. => status

/-- A volume is in such a status while an operation on it is active. -/
def VolumeStatus.transitional : VolumeStatus → Bool
  | backingUp | restoring | repairing | deleting => true
  | detached | available | attached | unavailable => false

structure OperationView where
  row : VolumeOperation → Prop
  volume : ProjectVolume → Prop

def OperationView.blank : OperationView := ⟨fun _ => True, fun _ => True⟩

/-- The last write of a pass: the volume leaves the status it has for the operation. -/
def OperationView.Closing (D : OperationView) : VolumeRowStmt β → Prop
  | .updateStatusAndHealth p status .. =>
    (∃ vol, D.volume vol ∧ vol.projectId = p) ∧ status.transitional = false
  | .softDelete p => ∃ vol, D.volume vol ∧ vol.projectId = p
  | _ => False

namespace OperationSight

/-- What a call is allowed, for a pass over the operation `o`: the operation and the server of its
volume are written by a pass that has seen the operation before its end, and the status of the volume
in the last call of a pass that has ended the operation. -/
def Allows (D : OperationView) (o : Id) (m : OperationSight) : VolumeOp β → Prop
  | .operations s => s.target = o ∧ m.Live
  | .deployer (.db (.volumes (.assignServer ..))) => m.Live
  | .deployer (.db (.query _)) | .deployer .now => m.Open
  | .deployer _ => False
  | .rows s => m = ended ∧ D.Closing s
  | _ => m.Open

/-- What a call tells about the operation. -/
def next (o : Id) (m : OperationSight) : VolumeOp β → β → OperationSight
  | .read (.operationFindByID id), .ok row => if id = o then seen row.status else m
  | .operations s, .ok _ => written s.writes
  | .rows _, _ => closed
  | _, _ => m

/-- A row that is returned for an identifier has it. -/
def Possible (D : OperationView) (o : Id) : VolumeOp β → β → Prop
  | .read (.operationFindByID id), .ok row => row.id = id ∧ (id = o → D.row row)
  | .read (.volumeFindByID id), .ok vol => ∀ row, D.row row → row.projectVolumeId = id → D.volume vol
  | .operations s, .ok row => row.id = s.target
  | _, _ => True

end OperationSight

def operationSight (D : OperationView) (o : Id) : Typestate VolumeOp OperationSight where
  start := .unseen
  allows m op := m.Allows D o op
  possible _ op v := OperationSight.Possible D o op v
  next m op v := m.next o op v

/-! ## Passes write what they have seen -/

section programs
variable {D : OperationView} {o : Id} {m : OperationSight}

/-- Calls that have nothing to do with the operation. -/
def VolumeOp.Unseeing (β : Type) : VolumeOp β → Prop
  | .operations _ | .rows _ | .read (.operationFindByID _) => False
  | .deployer (.db (.query _)) | .deployer .now => True
  | .deployer _ => False
  | _ => True

theorem VolumeOp.Unseeing.sees (h : op.Unseeing) (hm : m.Open) :
    m.Allows D o op ∧ ∀ v, m.next o op v = m := by
  cases op with
  | deployer d =>
    cases d with
    | db s => cases s <;> first | exact ⟨hm, fun _ => rfl⟩ | exact h.elim
    | now => exact ⟨hm, fun _ => rfl⟩
    | _ => exact h.elim
  | read q => cases q <;> first | exact ⟨hm, fun _ => rfl⟩ | exact h.elim
  | operations | rows => exact h.elim
  | _ => exact ⟨hm, fun _ => rfl⟩

theorem sightless_follows (hm : m.Open) (h : Uses VolumeOp.Unseeing p) :
    (operationSight D o).Follows p (fun _ m' => m' = m) m :=
  .of_uses (h.mono fun _ _ hop => ⟨(hop.sees hm).1, fun v _ => (hop.sees (D := D) hm).2 v⟩)

theorem operationStmt_follows (hs : s.target = o) (hm : m.Live) :
    (operationSight D o).Follows (operationStmt s)
      (Yields (fun row m' => row.id = o ∧ m' = .written s.writes) (· = m)) m :=
  .ofCall_yields ⟨hs, hm⟩ (fun _ hrow => ⟨hrow.trans hs, rfl⟩) fun _ _ => rfl

/-- The pass makes only calls that are allowed, from here on, and writes the volume if it has ended
the operation. -/
abbrev Proper (D : OperationView) (o : Id) (p : Go VolumeOp β) (m : OperationSight) : Prop :=
  (operationSight D o).Follows p (fun _ m' => m' ≠ .ended) m

theorem Proper.bind (hm : m.Open) (h : Uses VolumeOp.Unseeing p) (hf : ∀ a, Proper D o (f a) m) :
    Proper D o (p >>= f) m :=
  Typestate.Follows.bind (sightless_follows hm h) (fun a _ hm' => hm' ▸ hf a) fun _ _ hm' => hm' ▸ hm.1

theorem Proper.attempt_bind (hm : m.Open) (h : Uses VolumeOp.Unseeing p)
    (hf : ∀ r, Proper D o (f r) m) :
    Proper D o (p.attempt >>= f) m :=
  Typestate.Follows.attempt_bind (sightless_follows hm h) fun r _ hm' => hm' ▸ hf r

theorem closing_follows (ht : D.Closing t) :
    Proper D o (volumeRowStmt t) .ended := .ofCall ⟨rfl, ht⟩ fun _ _ => nofun

theorem ending_follows {s : OperationStmt} (hs : s.target = o) (hend : s.writes.terminal = true)
    (ht : D.Closing t) (hm : m.Live) :
    Proper D o (do
      let _ ← context c (operationStmt s)
      let _ ← context c' (volumeRowStmt t)) m := by
  refine .bind_yields (.wrap_yields (operationStmt_follows hs hm)) (fun _ m' hm' => ?_)
    fun _ _ hm' => hm' ▸ hm.isOpen.1
  obtain rfl : m' = .ended := hm'.2.trans (if_pos hend)
  refine .bind (Q := fun _ m' => m' ≠ .ended) ?_ (fun _ _ hm' => .pure hm') fun _ _ => id
  exact (closing_follows ht).wrap (fun _ _ => id) fun _ _ => id

attribute [local simp] VolumeOp.Unseeing volumeRead backupStmt query Reads.read context discard

theorem trimLoop_unseeing (l : List VolumeBackup) : Uses VolumeOp.Unseeing (trimLoop n l k) := by
  induction l generalizing k with
  | nil => exact .pure
  | cons b l ih =>
    unfold trimLoop
    split <;> simp [ih]

theorem trimBackups_unseeing (vol : ProjectVolume) : Uses VolumeOp.Unseeing (trimBackups vol) := by
  simp [trimBackups, trimLoop_unseeing]

theorem downloadToPath_unseeing (h : VolumeHandler) (vol : ProjectVolume) (key : String) :
    Uses VolumeOp.Unseeing (downloadToPath h vol key) := by
  unfold downloadToPath
  split <;> simp

theorem operationServerHealthy_unseeing :
    Uses VolumeOp.Unseeing (operationServerHealthy server) := by
  simp [operationServerHealthy]

theorem failBackup_unseeing : Uses VolumeOp.Unseeing (failBackup message backupId) := by
  cases backupId <;> simp [failBackup]

theorem isStaleRunning_unseeing : Uses VolumeOp.Unseeing (isStaleRunning op) := by
  unfold isStaleRunning
  split <;> simp

end programs

/-- What a property of programs has to be closed under in order to hold of every pass over a volume:
calls that have nothing to do with the operation, the writes of the operation and of the server of its
volume, and the ways in which a pass ends. -/
structure PassRules (vol : ProjectVolume) (G : VolumeOperation → Go VolumeOp Unit → Prop) : Prop where
  pure : G op (pure ())
  bind {p : Go VolumeOp β} : Uses VolumeOp.Unseeing p → (∀ a, G op (f a)) → G op (p >>= f)
  attempt {p : Go VolumeOp β} : Uses VolumeOp.Unseeing p → (∀ e, G op (f (.error e))) →
    (∀ a, G op (f (.ok a))) → G op (p.attempt >>= f)
  assign : (∀ e, G op (f (.error e))) → (∀ a, G op (f (.ok a))) →
    G op ((ofCall (.deployer (.db (.volumes (.assignServer vol.projectId target))))).attempt >>= f)
  start : (∀ row, G row (f row)) → G op (context c (operationStmt (.updateRunning op.id)) >>= f)
  postpone : G op (do
    let _ ← context c (operationStmt (.updateState op.id target .pending request result "")))
  fail : G op (failOperation op vol message health backupId)
  complete : G op (completeOperation op vol result .detached health message)
  finish : G op (finishBackup h op vol req backupId result)

namespace PassRules
variable {vol : ProjectVolume} {G : VolumeOperation → Go VolumeOp Unit → Prop} (R : PassRules vol G)
include R

theorem uploadBackup : G op (uploadBackup h op vol req backupId) := by
  refine R.bind (.ofTotal trivial) fun r => ?_
  dsimp only
  split
  · exact R.fail
  refine R.attempt (.ofCall trivial) (fun _ => R.fail) fun _ => ?_
  refine R.attempt (.ofCall trivial) (fun _ => R.fail) fun _ => ?_
  exact R.attempt (trimBackups_unseeing vol) (fun _ => R.fail) fun _ => R.finish

theorem runBackup : G op (runBackup h op vol) := by
  unfold Kindling.runBackup
  split
  · split
    · exact R.fail
    split
    · exact R.fail
    split
    · refine R.attempt (.ofCall trivial) (fun _ => R.fail) fun _ => ?_
      refine R.attempt (.ofCall trivial) (fun _ => R.fail) fun _ => ?_
      exact R.attempt (.ofCall trivial) (fun _ => R.fail) fun _ => R.uploadBackup
    · exact R.fail
  · exact R.fail

theorem pinAndComplete {failure : String} : G op (pinAndComplete op vol target result failure) :=
  R.assign (fun _ => R.fail) fun _ => R.complete

theorem runRestore : G op (runRestore h op vol) := by
  unfold Kindling.runRestore
  split
  · split
    · exact R.fail
    split
    · split
      · refine R.attempt (.ofCall trivial) (fun _ => R.fail) fun _ => ?_
        refine R.attempt (.ofCall trivial) (fun _ => R.fail) fun backup => ?_
        dsimp only
        split
        · exact R.fail
        exact R.attempt (downloadToPath_unseeing ..) (fun _ => R.fail) fun _ => R.pinAndComplete
      · exact R.fail
    · exact R.fail
  · exact R.fail

theorem uploadForMove : G op (uploadForMove h op vol req target) := by
  refine R.bind (.ofTotal trivial) fun r => ?_
  dsimp only
  split
  · exact R.fail
  · exact R.attempt (.ofCall trivial) (fun _ => R.fail) fun _ => R.postpone

theorem downloadForMove : G op (downloadForMove h op vol req target) := by
  refine R.attempt (downloadToPath_unseeing ..) (fun _ => R.fail) fun _ => ?_
  exact R.attempt (.ofCall trivial) (fun _ => R.fail) fun _ => R.pinAndComplete

theorem runMove : G op (runMove h op vol) := by
  unfold Kindling.runMove
  split
  · split
    · exact R.fail
    dsimp only
    split
    · split
      · exact R.fail
      refine R.attempt (.ofCall trivial) (fun _ => R.fail) fun _ => ?_
      dsimp only
      split
      · exact R.downloadForMove
      · exact R.fail
      · exact R.uploadForMove
    · exact R.fail
  · exact R.fail

theorem runRepair : G op (runRepair h op vol) := by
  unfold Kindling.runRepair
  split
  · exact R.fail
  refine R.bind (.ofTotal trivial) fun r => ?_
  dsimp only
  split
  · exact R.fail
  · exact R.attempt (.ofCall trivial) (fun _ => R.fail) fun _ => R.complete

theorem startOperation : G op (startOperation h op vol) := by
  have hrun : ∀ op, G op (runOperation h op vol) := by
    intro op
    unfold runOperation
    split
    exacts [R.runBackup, R.runRestore, R.runMove, R.runRepair]
  unfold Kindling.startOperation
  split
  · exact R.start hrun
  · exact hrun op

theorem reconcileActive : G op (reconcileActive h op vol) := by
  refine R.bind isStaleRunning_unseeing fun stale => ?_
  split
  · exact R.fail
  split
  · exact R.startOperation
  split
  · exact R.startOperation
  refine R.bind operationServerHealthy_unseeing fun message => ?_
  split
  · exact R.pure
  · exact R.fail

end PassRules

section programs
variable {D : OperationView} {o : Id} {m : OperationSight}

theorem proper_rules (hvol : D.volume vol) :
    PassRules vol fun op p => op.id = o → ∀ m : OperationSight, m.Live → Proper D o p m := by
  have hcomplete {op : VolumeOperation} {result : OperationResult} {health : VolumeHealth}
      {message : String} (ho : op.id = o) (m : OperationSight) (hm : m.Live) :
      Proper D o (completeOperation op vol result .detached health message) m := by
    refine ending_follows ?_ rfl ⟨⟨vol, hvol, rfl⟩, rfl⟩ hm
    exact ho
  have hfail {op : VolumeOperation} {message : String} {health : Option VolumeHealth}
      {backupId : Option Id} (ho : op.id = o) (m : OperationSight) (hm : m.Live) :
      Proper D o (failOperation op vol message health backupId) m := by
    have hstatus : (statusAfterFailure (healthAfterFailure vol health)).transitional = false := by
      unfold statusAfterFailure
      split <;> rfl
    refine .bind hm.isOpen failBackup_unseeing fun _ =>
      ending_follows ?_ rfl ⟨⟨vol, hvol, rfl⟩, hstatus⟩ hm
    exact ho
  refine {
    pure := fun _ _ hm => .pure hm.isOpen.1
    bind := fun hp hf ho m hm => .bind hm.isOpen hp fun a => hf a ho m hm
    attempt := fun hp herr hok ho m hm => .attempt_bind hm.isOpen hp fun r => ?attempt
    assign := fun herr hok ho m hm => ?assign
    start := fun hf ho m hm => ?start
    postpone := fun ho m hm => ?postpone
    fail := hfail
    complete := hcomplete
    finish := fun ho m hm => ?finish }
  case attempt =>
    cases r with
    | error e => exact herr e ho m hm
    | ok a => exact hok a ho m hm
  case assign =>
    refine Typestate.Follows.attempt_bind (.ofCall hm fun _ _ => rfl) fun r m' hm' => ?_
    subst hm'
    cases r with
    | error e => exact herr e ho _ hm
    | ok a => exact hok a ho _ hm
  case start =>
    refine .bind_yields (.wrap_yields (operationStmt_follows ho hm)) (fun row m' hrow => ?_)
      fun _ _ hm' => hm' ▸ hm.isOpen.1
    exact hf row hrow.1 m' ⟨.running, hrow.2, rfl⟩
  case postpone =>
    refine .bind_yields (.wrap_yields (operationStmt_follows ho hm)) (fun _ m' hm' => ?_)
      fun _ _ hm' => hm' ▸ hm.isOpen.1
    obtain rfl : m' = .seen .pending := hm'.2
    exact .pure nofun
  case finish =>
    unfold finishBackup
    split
    · refine .attempt_bind hm.isOpen (.ofCall trivial) fun r => ?_
      split
      · exact hfail ho m hm
      · refine .bind_yields (.wrap_yields (operationStmt_follows ho hm)) (fun _ m' hm' => ?_)
          fun _ _ hm' => hm' ▸ hm.isOpen.1
        obtain rfl : m' = .ended := hm'.2
        exact closing_follows ⟨vol, hvol, rfl⟩
    · exact hcomplete ho m hm

theorem reconcileVolumeOperation_proper : Proper D o (reconcileVolumeOperation h o) .unseen := by
  have hread : (operationSight D o).Follows (volumeRead (.operationFindByID o))
      (Yields (fun row m' => row.id = o ∧ D.row row ∧ m' = .seen row.status) (· = .unseen)) .unseen :=
    .ofCall_yields ⟨nofun, nofun⟩ (fun row hrow => ⟨hrow.1, hrow.2 rfl, if_pos rfl⟩) fun _ _ => rfl
  refine Typestate.Follows.attempt_bind hread fun r m' hr => ?_
  cases r with
  | error e =>
    obtain rfl : m' = .unseen := hr
    dsimp only
    split
    · exact .pure nofun
    · exact .throw nofun
  | ok op =>
    obtain ⟨ho, hrow, rfl⟩ := hr
    dsimp only
    split
    · exact .pure nofun
    next hlive =>
    have hm : (OperationSight.seen op.status).Live := ⟨_, rfl, Bool.eq_false_iff.mpr hlive⟩
    have hvolume : (operationSight D o).Follows (volumeRead (.volumeFindByID op.projectVolumeId))
        (Yields (fun vol m' => D.volume vol ∧ m' = .seen op.status) (· = .seen op.status))
        (.seen op.status) :=
      .ofCall_yields hm.isOpen (fun vol hvol => ⟨hvol op hrow rfl, rfl⟩) fun _ _ => rfl
    refine .attempt_bind hvolume fun r m' hr => ?_
    cases r with
    | error e =>
      obtain rfl : m' = .seen op.status := hr
      dsimp only
      split
      · exact .pure nofun
      · exact .throw nofun
    | ok vol =>
      obtain ⟨hvol, rfl⟩ := hr
      exact (proper_rules hvol).reconcileActive ho _ hm

end programs

theorem OperationSight.possible_exec {w : VolumeWorld}
    (hrow : ∀ row, w.operations.find? o = some row → D.row row)
    (hvolume : ∀ row vol, D.row row → w.volumeByID row.projectVolumeId = some vol → D.volume vol)
    (op : VolumeOp β) (as : List Answer) : Possible D o op (op.exec as w).value := by
  cases op with
  | read q =>
    cases q with
    | operationFindByID id =>
      refine VolumeOp.read_value (fun _ => trivial) fun row h => ⟨Table.find?_key (one_ok h), ?_⟩
      rintro rfl
      exact hrow row (one_ok h)
    | volumeFindByID id =>
      refine VolumeOp.read_value (fun _ => trivial) fun vol h => ?_
      rintro row hD rfl
      exact hvolume row vol hD (Option.filter_eq_some_iff.mp (one_ok h)).1
    | _ => trivial
  | operations s =>
    exact VolumeOp.operations_value (fun _ => trivial) fun _ _ => OperationStmt.exec_id
  | _ => trivial

theorem OperationSight.possible_blank (o : Id) (op : VolumeOp β) (as : List Answer) (w : VolumeWorld) :
    Possible .blank o op (op.exec as w).value :=
  possible_exec (fun _ _ => trivial) (fun _ _ _ _ => trivial) op as

/-! ## Runs -/

/-- Passes over one operation, of any server, and other programs. -/
inductive OperationActor
  | pass (n : Nat)
  | other (n : Nat)
  deriving DecidableEq

/-- The passes are those over the operation `o`; the others are any programs that do not write it. -/
def operationStarts (o : Id) : OperationActor → Prog VolumeOp (Except Err Unit) → Prop
  | .pass _, p => ∃ h : VolumeHandler, p = reconcileVolumeOperation h o
  | .other _, p => p.Uses fun _ op => ¬op.WritesOperation o

abbrev OperationTeam := Team OperationActor VolumeOp (Except Err Unit) VolumeWorld

abbrev OperationTeam.Run (o : Id)
    (G : OperationActor → List (Call VolumeOp) → Prog.Guard VolumeOp Answer VolumeWorld)
    (c c' : OperationTeam) : Prop :=
  Team.Run (operationStarts o) (fun _ => id) G c c'

/-- What the programs of an actor know; those that are not passes do not write the operation. -/
def actorSight (o : Id) : OperationActor → Typestate VolumeOp OperationSight
  | .pass _ => operationSight .blank o
  | .other _ => { operationSight .blank o with allows := fun _ op => ¬op.WritesOperation o }

def VolumeOp.isWork : VolumeOp β → Bool
  | .operations _ | .deployer (.db (.volumes _)) => true
  | _ => false

theorem VolumeOp.WritesOperation.isWork {op : VolumeOp β} (h : op.WritesOperation o) :
    op.isWork = true := by
  cases op <;> first | rfl | exact h.elim

/-- A pass writes the operation, or the server of the volume, only while the operation has the status
that the pass has seen or written last, unless the statement fails. -/
def TimelyWork (o : Id) : OperationActor → List (Call VolumeOp) →
    Prog.Guard VolumeOp Answer VolumeWorld
  | .other _, _, _, _, _, _ => True
  | .pass _, log, _, op, as, w => op.isWork = true → (as.headD default).fail = true ∨
      ∀ row ∈ w.operations.find? o, (operationSight .blank o).after log = .seen row.status

instance : Decidable (TimelyWork o i log β op as w) :=
  match i with
  | .other _ => .isTrue trivial
  | .pass _ => inferInstanceAs (Decidable (op.isWork = true → _ ∨ _))

theorem operation_starts (hp : operationStarts o i p) :
    (actorSight o i).Admits p (fun _ _ => True) .unseen := by
  cases i with
  | pass n =>
    obtain ⟨h, rfl⟩ := hp
    exact reconcileVolumeOperation_proper.any
  | other n => exact .of_uses (hp.mono fun _ _ hop _ => hop) _

theorem operation_sights_kept : Team.Keeps (operationStarts o) (fun _ => id)
    (fun _ _ => Prog.unguarded) (actorSight o) (fun _ _ => True) fun _ _ => True where
  starts := fun i p hp => by cases i <;> exact operation_starts hp
  rest _ := trivial
  call _ i _ w _ op as _ _ _ _ := ⟨by cases i <;> exact OperationSight.possible_blank o op as w, trivial⟩
  start _ _ _ _ _ := trivial
  crash _ _ _ _ := trivial

section
variable {o : Id} {n : Nat} {log : List (Call VolumeOp)} {op : VolumeOp β} {as : List Answer}
  {w : VolumeWorld} {row : VolumeOperation}
  (hallows : (operationSight .blank o).allows ((operationSight .blank o).after log) op)
  (hguard : TimelyWork o (.pass n) log β op as w) (hrow : w.operations.find? o = some row)
  (hend : row.status.terminal = true)
include hallows hguard hrow hend

theorem TimelyWork.spares (hwork : op.isWork = true) : (as.headD default).fail = true := by
  refine (hguard hwork).resolve_right fun hseen => ?_
  have hlive : ((operationSight .blank o).after log).Live := by
    cases op with
    | operations s => exact hallows.2
    | deployer d =>
      cases d with
      | db s =>
        cases s with
        | volumes s => cases s <;> first | exact hallows | exact hallows.elim
        | _ => cases hwork
      | _ => cases hwork
    | _ => cases hwork
  obtain ⟨st, hst, hlive⟩ := hlive
  rw [hseen row hrow] at hst
  cases hst
  rw [hend] at hlive
  cases hlive

/-- Nor does it touch the volume, unless it has ended the operation itself. -/
theorem TimelyWork.spares_world (hends : (operationSight .blank o).after log ≠ .ended) :
    (op.exec as w).state.toWorld = w.toWorld := by
  cases op with
  | rows s => exact absurd hallows.1 hends
  | deployer d =>
    cases d with
    | db s =>
      cases s with
      | query q => exact VolumeOp.toWorld_exec trivial
      | volumes s =>
        have hfail := hguard.spares hallows hrow hend rfl
        refine (Op.execWithDisks_toWorld ..).trans ?_
        change (onTable (as.headD default) _ _ _ w.toWorld).2 = _
        rw [onTable, if_pos hfail]
      | _ => exact hallows.elim
    | now => exact VolumeOp.toWorld_exec trivial
    | _ => exact hallows.elim
  | _ => exact VolumeOp.toWorld_exec trivial

end

theorem terminal_operation_row_kept (hend : row.status.terminal = true) :
    Team.Keeps (operationStarts o) (fun _ => id) (TimelyWork o)
      (actorSight o) (fun _ _ => True) fun _ w => w.operations.find? o = some row where
  starts := fun i p hp => by cases i <;> exact operation_starts hp
  rest _ := trivial
  call M i log w β op as hM hallows hguard hrow := by
    rw [hM] at hallows
    refine ⟨by cases i <;> exact OperationSight.possible_blank o op as w, ?_⟩
    refine (VolumeOp.find?_operations fun hop => ?_).trans hrow
    cases i with
    | pass n => exact hguard.spares hallows hrow hend hop.isWork
    | other n => exact absurd hop hallows
  start _ _ _ _ h := h
  crash _ _ _ h := h

def VolumeWorld.conditionOf (w : VolumeWorld) (projectId : Id) :
    Option (VolumeStatus × VolumeHealth × Option Id) :=
  (w.volumes.find? projectId).map fun v => (v.status, v.health, v.serverId)

/-- **Terminal volume operations.** Let passes of any number of servers over an operation, and other
programs, interleave from any state. Once the operation has succeeded or failed, its row stays as it
is in every run in which passes work in time, and no call of a pass changes the status, health or
server of a volume, but for the last write of a pass that has ended the operation. -/
theorem terminal_operation_kept (o : Id) (w : VolumeWorld) (c c' : OperationTeam)
    (row : VolumeOperation)
    (hc : OperationTeam.Run o (fun _ _ => Prog.unguarded) (Team.idle (.ok ()) w) c)
    (hrow : c.state.operations.find? o = some row) (hend : row.status.terminal = true)
    (hc' : OperationTeam.Run o (TimelyWork o) c c') :
    c'.state.operations.find? o = some row ∧
    ∀ (n : Nat) (β : Type) (op : VolumeOp β) (k : β → Prog VolumeOp (Except Err Unit))
      (as : List Answer), c'.prog (.pass n) = .call op k →
      TimelyWork o (.pass n) (c'.log (.pass n)) β op as c'.state →
      (operationSight .blank o).after (c'.log (.pass n)) ≠ .ended →
      (op.exec as c'.state).state.conditionOf = c'.state.conditionOf := by
  obtain ⟨hfollow, -⟩ := operation_sights_kept.run (operation_sights_kept.follow_idle _ w)
    trivial hc
  obtain ⟨hfollow, hrow'⟩ := (terminal_operation_row_kept hend).run hfollow hrow hc'
  refine ⟨hrow', fun n β op k as hprog hguard hends => ?_⟩
  have hpass := hfollow (.pass n)
  rw [hprog] at hpass
  have hworld := hguard.spares_world hpass.1 hrow' hend hends
  funext p
  exact congrArg (fun w : World => (w.volumes.find? p).map fun v => (v.status, v.health, v.serverId))
    hworld

def repairWorld : VolumeWorld where
  toWorld :=
    { volumes := .single { id := 9, projectId := 3, serverId := some 5, status := .repairing } }
  operations :=
    .single { id := 30, projectVolumeId := 9, serverId := some 5, kind := .repair }
  disks := [⟨5, 9⟩]

def repairPasses : OperationTeam :=
  ((Team.idle (.ok ()) repairWorld).begin (.pass 0) (reconcileVolumeOperation ⟨5⟩ 30)).begin (.pass 1)
    (reconcileVolumeOperation ⟨6⟩ 30)

/-- Server 5 has begun to repair the disk, and after 46 minutes server 6 finds that it takes too
long. -/
def timedOutRepair : OperationTeam := repairPasses.turns (List.replicate 4 (.pass 0, []) ++
    List.replicate 5 (.pass 1, [{ now := 46 * 60 * second }]))

theorem timedOutRepair_run :
    OperationTeam.Run 30 (fun _ _ => Prog.unguarded) (.idle (.ok ()) repairWorld) timedOutRepair :=
  (Team.Run.begin (.pass 0) _ rfl ⟨_, rfl⟩).trans ((Team.Run.begin (.pass 1) _ rfl ⟨_, rfl⟩).trans
      (Team.Run.turns (Team.turnsMeet_unguarded _ _)))

/-- Server 5 repairs the disk after all: the operation that has failed succeeds. -/
theorem failed_operation_succeeds : ∃ c : OperationTeam,
    OperationTeam.Run 30 (fun _ _ => Prog.unguarded) (Team.idle (.ok ()) repairWorld) timedOutRepair ∧
    OperationTeam.Run 30 (fun _ _ => Prog.unguarded) timedOutRepair c ∧
    (timedOutRepair.state.operations.find? 30).map (·.status) = some .failed ∧
    timedOutRepair.state.conditionOf 3 = some (.detached, .degraded, some 5) ∧
    (c.state.operations.find? 30).map (·.status) = some .succeeded ∧
    c.state.conditionOf 3 = some (.detached, .healthy, some 5) :=
  ⟨timedOutRepair.turns (List.replicate 3 (.pass 0, [])), timedOutRepair_run,
    Team.Run.turns (Team.turnsMeet_unguarded _ _), by decide +kernel, by decide +kernel,
    by decide +kernel, by decide +kernel⟩

/-- The end of the repair is not recorded. -/
theorem timedOutRepair_kept : ((timedOutRepair.turns
    [(.pass 0, []), (.pass 0, [{ fail := true }])]).state.operations.find? 30).map (·.status) =
      some .failed := by
  have hrun : OperationTeam.Run 30 (TimelyWork 30) timedOutRepair
      (timedOutRepair.turns [(.pass 0, []), (.pass 0, [{ fail := true }])]) :=
    Team.Run.turns (by decide +kernel)
  have h := terminal_operation_kept 30 repairWorld timedOutRepair _
    { id := 30, projectVolumeId := 9, serverId := some 5, kind := .repair, status := .failed
      error := "volume operation timed out", startedAt := some 0, failedAt := some (46 * 60 * second) }
    timedOutRepair_run (by decide +kernel) rfl hrun
  rfl

end Kindling
