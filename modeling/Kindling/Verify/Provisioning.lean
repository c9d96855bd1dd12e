import Kindling.Verify.Surge

/-!
# Creating instances from many servers

Servers that create the missing instances of a deployment at the same time do so in transactions
under one advisory lock, which take effect one after the other.
-/

namespace Kindling
open Fallible

def World.provisioned (w : World) (dep : Id) : Nat := countProvisionableInstances (w.instancesOf dep)

theorem provisioned_eq (w : World) (dep : Id) :
    w.provisioned dep = roleCount w.instances dep .active + roleCount w.instances dep .warmPool := by
  rw [World.provisioned, countProvisionableInstances_eq, World.countP_instancesOf,
    World.countP_instancesOf]

theorem provisionLoop_fills
    (h : (provisionLoop dep desired relisting fuel listing).outcome as w = ⟨.ok (), w', as'⟩) :
    (w'.provisioned dep : Int) = max (w.provisioned dep : Int) desired := by
  obtain ⟨hwarm, hactive⟩ := provisionLoop_ok h
  rw [provisioned_eq, provisioned_eq]
  omega

section runs
variable {ι κ : Type}

def provisionBodies (dep : Id) (desired : Int) (_ : ι) (body : Go Stmt Unit) : Prop :=
  ∃ loopBound, body = provisionLoop dep desired "list instances after create in tx" loopBound
    "list instances in tx"

/-- Each server calls `ensureInstanceCountUp` with the same target, as often as it likes. -/
def provisioners (lockKey : Id → κ) (dep : Id) (desired : Int) (i : ι)
    (p : Prog (SessionOp ι κ Err Stmt) (Except Err Unit)) : Prop :=
  ∃ loopBound, p = ensureInstanceCountUpIn lockKey i dep desired loopBound

variable {dep : Id} {desired : Int}

theorem fills_of_executes
    (h : Sessions.Executes (provisionBodies dep desired : ι → Go Stmt Unit → Prop) w w') :
    (w'.provisioned dep : Int) = max (w.provisioned dep : Int) desired := by
  obtain ⟨_, _, ⟨_, rfl⟩, _, _, hout⟩ := h
  exact provisionLoop_fills hout

/-- Bodies executed one after the other: after the first, nothing is missing. -/
theorem fills_of_trans
    (h : Relation.TransGen (Sessions.Executes (provisionBodies dep desired : ι → Go Stmt Unit → Prop)) w w')
    :
    (w'.provisioned dep : Int) = max (w.provisioned dep : Int) desired := by
  induction h with
  | single h => exact fills_of_executes h
  | tail _ h ih =>
    rw [fills_of_executes h]
    omega

variable [DecidableEq ι] [DecidableEq κ]

/-- **Instances created together.** Any number of servers call `ensureInstanceCountUp` on a deployment
with the same target, each as often as it likes; their calls interleave in any way in which a lock is
granted to one transaction at a time, statements, locks and commits may fail, and sessions may be
lost. Then the active and warm-pool instances that are committed are never fewer than at the start
and never more than the larger of their number at the start and the target, and they are exactly as
many once one of the calls has committed. -/
theorem provisioned_exactly (lockKey : Id → κ) (dep : Id) (desired : Int) (w : World)
    {c : Team ι (SessionOp ι κ Err Stmt) (Except Err Unit) (Sessions ι κ World)}
    (hrun : Team.Run (provisioners lockKey dep desired) Sessions.lost SessionOp.waiting
      (Team.idle (.ok ()) { committed := w }) c) :
    w.provisioned dep ≤ c.state.committed.provisioned dep ∧
    (c.state.committed.provisioned dep : Int) ≤ max (w.provisioned dep : Int) desired ∧
    ∀ i, (∃ x ∈ c.log i, Sessions.commits x = true) →
      (c.state.committed.provisioned dep : Int) = max (w.provisioned dep : Int) desired := by
  have hserial : Sessions.Serial (lockKey dep) (provisionBodies dep desired) (Err.wrap "begin tx")
      (Err.wrap "advisory lock") w c :=
    Sessions.serial (fun i p ⟨bound, hp⟩ => ⟨_, ⟨bound, rfl⟩, hp⟩) hrun
  have hfills : (c.state.committed.provisioned dep = w.provisioned dep) ∨
      (c.state.committed.provisioned dep : Int) = max (w.provisioned dep : Int) desired := by
    rcases Relation.reflTransGen_iff_eq_or_transGen.mp hserial.history with heq | htrans
    · exact .inl (by rw [heq])
    · exact .inr (fills_of_trans htrans)
  exact ⟨by omega, by omega, fun i hi => fills_of_trans (hserial.done i hi)⟩

end runs

/-- A deployment with one instance, of the three that it should have. -/
def oneInstance : World where
  instances := .single { id := 10, deploymentId := 1 }

/-- Two servers begin. The first lists, creates, lists, creates and lists, and commits; then the second
gets the lock. -/
def raceSchedule : List (Id × List (SessionAnswer Err Answer)) :=
  let ids (n : Id) : Answer := { uuids := fun _ => n }
  [(5, []), (6, []), (5, [])] ++ (List.range 5).map (fun n => (5, [{ answer := ids (20 + n) }])) ++
    List.replicate 4 (5, []) ++ List.replicate 4 (6, [])

def raceTeam : Team Id (SessionOp Id Id Err Stmt) (Except Err Unit) (Sessions Id Id World) :=
  (((Team.idle (.ok ()) { committed := oneInstance }).begin 5 (ensureInstanceCountUpIn id 5 1 3 9)).begin 6
    (ensureInstanceCountUpIn id 6 1 3 9)).turns raceSchedule

/-- Both servers commit, and there are three instances. -/
theorem two_servers_provision :
    (raceTeam.log 5).any Sessions.commits = true ∧ (raceTeam.log 6).any Sessions.commits = true ∧
      (raceTeam.state.committed.provisioned 1 : Int) = max (oneInstance.provisioned 1 : Int) 3 := by
  have hrun : Team.Run (provisioners id 1 3) Sessions.lost SessionOp.waiting
      (Team.idle (.ok ()) { committed := oneInstance }) raceTeam :=
    ((Team.Run.begin 5 _ rfl ⟨9, rfl⟩).trans (Team.Run.begin 6 _ rfl ⟨9, rfl⟩)).trans
      (Team.Run.turns (by decide +kernel))
  have hcommits : (raceTeam.log 6).any Sessions.commits = true := by decide +kernel
  refine ⟨by decide +kernel, hcommits, (provisioned_exactly id 1 3 oneInstance hrun).2.2 6 ?_⟩
  exact List.any_eq_true.mp hcommits

end Kindling
