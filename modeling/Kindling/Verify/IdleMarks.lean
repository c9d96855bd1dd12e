import Kindling.Autoscale.Idle

/-!
# When something is scaled to zero

The statements that mark a project or a preview deployment as scaled to zero do not look at its last
request again.
-/

namespace Kindling

open Fallible

/-! ## What a sweep knows -/

/-- A row that a sweep has selected, with the last request it had then. -/
structure IdleFact where
  target : IdleTarget
  lastRequest : Option Time
  idleSeconds : Int
  deriving DecidableEq, Repr

/-- What makes a selection right, and remains true. -/
def IdleFact.Holds (f : IdleFact) (w : IdleWorld) : Prop :=
  idleSince w.clock f.idleSeconds f.lastRequest = true

def projectFact (idleSeconds : Int) (p : Project) : IdleFact :=
  ⟨.project p.id, p.lastRequestAt, idleSeconds⟩

def previewFact (idleSeconds : Int) (d : Deployment) : IdleFact :=
  ⟨.preview d.id, d.previewLastRequestAt, idleSeconds⟩

/-- A sweep marks what it has selected. -/
@[simps] def idleSight : Typestate IdleOp (List IdleFact) where
  start := []
  allows
    | m, .projectMarkScaledToZero idle id => ∃ f ∈ m, f.target = .project id ∧ f.idleSeconds = idle
    | m, .deploymentPreviewMarkScaledToZero idle id =>
      ∃ f ∈ m, f.target = .preview id ∧ f.idleSeconds = idle
    | _, _ => True
  possible _ _ _ := True
  next
    | m, .projectsFindForIdleScaleDown idle, .ok projects => projects.map (projectFact idle) ++ m
    | m, .deploymentsFindPreviewForIdleScaleDown idle, .ok deps => deps.map (previewFact idle) ++ m
    | m, _, _ => m

section sweeps
variable {m : List IdleFact} {idleSeconds : Int}

theorem acquireLeader_follows (key : String) :
    idleSight.Follows (acquireLeader key) (fun _ m' => m' = m) m := by
  simp [acquireLeader]

theorem scaleProjectDown_follows (hp : projectFact idleSeconds p ∈ m) :
    idleSight.Follows (scaleProjectDown idleSeconds p) (fun _ m' => m' = m) m := by
  have hmark : ∃ f ∈ m, f.target = .project p.id ∧ f.idleSeconds = idleSeconds := ⟨_, hp, rfl, rfl⟩
  simp [scaleProjectDown, discard, hmark]

theorem sweepAsLeader_follows {select : IdleOp (Except Err (List α))}
    {round : α → Go IdleOp Unit} (fact : α → IdleFact) (hselect : ∀ m, idleSight.allows m select)
    (hnext : ∀ m rows, idleSight.next m select (.ok rows) = rows.map fact ++ m)
    (hround : ∀ x m, fact x ∈ m → idleSight.Follows (round x) (fun _ m' => m' = m) m) :
    idleSight.Follows (sweepAsLeader key select round) (fun _ _ => True) m := by
  refine (acquireLeader_follows _).andThen (fun acquired m' _ => ?_)
  cases acquired with
  | false => exact .pure trivial
  | true =>
    have hrows : idleSight.Follows (ofCall select)
        (Yields (fun rows m'' => ∀ x ∈ rows, fact x ∈ m'') fun _ => True) m' := by
      refine .ofCall_yields (hselect m') (fun rows _ x hx => ?_) fun _ _ => trivial
      rw [hnext]
      exact List.mem_append_left _ (List.mem_map_of_mem hx)
    refine hrows.attempt_bind fun r m'' hm => ?_
    cases r with
    | error e => exact .pure trivial
    | ok rows =>
      refine .any (.forEach (I := (· = m'')) ?_ rfl)
      intro x hx m₁ hm₁
      subst hm₁
      exact hround x m₁ (hm x hx)

theorem runIdleScaleDownOnce_follows :
    idleSight.Follows (runIdleScaleDownOnce idleSeconds) (fun _ _ => True) m := by
  apply sweepAsLeader_follows (projectFact idleSeconds)
  · exact fun _ => trivial
  · exact fun _ _ => rfl
  · exact fun _ _ => scaleProjectDown_follows

theorem scalePreviewDown_follows (hd : previewFact idleSeconds d ∈ m) :
    idleSight.Follows (scalePreviewDown idleSeconds d) (fun _ m' => m' = m) m := by
  have hmark : ∃ f ∈ m, f.target = .preview d.id ∧ f.idleSeconds = idleSeconds := ⟨_, hd, rfl, rfl⟩
  simp [scalePreviewDown, discard, hmark]

theorem runPreviewIdleScaleDownOnce_follows :
    idleSight.Follows (runPreviewIdleScaleDownOnce idleSeconds) (fun _ _ => True) m := by
  apply sweepAsLeader_follows (previewFact _)
  · exact fun _ => trivial
  · exact fun _ _ => rfl
  · exact fun _ _ => scalePreviewDown_follows

end sweeps

/-- Calls that mark nothing. -/
def IdleOp.Unmarking (β : Type) : IdleOp β → Prop
  | .projectMarkScaledToZero _ _ | .deploymentPreviewMarkScaledToZero _ _ => False
  | _ => True

attribute [local simp] IdleOp.Unmarking context discard

theorem recordRequestActivity_unmarking :
    Fallible.Uses IdleOp.Unmarking (recordRequestActivity lookup) := by
  unfold recordRequestActivity
  split <;> simp

@[simp] theorem clearScaledToZero_unmarking :
    Fallible.Uses IdleOp.Unmarking (clearScaledToZero lookup) := by
  unfold clearScaledToZero
  split <;> simp

theorem requestColdStart_unmarking : Fallible.Uses IdleOp.Unmarking (requestColdStart lookup) := by
  cases h : lookup.deploymentId <;> simp [requestColdStart, requestWake, h]

theorem unmarking_follows (h : p.Uses IdleOp.Unmarking) :
    idleSight.Admits p (fun _ _ => True) m := by
  refine .of_uses (h.mono fun _ op hop m => ?_) m
  cases op with
  | projectMarkScaledToZero | deploymentPreviewMarkScaledToZero => exact hop.elim
  | _ => trivial

theorem idleStarts_follows (hp : idleStarts i p) : idleSight.Admits p (fun _ _ => True) [] := by
  cases i with
  | projectSweep n =>
    obtain ⟨idleSeconds, rfl⟩ := hp
    exact runIdleScaleDownOnce_follows.quietly
  | previewSweep n =>
    obtain ⟨idleSeconds, rfl⟩ := hp
    exact runPreviewIdleScaleDownOnce_follows.quietly
  | request n =>
    obtain ⟨lookup, rfl⟩ := hp
    exact unmarking_follows recordRequestActivity_unmarking.quietly
  | coldStart n =>
    obtain ⟨lookup, rfl⟩ := hp
    exact unmarking_follows requestColdStart_unmarking.quietly
  | other n =>
    refine unmarking_follows (hp.mono fun _ op hop => ?_)
    cases op with
    | edit => trivial
    | _ => exact hop.elim

/-! ## One call -/

def IdleMark.AfterIdleTime (m : IdleMark) : Prop :=
  ∃ t, m.lastRequest = some t ∧ (t : Int) + m.idleSeconds * second ≤ m.markedAt

instance (m : IdleMark) : Decidable m.AfterIdleTime :=
  match h : m.lastRequest with
  | none => .isFalse fun ⟨_, ht, _⟩ => by rw [h] at ht; cases ht
  | some t => decidable_of_iff ((t : Int) + m.idleSeconds * second ≤ m.markedAt) <| by
      constructor
      · exact fun hle => ⟨t, h, hle⟩
      · rintro ⟨t', ht', hle⟩
        rw [h] at ht'
        cases ht'
        exact hle

section step
variable {w : IdleWorld} (a : Answer)

theorem IdleFact.Holds.mono {f : IdleFact} {w' : IdleWorld} (h : f.Holds w)
    (hclock : w.clock ≤ w'.clock) : f.Holds w' := by
  unfold IdleFact.Holds idleSince at *
  obtain ⟨t, ht, hlt⟩ := Option.any_eq_true _ _ |>.mp h
  rw [Option.any_eq_true]
  refine ⟨t, ht, ?_⟩
  rw [decide_eq_true_eq] at hlt ⊢
  have hclock := Int.ofNat_le.mpr hclock
  omega

theorem afterIdleTime_of_holds {f : IdleFact} (h : f.Holds w) (target : IdleTarget) :
    IdleMark.AfterIdleTime ⟨target, f.lastRequest, f.idleSeconds, w.clock⟩ := by
  obtain ⟨t, ht, hlt⟩ := Option.any_eq_true _ _ |>.mp h
  rw [decide_eq_true_eq] at hlt
  refine ⟨t, ht, ?_⟩
  change (t : Int) + f.idleSeconds * second ≤ w.clock
  omega

theorem onClock_cases {P : Except Err β × IdleWorld → Prop} {f : IdleWorld → Except Err β × IdleWorld}
    (hfail : P (.error (.of .unavailable), { w with clock := max w.clock a.now }))
    (hok : P (f { w with clock := max w.clock a.now })) : P (onClock a w f) := by
  unfold onClock
  split
  · exact hfail
  · exact hok

theorem onClock_clock {f : IdleWorld → Except Err β × IdleWorld} (hf : ∀ w, (f w).2.clock = w.clock) :
    (onClock a w f).2.clock = max w.clock a.now :=
  onClock_cases a (P := fun r => r.2.clock = max w.clock a.now) rfl (hf _)

theorem onClock_marks {f : IdleWorld → Except Err β × IdleWorld} (hf : ∀ w, (f w).2.marks = w.marks) :
    (onClock a w f).2.marks = w.marks :=
  onClock_cases a (P := fun r => r.2.marks = w.marks) rfl (hf _)

theorem IdleOp.clock_step (op : IdleOp β) : (op.step a w).2.clock = max w.clock a.now := by
  cases op with
  | projectMarkScaledToZero idle id =>
    refine onClock_clock a fun w => ?_
    unfold IdleWorld.projectMarkScaledToZero
    split <;> rfl
  | deploymentPreviewMarkScaledToZero idle id =>
    refine onClock_clock a fun w => ?_
    unfold IdleWorld.deploymentPreviewMarkScaledToZero
    split <;> rfl
  | deploymentRequestWake id =>
    refine onClock_clock a fun w => ?_
    unfold IdleWorld.deploymentRequestWake
    split <;> rfl
  | _ => exact onClock_clock a fun _ => rfl

theorem IdleOp.marks_step {op : IdleOp β} (h : op.Unmarking) : (op.step a w).2.marks = w.marks := by
  cases op with
  | projectMarkScaledToZero | deploymentPreviewMarkScaledToZero => exact h.elim
  | deploymentRequestWake id =>
    refine onClock_marks a fun w => ?_
    unfold IdleWorld.deploymentRequestWake
    split <;> rfl
  | _ => exact onClock_marks a fun _ => rfl

theorem projectMark_marks (idle : Int) (id : Id) {m : IdleMark}
    (hm : m ∈ ((IdleOp.projectMarkScaledToZero idle id).step a w).2.marks) :
    m ∈ w.marks ∨ ∃ p, w.db.projects.find? id = some p ∧
      m = ⟨.project id, p.lastRequestAt, idle, max w.clock a.now⟩ := by
  revert hm
  refine onClock_cases a (P := fun r => m ∈ r.2.marks → _) .inl ?_
  unfold IdleWorld.projectMarkScaledToZero
  split
  · exact .inl
  · next p hp =>
    intro hm
    rcases List.mem_cons.mp hm with hm | hm
    · exact .inr ⟨p, (Option.filter_eq_some_iff.mp hp).1, hm⟩
    · exact .inl hm

theorem previewMark_marks (idle : Int) (id : Id) {m : IdleMark}
    (hm : m ∈ ((IdleOp.deploymentPreviewMarkScaledToZero idle id).step a w).2.marks) :
    m ∈ w.marks ∨ ∃ d, w.db.deployments.find? id = some d ∧
      m = ⟨.preview id, d.previewLastRequestAt, idle, max w.clock a.now⟩ := by
  revert hm
  refine onClock_cases a (P := fun r => m ∈ r.2.marks → _) .inl ?_
  unfold IdleWorld.deploymentPreviewMarkScaledToZero
  split
  · exact .inl
  · next d hd =>
    intro hm
    rcases List.mem_cons.mp hm with hm | hm
    · exact .inr ⟨d, (Option.filter_eq_some_iff.mp hd).1, hm⟩
    · exact .inl hm

theorem idleSight_next_holds (op : IdleOp β) {m : List IdleFact} {f : IdleFact}
    (hf : f ∈ idleSight.next m op (op.step a w).1) : f ∈ m ∨ f.Holds (op.step a w).2 := by
  cases op with
  | projectsFindForIdleScaleDown idle =>
    revert hf
    refine onClock_cases a (P := fun r =>
      f ∈ idleSight.next m (.projectsFindForIdleScaleDown idle) r.1 → f ∈ m ∨ f.Holds r.2) .inl ?_
    intro hf
    rcases List.mem_append.mp hf with hf | hf
    · obtain ⟨p, hp, rfl⟩ := List.mem_map.mp hf
      have hsel := (Table.mem_selectBy.mp (List.mem_of_mem_take hp)).2
      exact .inr (Bool.and_eq_true _ _ |>.mp hsel).2
    · exact .inl hf
  | deploymentsFindPreviewForIdleScaleDown idle =>
    revert hf
    refine onClock_cases a (P := fun r =>
      f ∈ idleSight.next m (.deploymentsFindPreviewForIdleScaleDown idle) r.1 →
        f ∈ m ∨ f.Holds r.2) .inl ?_
    intro hf
    rcases List.mem_append.mp hf with hf | hf
    · obtain ⟨d, hd, rfl⟩ := List.mem_map.mp hf
      have hsel := (Table.mem_selectBy.mp (List.mem_of_mem_take hd)).2
      exact .inr (Bool.and_eq_true _ _ |>.mp hsel).2
    · exact .inl hf
  | _ => exact .inl hf

end step

/-- When a sweep marks a row, the last request of the row is the one it had when the sweep selected
it. -/
def NoRequestSince (_ : IdleActor) (log : List (Call IdleOp)) : Prog.Guard IdleOp Answer IdleWorld
  | _, .projectMarkScaledToZero _ id, _, w => ∀ f ∈ idleSight.after log, f.target = .project id →
      ∀ p ∈ w.db.projects.find? id, p.lastRequestAt = f.lastRequest
  | _, .deploymentPreviewMarkScaledToZero _ id, _, w =>
    ∀ f ∈ idleSight.after log, f.target = .preview id →
      ∀ d ∈ w.db.deployments.find? id, d.previewLastRequestAt = f.lastRequest
  | _, _, _, _ => True

theorem idle_marks_kept : Team.Keeps idleStarts (fun _ => id) NoRequestSince (fun _ => idleSight)
    (fun _ _ => True) fun M w => (∀ m ∈ w.marks, m.AfterIdleTime) ∧ ∀ i, ∀ f ∈ M i, f.Holds w := by
  refine .of_facts (fun i p hp => idleStarts_follows hp) (fun _ => rfl) ?_
    fun _ _ hS => ⟨hS, fun _ => id⟩
  intro i log w β op as hallows hguard hmarks hfacts
  have hclock : w.clock ≤ (Effect.exec op as w).state.clock :=
    (le_max_left _ _).trans (IdleOp.clock_step (as.headD default) op).ge
  have hsame : op.Unmarking → (Effect.exec op as w).state.marks = w.marks :=
    IdleOp.marks_step (as.headD default)
  refine ⟨trivial, ?_, fun f hf => hf.mono hclock, fun f hf => idleSight_next_holds _ op hf⟩
  have hlater : w.clock ≤ ({ w with clock := max w.clock (as.headD default).now } : IdleWorld).clock :=
    le_max_left _ _
  intro m hm
  cases op with
  | projectMarkScaledToZero idle id =>
    rcases projectMark_marks _ idle id hm with hold | ⟨p, hp, rfl⟩
    · exact hmarks m hold
    · obtain ⟨f, hf, htarget, rfl⟩ := hallows
      rw [hguard f hf htarget p hp]
      exact afterIdleTime_of_holds ((hfacts f hf).mono hlater) _
  | deploymentPreviewMarkScaledToZero idle id =>
    rcases previewMark_marks _ idle id hm with hold | ⟨d, hd, rfl⟩
    · exact hmarks m hold
    · obtain ⟨f, hf, htarget, rfl⟩ := hallows
      rw [hguard f hf htarget d hd]
      exact afterIdleTime_of_holds ((hfacts f hf).mono hlater) _
  | _ => exact hmarks m (hsame trivial ▸ hm)

/-- **Marks come after the idle time.** Let sweeps of any servers, requests and any other statements
interleave. In every run in which no request for a row is recorded between its selection by a sweep and
its mark by that sweep, every mark of a project or a preview deployment is made at least the idle time
after its last request. -/
theorem marks_after_idle_time (w : IdleWorld) (c : IdleTeam) (hw : w.marks = [])
    (hc : Team.Run idleStarts (fun _ => id) NoRequestSince (Team.idle () w) c) :
    ∀ m ∈ c.state.marks, m.AfterIdleTime := by
  refine (idle_marks_kept.run (idle_marks_kept.follow_idle () w) ⟨?_, ?_⟩ hc).2.1
  · intro m hm
    change m ∈ w.marks at hm
    rw [hw] at hm
    cases hm
  · intro i f hf
    cases hf

/-- Project 3 had its last request at time 0; a sweep at 400 seconds takes 300 seconds for idle. -/
def idleSampleWorld : IdleWorld where
  db := { projects := .single { id := 3, scaleToZeroEnabled := true, lastRequestAt := some 0 } }

/-- The sweep becomes the leader and selects project 3. -/
def sweepSelected : IdleTeam :=
  ((Team.idle () idleSampleWorld).begin (.projectSweep 0) (quietly (runIdleScaleDownOnce 300))).turns
    [(.projectSweep 0, []), (.projectSweep 0, []), (.projectSweep 0, [{ now := 400 * second }])]

theorem sweepSelected_run
    (hG : Team.TurnsMeet G ((Team.idle () idleSampleWorld).begin (.projectSweep 0)
      (quietly (runIdleScaleDownOnce 300))) [(.projectSweep 0, []), (.projectSweep 0, []),
      (.projectSweep 0, [{ now := 400 * second }])]) :
    Team.Run idleStarts (fun _ => id) G (.idle () idleSampleWorld) sweepSelected :=
  (Team.Run.begin (.projectSweep 0) _ rfl ⟨300, rfl⟩).trans (Team.Run.turns hG)

/-- A request is recorded after the selection, and the project is marked a second later. -/
def markedAfterRequest : IdleTeam :=
  (sweepSelected.begin (.request 0) (quietly (recordRequestActivity { projectId := some 3 }))).turns
    [(.request 0, [{ now := 401 * second }]), (.projectSweep 0, [{ now := 402 * second }])]

theorem request_does_not_prevent_mark : ∃ c : IdleTeam,
    Team.Run idleStarts (fun _ => id) (fun _ _ => Prog.unguarded) (Team.idle () idleSampleWorld) c ∧
    c.state.marks = [⟨.project 3, some (401 * second), 300, 402 * second⟩] ∧
    ¬∀ m ∈ c.state.marks, m.AfterIdleTime := by
  have hselected := sweepSelected_run (Team.turnsMeet_unguarded _ _)
  obtain ⟨r, hr⟩ : sweepSelected.AtRest (.request 0) := Team.atRest_of_resting (by decide +kernel)
  refine ⟨markedAfterRequest, hselected.trans ((Team.Run.begin (.request 0) _ hr ⟨_, rfl⟩).trans
    (Team.Run.turns (Team.turnsMeet_unguarded _ _))), ?_, ?_⟩ <;> decide +kernel

instance : Decidable (NoRequestSince i log β op as w) := by
  unfold NoRequestSince
  induction op using IdleOp.casesOn <;> infer_instance

/-- Without the request the mark comes 401 seconds after the last one. -/
theorem idle_project_marked : idleSampleWorld.marks = [] ∧ ∀ m ∈ (sweepSelected.turns
    [(.projectSweep 0, [{ now := 401 * second }])]).state.marks, m.AfterIdleTime := by
  refine ⟨rfl, marks_after_idle_time idleSampleWorld _ rfl
    ((sweepSelected_run ?_).trans (Team.Run.turns ?_))⟩
  · decide +kernel
  · decide +kernel

end Kindling
