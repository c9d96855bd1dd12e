import Kindling.Builder.Builds
import Kindling.Deploy.Executions
import Kindling.Lib.Sight

/-!
# Finished builds

A reconcile pass looks at the status of a build before it claims the lease, and the claim does not
look again.
-/

namespace Kindling

open Fallible

variable {w : World} {log : List (Call BuildOp)} {as : List Answer}

def World.buildStatus (w : World) (build : Id) : Option BuildStatus :=
  (w.builds.find? build).map (·.status)

def BuildUpdate.writes : BuildUpdate β → Option BuildStatus
  | markBuilding .. => some .building
  | markSuccessful .. => some .successful
  | markFailed _ => some .failed
  | resetForRetry _ => some .pending
  | claimLease .. | releaseLease .. => none

theorem BuildUpdate.change_status (s : BuildUpdate β) (now : Time) (b : Build) :
    (s.change now b).status = s.writes.getD b.status := by
  cases s <;> rfl

theorem BuildUpdate.find?_exec (s : BuildUpdate β) (now : Time) (t : BuildUpdate.Builds) (build : Id) :
    (s.exec now t).2.find? build = (t.find? build).map fun b =>
      if build = s.target ∧ s.applies b then s.change now b else b :=
  t.find?_updateKey _ _ _ (s.change_id now) _

theorem buildStatus_eq_some :
    w.buildStatus build = some t ↔ ∃ b, w.builds.find? build = some b ∧ b.status = t :=
  Option.map_eq_some_iff

def BuildOp.Overwrites (build : Id) (t : BuildStatus) : BuildOp β → Prop
  | .write s => s.target = build ∧ ∃ st ∈ s.writes, st ≠ t
  | _ => False

theorem buildStatus_step (op : BuildOp β) (a : Answer) (h : w.buildStatus build = some t)
    (hop : op.Overwrites build t → a.fail = true) :
    (op.step a w).2.buildStatus build = some t := by
  obtain ⟨b, hb, ht⟩ := buildStatus_eq_some.mp h
  cases op with
  | imageFindOrCreate image =>
    dsimp only [BuildOp.step, World.findOrCreateImage]
    split
    · exact h
    split
    · exact h
    · exact h
  | create row =>
    dsimp only [BuildOp.step, onTable]
    split
    · exact h
    · exact buildStatus_eq_some.mpr ⟨b, find?_inserting hb, ht⟩
  | write s =>
    dsimp only [BuildOp.step, onTable]
    split
    · exact h
    next hfail =>
    refine buildStatus_eq_some.mpr ⟨_, by rw [World.withBuilds_builds, s.find?_exec, hb,
      Option.map_some], ?_⟩
    split
    · next happlies =>
      rw [s.change_status, ht]
      cases hst : s.writes with
      | none => rfl
      | some st =>
        by_contra hne
        exact hfail (hop ⟨happlies.1.symm, st, hst, hne⟩)
    · exact ht
  | _ => exact h

def BuildUpdate.reliesOnStatus : BuildUpdate β → Bool
  | claimLease .. | markBuilding .. | markSuccessful .. | markFailed _ => true
  | releaseLease .. | resetForRetry _ => false

def BuildOp.relies (build : Id) : BuildOp β → Option Id
  | .write s => if s.reliesOnStatus && s.target == build then some build else none
  | _ => none

def BuildOp.tells : BuildOp β → β → Sight Id BuildStatus
  | .query (.buildFirstByID _), .ok row | .write (.claimLease ..), .ok row =>
    some (row.id, row.status)
  | .write s, .ok _ => s.writes.map fun st => (s.target, st)
  | _, _ => none

/-- The rows that come back are those asked for; and the claim of the build finds it as the pass has
seen it. -/
def BuildOp.returns (build : Id) (m : Sight Id BuildStatus) : BuildOp β → β → Prop
  | .query (.buildFirstByID id), .ok row => row.id = id
  | .write (.claimLease id _), .ok row => row.id = id ∧ (id = build → m = some (build, row.status))
  | _, _ => True

def buildWatch (build : Id) : Watch BuildOp Id BuildStatus where
  ended := BuildStatus.ended
  relies op := op.relies build
  tells := BuildOp.tells

def BuildOp.executing (build : Id) (e : Bool) : BuildOp β → β → Bool
  | .write (.claimLease id _), .ok _ => id == build || e
  | .write (.releaseLease ..), _ => false
  | _, _ => e

@[simps!] def buildSight (build : Id) : Typestate BuildOp (Sight Id BuildStatus) :=
  (buildWatch build).typestate fun m op v => op.returns build m v

section programs
variable {build : Id} {m : Sight Id BuildStatus} {b : Build}

/-- If the build is the one in question, it has been seen before its end. -/
def LiveBuild (build id : Id) (m : Sight Id BuildStatus) : Prop :=
  id = build → ∃ st, m = some (build, st) ∧ st.ended = false

attribute [local simp] buildWatch Watch.Live BuildOp.relies.eq_def BuildOp.tells.eq_def BuildOp.returns.eq_def
  BuildUpdate.reliesOnStatus BuildUpdate.target BuildUpdate.writes LiveBuild Yields Except.mapError
  context discard buildUpdate buildQuery builderCall

theorem markBuilding_follows (hm : LiveBuild build b.id m) :
    (buildSight build).Follows (markBuilding b) (fun _ m' => LiveBuild build b.id m') m := by
  simp_all [markBuilding, BuildStatus.ended]

theorem withBuildLease_follows (hm : LiveBuild build b.id m) :
    (buildSight build).Follows (withBuildLease builder b) (fun _ _ => True) m := by
  refine .andThen (markBuilding_follows hm) fun _ m₁ hm₁ => ?_
  unfold LiveBuild at hm₁
  have hfail : (buildSight build).Follows (buildUpdate (.markFailed b.id)) (fun _ _ => True) m₁ := by
    simp +contextual [hm₁]
  have hdone image : (buildSight build).Follows (buildUpdate (.markSuccessful b.id image))
      (fun _ _ => True) m₁ := by
    simp +contextual [hm₁]
  cases h : b.serviceId <;>
    simp [fetchBuildService, Builder.pullConfig, h, hfail, hdone, -buildUpdate]

theorem reconcileBuild_follows (builder : Builder) (id : Id) :
    (buildSight build).Follows (builder.reconcileBuild id) (fun _ _ => True) none := by
  simp [Builder.reconcileBuild]
  rintro b rfl hlive
  have hstuck : (buildSight build).Follows (isStuck b) (fun _ m' => m' = some (b.id, b.status))
      (some (b.id, b.status)) := by
    unfold isStuck
    split <;> simp
  refine hstuck.mono fun r m' hm => ?_
  subst hm
  cases r with
  | error e => trivial
  | ok stuck =>
    simp +contextual [hlive]
    intro _ row hid hseen
    refine .deferring (withBuildLease_follows fun h => ?_) (by simp)
    obtain rfl := hid.symm.trans h
    exact ⟨row.status, rfl, hseen rfl ▸ hlive⟩

/-- Calls that rely on no status. -/
def BuildOp.Careless (build : Id) (β : Type) (op : BuildOp β) : Prop := op.relies build = none

theorem runBuildRecoveryOnce_careless : Uses (BuildOp.Careless build) runBuildRecoveryOnce := by
  simp [runBuildRecoveryOnce, BuildOp.Careless]

theorem buildStarts_follow (hp : buildStarts i p) :
    (buildSight build).Admits p (fun _ _ => True) none := by
  cases i with
  | pass server id =>
    obtain ⟨builder, -, rfl⟩ := hp
    exact reconcileBuild_follows builder id
  | recovery n =>
    obtain rfl := hp
    exact Watch.admits_of_uses (W := buildWatch build) runBuildRecoveryOnce_careless none
  | deployer n =>
    obtain ⟨b, rfl⟩ := hp
    exact Watch.admits_of_uses (discard_uses (.ofCall rfl)) none
  | other n =>
    obtain ⟨w, rfl⟩ := hp
    exact Watch.admits_of_uses (Uses.ofTotal rfl) none

end programs

/-! ## When a finished build stays finished -/

/-- The build is claimed and marked only while it is as the pass has seen it, or when the statement
fails, does not match the row, or writes the status that is there. -/
def TimelyBuilds (build : Id) (log : List (Call BuildOp)) :
    Prog.Guard BuildOp Answer World := fun _ op as w =>
  match op with
  | .write s => ∀ row ∈ w.builds.find? build, s.reliesOnStatus = true → s.target = build →
    (as.headD default).fail = true ∨ s.applies row = false ∨ s.writes = some row.status ∨
      (buildSight build).after log = some (build, row.status)
  | _ => True

instance : Decidable (TimelyBuilds build log β op as w) := by
  unfold TimelyBuilds
  induction op using BuildOp.casesOn <;> infer_instance

def BuildOp.Resets (build : Id) : BuildOp β → Prop
  | .write (.resetForRetry id) => id = build
  | _ => False

instance (op : BuildOp β) : Decidable (op.Resets build) := by
  induction op using BuildOp.casesOn with
  | write s => cases s <;> first | exact instDecidableFalse | exact inferInstanceAs (Decidable (_ = _))
  | _ => exact instDecidableFalse

def UnresetBuilds (build : Id) (log : List (Call BuildOp)) :
    Prog.Guard BuildOp Answer World := fun β op as w =>
  TimelyBuilds build log β op as w ∧ (op.Resets build → (as.headD default).fail = true)

instance : Decidable (UnresetBuilds build log β op as w) := inferInstanceAs (Decidable (_ ∧ _))

theorem TimelyBuilds.returns (h : TimelyBuilds build log β op as w) :
    op.returns build ((buildSight build).after log) (op.step (as.headD default) w).1 := by
  cases op with
  | query q =>
    cases q with
    | buildFirstByID id =>
      dsimp only [BuildOp.step]
      split
      · trivial
      · cases hrow : Query.eval (as.headD default).now w (.buildFirstByID id) with
        | error e => trivial
        | ok row => exact Table.find?_key (one_ok hrow)
    | _ => trivial
  | write s =>
    cases s with
    | claimLease id server =>
      dsimp only [BuildOp.step, onTable]
      split
      · trivial
      next hfail =>
      cases hrow : ((BuildUpdate.claimLease id server).exec (as.headD default).now w.builds).1 with
      | error e => trivial
      | ok row =>
        obtain ⟨b, hb, happlies, rfl, hid⟩ := Table.updateKey_fst_eq_some (one_ok hrow)
        refine ⟨hid, ?_⟩
        rintro rfl
        rcases h b hb rfl rfl with hf | hnot | hsame | hseen
        · exact absurd hf hfail
        · rw [happlies] at hnot
          cases hnot
        · cases hsame
        · exact hseen
    | _ => trivial
  | _ => trivial

theorem TimelyBuilds.ineffective (h : TimelyBuilds build log _ (.write s) as w)
    (hallows : (buildSight build).allows ((buildSight build).after log) (.write s))
    (hrow : w.builds.find? build = some row) (hended : row.status.ended = true)
    (hs : s.reliesOnStatus = true) (htarget : s.target = build) :
    (as.headD default).fail = true ∨ s.applies row = false ∨ s.writes = some row.status := by
  rcases h row hrow hs htarget with hfail | hnot | hsame | hseen
  · exact .inl hfail
  · exact .inr (.inl hnot)
  · exact .inr (.inr hsame)
  · have hrelies : build ∈ (buildWatch build).relies (.write s) := by
      simp [buildWatch, BuildOp.relies, hs, htarget]
    have hlive : row.status.ended = false := Watch.ended_of_allows hallows hrelies hseen
    rw [hended] at hlive
    cases hlive

theorem TimelyBuilds.not_claimed {build id server : Id} {row claimed : Build}
    (h : TimelyBuilds build log _ (.write (.claimLease id server)) as w)
    (hallows : (buildSight build).allows ((buildSight build).after log)
      (.write (.claimLease id server))) (hrow : w.builds.find? build = some row)
    (hended : row.status.ended = true) (hid : id = build) :
    ((BuildOp.write (.claimLease id server)).step (as.headD default) w).1 ≠ .ok claimed := by
  subst hid
  intro hclaimed
  dsimp only [BuildOp.step, onTable] at hclaimed
  split at hclaimed
  · cases hclaimed
  next hfail =>
  obtain ⟨b, hb, happlies, -, -⟩ := Table.updateKey_fst_eq_some (one_ok hclaimed)
  obtain rfl : b = row := Option.some.inj (hb.symm.trans hrow)
  rcases h.ineffective hallows hrow hended rfl rfl with hf | hnot | hsame
  · exact hfail hf
  · rw [happlies] at hnot
    cases hnot
  · cases hsame

/-- What a program has seen of the build, and whether it is executing it. -/
def buildState (build : Id) : Typestate BuildOp (Sight Id BuildStatus × Bool) :=
  (buildSight build).observing false (BuildOp.executing build)

/-- The pass of a server over the build has claimed the lease and not yet released it. -/
def BuildTeam.executing (c : BuildTeam) (server build : Id) : Bool :=
  ((buildState build).after (c.log (.pass server build))).2

section runs
variable {build : Id} {t : BuildStatus} {E : Id → Prop}

theorem buildState_fst : ((buildState build).after log).1 = (buildSight build).after log :=
  Typestate.after_observing log

theorem sights_of_builds : Team.Keeps buildStarts (fun _ w => w) (fun _ => TimelyBuilds build)
    (fun _ => buildState build) (fun _ _ => True) fun _ _ => True where
  starts i p hp := (buildStarts_follow hp).observing false
  rest _ := trivial
  call M i log w β op as hM _ hguard _ := by
    refine ⟨?_, trivial⟩
    have := hguard.returns
    rwa [← buildState_fst, ← hM] at this
  start _ _ _ _ _ := trivial
  crash _ _ _ _ := trivial

structure Finished (build : Id) (t : BuildStatus) (E : Id → Prop)
    (M : BuildActor → Sight Id BuildStatus × Bool) (w : World) : Prop where
  status : w.buildStatus build = some t
  executing : ∀ server, (M (.pass server build)).2 = true → E server

theorem Finished.restart (h : Finished build t E M w) (i : BuildActor) :
    Finished build t E (Function.update M i (buildState build).start) w := by
  refine ⟨h.status, fun server he => ?_⟩
  by_cases hi : .pass server build = i
  · rw [hi, Function.update_self] at he
    cases he
  · rw [Function.update_of_ne hi] at he
    exact h.executing server he

theorem UnresetBuilds.status (h : UnresetBuilds build log β op as w) (ht : t.ended = true)
    (hallows : (buildSight build).allows ((buildSight build).after log) op)
    (hw : w.buildStatus build = some t) :
    (op.step (as.headD default) w).2.buildStatus build = some t := by
  refine buildStatus_step op _ hw fun hop => ?_
  obtain ⟨row, hrow, rfl⟩ := buildStatus_eq_some.mp hw
  cases op with
  | write s =>
    obtain ⟨htarget, st, hst, hne⟩ := hop
    have hmark : s.reliesOnStatus = true → s.applies row = true → (as.headD default).fail = true := by
      intro hs happlies
      rcases h.1.ineffective hallows hrow ht hs htarget with hfail | hnot | hsame
      · exact hfail
      · rw [happlies] at hnot
        cases hnot
      · exact absurd (Option.some.inj (hst.symm.trans hsame)) hne
    cases s with
    | claimLease | releaseLease => cases hst
    | markBuilding | markSuccessful | markFailed => exact hmark rfl rfl
    | resetForRetry id => exact h.2 htarget
  | _ => exact hop.elim

theorem UnresetBuilds.executing (h : UnresetBuilds build log β op as w) (ht : t.ended = true)
    (hallows : (buildSight build).allows ((buildSight build).after log) op)
    (hw : w.buildStatus build = some t)
    (he : op.executing build e (op.step (as.headD default) w).1 = true) : e = true := by
  obtain ⟨row, hrow, rfl⟩ := buildStatus_eq_some.mp hw
  cases op with
  | write s =>
    cases s with
    | releaseLease => cases he
    | claimLease id server =>
      cases hv : ((BuildOp.write (.claimLease id server)).step (as.headD default) w).1 with
      | error e =>
        rw [hv] at he
        exact he
      | ok claimed =>
        rw [hv] at he
        by_cases hid : id = build
        · exact absurd hv (h.1.not_claimed hallows hrow ht hid)
        · simpa [BuildOp.executing, hid] using he
    | _ => exact he
  | _ => exact he

theorem finished_kept (ht : t.ended = true) :
    Team.Keeps buildStarts (fun _ w => w) (fun _ => UnresetBuilds build) (fun _ => buildState build)
      (fun _ _ => True) (Finished build t E) where
  starts i p hp := (buildStarts_follow hp).observing false
  rest _ := trivial
  call M i log w β op as hM hallows hguard hI := by
    have hseen : (M i).1 = (buildSight build).after log := by rw [hM, buildState_fst]
    have hallows' : (buildSight build).allows ((buildSight build).after log) op := hseen ▸ hallows
    refine ⟨?_, hguard.status ht hallows' hI.status, fun server he => ?_⟩
    · have := hguard.1.returns
      rwa [← hseen] at this
    · by_cases hi : .pass server build = i
      · subst hi
        rw [Function.update_self] at he
        exact hI.executing server (hguard.executing ht hallows' hI.status he)
      · rw [Function.update_of_ne hi] at he
        exact hI.executing server he
  start M i w _ hI := hI.restart i
  crash M i w hI := hI.restart i

end runs

/-- **Finished builds.** Let passes of any number of servers, recovery sweeps, deployment reconcilers
and everything else interleave, from any state, such that the build is claimed and marked in time.
Once it is successful or failed, it keeps its status for as long as it is not reset, and no server
executes it that was not executing it already. -/
theorem finished_build_kept (w : World) (c c' : BuildTeam) (build : Id) (t : BuildStatus)
    (hc : Team.Run buildStarts (fun _ w => w) (fun _ => TimelyBuilds build)
      (Team.idle (.ok ()) w) c)
    (hbuild : c.state.buildStatus build = some t) (ht : t.ended = true)
    (hc' : Team.Run buildStarts (fun _ w => w) (fun _ => UnresetBuilds build) c c') :
    c'.state.buildStatus build = some t ∧
      ∀ server, c'.executing server build = true → c.executing server build = true := by
  obtain ⟨hfollow, -⟩ := sights_of_builds.run (sights_of_builds.follow_idle _ w) trivial hc
  have hfinished : Finished build t (fun server => c.executing server build = true)
      (c.knows fun _ => buildState build) c.state := ⟨hbuild, fun _ he => he⟩
  obtain ⟨-, hkept⟩ := (finished_kept ht).run hfollow hfinished hc'
  exact ⟨hkept.status, hkept.executing⟩

def pendingBuildWorld : World where
  projects := .single { id := 1, githubRepository := "acme/shop" }
  builds := .single { id := 7, projectId := 1, githubCommit := "0a1b2c3d4e5f60" }

/-- Passes of servers 5 and 6 over the build, and a recovery sweep. -/
def buildRace : BuildTeam :=
  (((Team.idle (.ok ()) pendingBuildWorld).begin (.pass 5 7) (Builder.reconcileBuild ⟨5, true⟩ 7)).begin
    (.pass 6 7) (Builder.reconcileBuild ⟨6, true⟩ 7)).begin (.recovery 0) runBuildRecoveryOnce

theorem buildRace_run :
    Team.Run buildStarts (fun _ w => w) G (.idle (.ok ()) pendingBuildWorld) buildRace :=
  (Team.Run.begin (.pass 5 7) _ rfl ⟨⟨5, true⟩, rfl, rfl⟩).trans
    ((Team.Run.begin (.pass 6 7) _ rfl ⟨⟨6, true⟩, rfl, rfl⟩).trans
      (Team.Run.begin (BuildActor.recovery 0) _ rfl rfl))

/-- Server 5 has found the build pending; server 6 builds it. -/
def builtElsewhere : BuildTeam :=
  buildRace.turns ((.pass 5 7, []) :: List.replicate 13 (.pass 6 7, []))

/-- Server 5 then gets the lease of the successful build, builds it once more, and fails. -/
theorem finished_build_executed_again : ∃ c : BuildTeam,
    Team.Run buildStarts (fun _ w => w) (fun _ _ => Prog.unguarded)
      (Team.idle (.ok ()) pendingBuildWorld) builtElsewhere ∧
    Team.Run buildStarts (fun _ w => w) (fun _ _ => Prog.unguarded) builtElsewhere c ∧
    builtElsewhere.state.buildStatus 7 = some .successful ∧
    c.state.buildStatus 7 = some .failed ∧
    builtElsewhere.executing 5 7 = false ∧ c.executing 5 7 = true :=
  ⟨builtElsewhere.turns (List.replicate 6 (.pass 5 7, []) ++
      [(.pass 5 7, [{ fail := true }]), (.pass 5 7, [])]),
    buildRace_run.trans (Team.Run.turns (Team.turnsMeet_unguarded _ _)),
    Team.Run.turns (Team.turnsMeet_unguarded _ _), by decide +kernel, by decide +kernel,
    by decide +kernel, by decide +kernel⟩

/-- Server 6 builds it before server 5 looks. -/
def builtFirst : BuildTeam := buildRace.turns (List.replicate 13 (.pass 6 7, []))

/-- Server 5 finds the build finished, and so does the recovery sweep. -/
def builtOnce : BuildTeam :=
  builtFirst.turns ((.pass 5 7, []) :: List.replicate 4 (.recovery 0, []))

theorem builtOnce_finished :
    builtFirst.state.buildStatus 7 = some .successful ∧
    builtOnce.state.buildStatus 7 = some .successful ∧
    ∀ server, builtOnce.executing server 7 = true → builtFirst.executing server 7 = true :=
  ⟨by decide +kernel, finished_build_kept pendingBuildWorld builtFirst builtOnce 7 .successful
      (buildRace_run.trans (Team.Run.turns (by decide +kernel))) (by decide +kernel) rfl
      (Team.Run.turns (by decide +kernel))⟩

end Kindling
