import Kindling.Rpc.Deployments

/-!
# What the views of deployments show

The list for an organization makes its rows into deployments again before it shows them, without
their services. The log stream asks for lines later than the latest it has sent.
-/

namespace Kindling

theorem buildStatus_of_mem {w : World} (h : row ∈ w.deploymentFindRecentWithProjectForOrg limit orgId) :
    row.buildStatus = (row.buildId.bind w.builds.find?).map (·.status) := by
  obtain ⟨d, -, hd⟩ := List.mem_filterMap.mp (List.mem_of_mem_take h)
  obtain ⟨p, -, rfl⟩ := Option.map_eq_some_iff.mp hd
  rfl

theorem listedStatus_eq_iff {find : Id → Option Build} (buildId : Option Id) :
    (buildId.map fun _ => ((buildId.bind find).map (·.status)).getD .pending) =
      (buildId.bind find).map (·.status) ↔ ∀ b ∈ buildId, (find b).isSome := by
  cases buildId with
  | none => simp
  | some b => cases hb : find b <;> simp [hb]

/-- Every row of the list agrees with the view of its deployment just when no deployment in the list
has a service, and the builds they name are there. -/
theorem list_agrees_with_view_iff (w : World) (limit : Nat) (orgId : Id) :
    (∀ row ∈ w.deploymentFindRecentWithProjectForOrg limit orgId,
      (w.listRowForOrgToOutCtx row).out = w.toOutCtx row.toDeployment) ↔
    ∀ row ∈ w.deploymentFindRecentWithProjectForOrg limit orgId,
      row.serviceId = none ∧ ∀ b ∈ row.buildId, (w.builds.find? b).isSome := by
  refine forall₂_congr fun row hrow => ?_
  have hview : w.toOutCtx row.toDeployment = w.deploymentOut row.toDeployment row.buildStatus := by
    rw [buildStatus_of_mem hrow]
    rfl
  rw [hview, ← listedStatus_eq_iff, ← buildStatus_of_mem hrow]
  constructor
  · intro h
    exact ⟨(congrArg DeploymentOut.serviceId h).symm, congrArg DeploymentOut.buildStatus h⟩
  · rintro ⟨hservice, hstatus⟩
    have hdep : { row.toDeployment with serviceId := none } = row.toDeployment := by rw [← hservice]
    exact congrArg₂ w.deploymentOut hdep hstatus

def listedWorld : World where
  projects := .single { id := 1 }
  services := .single { id := 2, projectId := 1, desiredInstanceCount := 3 }
  deployments := .single { id := 10, projectId := 1, serviceId := some 2 }

/-- The deployment of a service is listed without it, and with the replica count of the project. -/
theorem listed_without_service :
    (listedWorld.deploymentFindRecentWithProjectForOrg 50 0).map (fun row =>
      ((listedWorld.listRowForOrgToOutCtx row).out.serviceId,
        (listedWorld.listRowForOrgToOutCtx row).out.desiredInstanceCount,
        (listedWorld.toOutCtx row.toDeployment).serviceId,
        (listedWorld.toOutCtx row.toDeployment).desiredInstanceCount)) =
      [(none, 1, some 2, 3)] := by decide +kernel

/-! ## The log stream -/

/-- A line becomes visible, or the stream makes a round. -/
inductive StreamEvent
  | insert (line : BuildLog)
  | tick (tick : StreamTick)

/-- The lines that are visible after the events; an id is given once. -/
def visible (t : BuildLogTable) : List StreamEvent → BuildLogTable
  | [] => t
  | .insert l :: es => visible ((t.insert? l).getD t) es
  | .tick _ :: es => visible t es

def LogStream.run (s : LogStream) (t : BuildLogTable) : List StreamEvent → LogStream
  | [] => s
  | .insert l :: es => s.run ((t.insert? l).getD t) es
  | .tick tick :: es => (s.poll t tick).run t es

namespace StreamTick

/-- The round goes as far as the query of the logs of the build. -/
def Reads (tick : StreamTick) (b : Id) : Prop :=
  tick.found ∧ tick.connected ∧ tick.fetched ∧ some b = tick.buildId

instance : Decidable (Reads tick b) := inferInstanceAs (Decidable (_ ∧ _))

def GoesOn (tick : StreamTick) : Prop := tick.found ∧ tick.connected ∧ terminalPhase tick.phase = false

instance : Decidable (GoesOn tick) := inferInstanceAs (Decidable (_ ∧ _))

def sees (tick : StreamTick) (t : BuildLogTable) : List BuildLog :=
  t.rows.filter fun l => decide (tick.Reads l.buildId)

end StreamTick

/-- In some round the line is there and later than every line that was there at an earlier round;
`seen` are the lines that have been there. -/
def InTime (l : BuildLog) (t : BuildLogTable) (seen : List BuildLog) : List StreamEvent → Prop
  | [] => False
  | .insert x :: es => InTime l ((t.insert? x).getD t) seen es
  | .tick tick :: es =>
    (l ∈ tick.sees t ∧ ∀ x ∈ seen, x.createdAt < l.createdAt) ∨
      (tick.GoesOn ∧ InTime l t (seen ++ tick.sees t) es)

instance InTime.decidable (l : BuildLog) : (t : BuildLogTable) → (seen : List BuildLog) →
    (es : List StreamEvent) → Decidable (InTime l t seen es)
  | _, _, [] => .isFalse id
  | t, seen, .insert x :: es => InTime.decidable l ((t.insert? x).getD t) seen es
  | t, seen, .tick tick :: es =>
    have := InTime.decidable l t (seen ++ tick.sees t) es
    inferInstanceAs (Decidable (_ ∨ _))

/-- The time that the stream keeps is that of the latest line it has seen. -/
structure Tracks (seen : List BuildLog) (s : LogStream) : Prop where
  cursor : ∀ ts, (∀ x ∈ seen, x.createdAt < ts) ↔ ∀ c ∈ s.lastLogTS, c < ts
  sent : ∀ x ∈ s.delivered, x ∈ seen
  once : s.delivered.Nodup

theorem tracks_start : Tracks [] {} := ⟨by simp, by simp, by simp⟩

theorem LogStream.newLogs_sorted (s : LogStream) (t : BuildLogTable) (tick : StreamTick) :
    (s.newLogs t tick).Nodup ∧ (s.newLogs t tick).Pairwise fun x y => x.createdAt ≤ y.createdAt := by
  unfold LogStream.newLogs
  split
  · split <;> simp [BuildLogTable.afterCreatedAt, Table.selectBy_nodup, Table.selectBy_pairwise]
  · split <;> simp [BuildLogTable.byBuildID, Table.selectBy_nodup, Table.selectBy_pairwise]
  · simp

theorem LogStream.le_getLast {s : LogStream} (h : (s.newLogs t tick).getLast? = some l) :
    ∀ x ∈ s.newLogs t tick, x.createdAt ≤ l.createdAt := by
  intro x hx
  have hsorted := (s.newLogs_sorted t tick).2
  obtain ⟨pre, hpre⟩ := List.getLast?_eq_some_iff.mp h
  rw [hpre] at hsorted hx
  rcases List.mem_append.mp hx with hx | hx
  · exact (List.pairwise_append.mp hsorted).2.2 x hx l (by simp)
  · rw [List.mem_singleton.mp hx]

theorem LogStream.poll_live (s : LogStream) (t : BuildLogTable) (h : s.live = true) :
    (s.poll t tick).live = true ↔ tick.GoesOn := by
  unfold LogStream.poll StreamTick.GoesOn
  cases tick.found <;> cases tick.connected <;> simp [h]

/-- A round adds the lines that are there and later than those it has seen. -/
theorem Tracks.mem_newLogs (h : Tracks seen s) (hfound : tick.found) (hconn : tick.connected) :
    l ∈ s.newLogs t tick ↔ l ∈ tick.sees t ∧ ∀ x ∈ seen, x.createdAt < l.createdAt := by
  rw [h.cursor]
  unfold LogStream.newLogs
  cases hq : tick.fetched <;> cases hb : tick.buildId <;> cases s.lastLogTS <;>
    simp [StreamTick.sees, StreamTick.Reads, hfound, hconn, hq, hb, BuildLogTable.afterCreatedAt,
      BuildLogTable.byBuildID, Table.mem_selectBy, Table.mem_def, and_assoc]

theorem Tracks.poll (h : Tracks seen s) (hs : s.live = true) (t : BuildLogTable) (tick : StreamTick) :
    Tracks (seen ++ tick.sees t) (s.poll t tick) ∧ ∀ l, l ∈ (s.poll t tick).delivered ↔
      l ∈ s.delivered ∨ l ∈ tick.sees t ∧ ∀ x ∈ seen, x.createdAt < l.createdAt := by
  by_cases hread : tick.found ∧ tick.connected
  case neg =>
    -- the stream ends, with the lines and the time it had
    have hsees : tick.sees t = [] := by
      simp only [StreamTick.sees, List.filter_eq_nil_iff, decide_eq_true_eq]
      exact fun l _ hl => hread ⟨hl.1, hl.2.1⟩
    have hpoll : s.poll t tick = { s with live := false } := by
      unfold LogStream.poll
      rw [hs, if_neg (by decide), if_pos (by simpa using Decidable.not_and_iff_or_not.mp hread)]
    rw [hsees, hpoll, List.append_nil]
    exact ⟨⟨h.cursor, h.sent, h.once⟩, by simp⟩
  obtain ⟨hfound, hconn⟩ := hread
  have hnew : ∀ l, l ∈ s.newLogs t tick ↔ _ := fun l => h.mem_newLogs hfound hconn
  unfold LogStream.poll
  rw [hs, hfound, hconn]
  refine ⟨⟨fun ts => ?_, fun x hx => ?_, ?_⟩, fun l => by simp [hnew]⟩
  · cases hlast : (s.newLogs t tick).getLast? with
    | none =>
      -- no line is later than the latest seen, so its time stands
      have hnil : ∀ l ∈ tick.sees t, ∃ x ∈ seen, l.createdAt ≤ x.createdAt := by
        intro l hl
        by_contra hlt
        push Not at hlt
        have hmem := (hnew l).mpr ⟨hl, hlt⟩
        rw [List.getLast?_eq_none_iff.mp hlast] at hmem
        cases hmem
      refine .trans ?_ (h.cursor ts)
      constructor
      · exact fun hall x hx => hall x (List.mem_append_left _ hx)
      · intro hall x hx
        rcases List.mem_append.mp hx with hx | hx
        · exact hall x hx
        · obtain ⟨y, hy, hle⟩ := hnil x hx
          exact hle.trans_lt (hall y hy)
    | some m =>
      have hm := (hnew m).mp (List.mem_of_getLast? hlast)
      constructor
      · rintro hall c ⟨⟩
        exact hall m (List.mem_append_right _ hm.1)
      · intro hc x hx
        have hmts : m.createdAt < ts := hc _ rfl
        rcases List.mem_append.mp hx with hx | hx
        · exact (hm.2 x hx).trans hmts
        by_cases hxnew : ∀ y ∈ seen, y.createdAt < x.createdAt
        · exact (LogStream.le_getLast hlast x ((hnew x).mpr ⟨hx, hxnew⟩)).trans_lt hmts
        · push Not at hxnew
          obtain ⟨y, hy, hle⟩ := hxnew
          exact hle.trans_lt ((hm.2 y hy).trans hmts)
  · rcases List.mem_append.mp hx with hx | hx
    · exact List.mem_append_left _ (h.sent x hx)
    · exact List.mem_append_right _ ((hnew x).mp hx).1
  · refine List.nodup_append.mpr ⟨h.once, (s.newLogs_sorted t tick).1, ?_⟩
    rintro x hx _ hx' rfl
    exact Nat.lt_irrefl _ (((hnew x).mp hx').2 x (h.sent x hx))

theorem LogStream.run_ended (s : LogStream) (t : BuildLogTable) (es : List StreamEvent)
    (h : s.live = false) : s.run t es = s := by
  induction es generalizing t with
  | nil => rfl
  | cons e es ih =>
    cases e with
    | insert l => exact ih _
    | tick tick =>
      have hpoll : s.poll t tick = s := by simp [LogStream.poll, h]
      rw [LogStream.run, hpoll]
      exact ih t

theorem Tracks.run (h : Tracks seen s) (hs : s.live = true) (t : BuildLogTable)
    (es : List StreamEvent) : (s.run t es).delivered.Nodup ∧
      ∀ l, l ∈ (s.run t es).delivered ↔ l ∈ s.delivered ∨ InTime l t seen es := by
  induction es generalizing t seen s with
  | nil => exact ⟨h.once, by simp [LogStream.run, InTime]⟩
  | cons e es ih =>
    cases e with
    | insert l => exact ih h hs _
    | tick tick =>
      obtain ⟨h', hsent⟩ := h.poll hs t tick
      rw [LogStream.run]
      by_cases hlive : (s.poll t tick).live = true
      · obtain ⟨honce, hmem⟩ := ih h' hlive t
        refine ⟨honce, fun l => ?_⟩
        rw [hmem, hsent, InTime, or_assoc, and_iff_right ((s.poll_live t hs).mp hlive)]
      · rw [LogStream.run_ended _ _ _ (by simpa using hlive)]
        refine ⟨h'.once, fun l => ?_⟩
        rw [hsent, InTime, or_iff_left (a := _ ∧ _) fun hl => hlive ((s.poll_live t hs).mpr hl.1)]

/-- The lines of a build that are visible before the last round are each sent once just when each of
them is in time for some round. -/
theorem lines_delivered_once_iff (b : Id) (es : List StreamEvent) (final : StreamTick) :
    (∀ l ∈ visible .empty es, l.buildId = b →
      (LogStream.run {} .empty (es ++ [.tick final])).delivered.count l = 1) ↔
    ∀ l ∈ visible .empty es, l.buildId = b → InTime l .empty [] (es ++ [.tick final]) := by
  obtain ⟨honce, hmem⟩ := tracks_start.run rfl .empty (es ++ [.tick final])
  refine forall₃_congr fun l _ _ => ?_
  have hl := hmem l
  rw [List.Nodup.count honce]
  simp [hl]

def openTick : StreamTick := { buildId := some 1, phase := .building }

/-- Two lines with one time, of which the second becomes visible after a round: the client is never
sent it. -/
theorem late_line_never_delivered :
    let es := [.insert { id := 1, buildId := 1, createdAt := 5 }, .tick openTick,
      .insert { id := 2, buildId := 1, createdAt := 5 }, .tick openTick]
    (visible .empty es).rows.map (·.id) = [1, 2] ∧
      (LogStream.run {} .empty (es ++ [.tick { openTick with phase := .running }])).delivered.map
        (·.id) = [1] := by decide +kernel

/-- The lines that have been sent are in the order of their times, up to the time that is kept. -/
structure InOrder (s : LogStream) : Prop where
  sorted : s.delivered.Pairwise fun x y => x.createdAt ≤ y.createdAt
  kept : ∀ x ∈ s.delivered, ∃ c ∈ s.lastLogTS, x.createdAt ≤ c

theorem LogStream.lt_of_mem_newLogs {s : LogStream} (h : l ∈ s.newLogs t tick) :
    ∀ c ∈ s.lastLogTS, c < l.createdAt := by
  intro c hc
  rw [Option.mem_def] at hc
  unfold LogStream.newLogs at h
  rw [hc] at h
  cases hb : tick.buildId <;> cases hq : tick.fetched <;>
    simp_all [BuildLogTable.afterCreatedAt, Table.mem_selectBy]

theorem InOrder.poll (h : InOrder s) (t : BuildLogTable) (tick : StreamTick) :
    InOrder (s.poll t tick) := by
  have hlater : ∀ x ∈ s.delivered, ∀ y ∈ s.newLogs t tick, x.createdAt ≤ y.createdAt := by
    intro x hx y hy
    obtain ⟨c, hc, hle⟩ := h.kept x hx
    exact hle.trans (LogStream.lt_of_mem_newLogs hy c hc).le
  unfold LogStream.poll
  split
  · exact h
  split
  · exact ⟨h.sorted, h.kept⟩
  refine ⟨List.pairwise_append.mpr ⟨h.sorted, (s.newLogs_sorted t tick).2, hlater⟩, fun x hx => ?_⟩
  cases hlast : (s.newLogs t tick).getLast? with
  | none =>
    rw [List.getLast?_eq_none_iff.mp hlast, List.append_nil] at hx
    exact h.kept x hx
  | some l =>
    refine ⟨l.createdAt, rfl, ?_⟩
    rcases List.mem_append.mp hx with hx | hx
    · exact hlater x hx l (List.mem_of_getLast? hlast)
    · exact LogStream.le_getLast hlast x hx

theorem InOrder.run (h : InOrder s) (t : BuildLogTable) (es : List StreamEvent) :
    InOrder (s.run t es) := by
  induction es generalizing s t with
  | nil => exact h
  | cons e es ih =>
    cases e with
    | insert l => exact ih h _
    | tick tick => exact ih (h.poll t tick) t

/-- **The stream never goes back.** However lines become visible and rounds fail, the client is sent
no line twice, and none after one with a later time. -/
theorem lines_delivered_in_order (es : List StreamEvent) :
    (LogStream.run {} .empty es).delivered.Nodup ∧
      (LogStream.run {} .empty es).delivered.Pairwise fun x y => x.createdAt ≤ y.createdAt :=
  ⟨(tracks_start.run rfl .empty es).1, (InOrder.run ⟨.nil, by simp⟩ .empty es).sorted⟩

end Kindling
