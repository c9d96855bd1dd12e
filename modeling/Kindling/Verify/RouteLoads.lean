import Kindling.Edge.RouteTable

/-!
# Overlapping loads of the route table

What a load installs was read when the load began. The table of a load stays the newest one unless
another load had read an older state by then and has still to install it.
-/

namespace Kindling.EdgeProxy

variable {s s' t : Service} {l : Load}

/-- The load has read nothing yet, or a state that is not older than `v`. -/
def Load.ReadSince (v : Nat) (l : Load) : Prop := ∀ table ∈ l.table, v ≤ table.1

/-- The database has reached `v`, and so have all loads. -/
structure Service.Past (v : Nat) (s : Service) : Prop where
  changes : v ≤ s.changes
  loads : ∀ l ∈ s.loads, l.ReadSince v

/-- No load has read a state that the database has still to reach. -/
def Service.ReadsPast (s : Service) : Prop := ∀ l ∈ s.loads, ∀ table ∈ l.table, table.1 ≤ s.changes

/-- The loads after a step are those before it, new ones, and the one that has just read the state. -/
theorem Service.step_loads (h : s.step e = some s') : s.changes ≤ s'.changes ∧
    ∀ l ∈ s'.loads, l ∈ s.loads ∨ ∀ table ∈ l.table, table.1 = s.changes := by
  have hstart : ∀ starter, ∀ l ∈ (s.startLoad starter).loads, l ∈ s.loads ∨
      ∀ table ∈ l.table, table.1 = s.changes := by
    intro starter l hl
    rcases List.mem_append.mp hl with hold | hnew
    · exact .inl hold
    · rw [List.mem_singleton.mp hnew]
      exact .inr nofun
  cases e with
  | change rows =>
    cases h
    exact ⟨Nat.le_succ _, fun l hl => .inl hl⟩
  | notify | done =>
    obtain ⟨-, h⟩ := Option.ite_none_right_eq_some.mp h
    cases h
    exact ⟨le_rfl, fun l hl => .inl hl⟩
  | fire | tick =>
    obtain ⟨-, h⟩ := Option.ite_none_right_eq_some.mp h
    cases h
    exact ⟨le_rfl, hstart _⟩
  | read i ok =>
    unfold step at h
    dsimp only at h
    split at h
    · split at h <;> cases h
      · refine ⟨le_rfl, fun l hl => (List.mem_or_eq_of_mem_set hl).imp_right ?_⟩
        rintro rfl table ht
        cases ht
        rfl
      · exact ⟨le_rfl, fun l hl => .inl (List.mem_of_mem_eraseIdx hl)⟩
    · cases h
  | install i =>
    unfold step at h
    dsimp only at h
    split at h <;> cases h
    exact ⟨le_rfl, fun l hl => .inl (List.mem_of_mem_eraseIdx hl)⟩

theorem Service.Past.step (hs : s.Past v) (h : s.step e = some s') : s'.Past v := by
  obtain ⟨hchanges, hloads⟩ := step_loads h
  refine ⟨hs.changes.trans hchanges, fun l hl => ?_⟩
  rcases hloads l hl with hold | hread
  · exact hs.loads l hold
  · exact fun table ht => hread table ht ▸ hs.changes

theorem Service.ReadsPast.step (hs : s.ReadsPast) (h : s.step e = some s') : s'.ReadsPast := by
  obtain ⟨hchanges, hloads⟩ := step_loads h
  intro l hl table ht
  rcases hloads l hl with hold | hread
  · exact (hs l hold table ht).trans hchanges
  · exact (hread table ht).trans_le hchanges

theorem Service.installing_eq_some : s.installing (.install i) = some v ↔
    ∃ starter newRoutes, s.loads[i]? = some ⟨starter, some (v, newRoutes)⟩ := by
  constructor
  · intro h
    obtain ⟨⟨_, newRoutes⟩, ht, rfl⟩ := Option.map_eq_some_iff.mp h
    obtain ⟨⟨starter, _⟩, hl, rfl⟩ := Option.bind_eq_some_iff.mp ht
    exact ⟨starter, newRoutes, hl⟩
  · rintro ⟨starter, newRoutes, hl⟩
    simp [installing, hl]

/-- Once a load has installed its table, no table that was read from an earlier state is installed,
whatever happens then: exactly when no load has such a table at the installation. -/
theorem install_final_iff (hrun : Machine.run Service.step (.start serverId rows ok) es = some s)
    (hv : s.installing (.install i) = some v) (hstep : s.step (.install i) = some s') :
    (∀ es' t e, Machine.run Service.step s' es' = some t → ∀ v' ∈ t.installing e, v ≤ v') ↔
      ∀ l ∈ s.loads, l.ReadSince v := by
  obtain ⟨starter, newRoutes, hload⟩ := Service.installing_eq_some.mp hv
  have hs' : s'.loads = s.loads.eraseIdx i ∧ s'.changes = s.changes := by
    simp only [Service.step, hload, Option.some.injEq] at hstep
    exact hstep ▸ ⟨rfl, rfl⟩
  constructor
  · rintro hfinal l hl ⟨v', table⟩ ht
    obtain ⟨j, hj⟩ := List.getElem?_of_mem hl
    by_cases hji : j = i
    · obtain rfl : l = _ := Option.some.inj (hj.symm.trans (hji ▸ hload))
      cases ht
      exact le_rfl
    · -- the other load is still there and can install what it has
      have hl' : l ∈ s'.loads := hs'.1 ▸ List.mem_eraseIdx_iff_getElem?.mpr ⟨j, hji, hj⟩
      obtain ⟨k, hk⟩ := List.getElem?_of_mem hl'
      refine hfinal [] s' (.install k) rfl v' (Service.installing_eq_some.mpr ⟨l.starter, table, ?_⟩)
      rw [hk, ← Option.mem_def.mp ht]
  · intro hloads es' t e hrun' v' hv'
    have hreads : s.ReadsPast := Machine.run_invariant (P := fun _ => True)
      (fun _ _ _ _ h hI => hI.step h) (fun _ _ => trivial) hrun fun _ hl => by cases hl
    have hpast : s'.Past v := ⟨hs'.2 ▸ hreads _ (List.mem_of_getElem? hload) _ rfl, fun l hl =>
        hloads l (List.mem_of_mem_eraseIdx (hs'.1 ▸ hl))⟩
    have ht : t.Past v := Machine.run_invariant (P := fun _ => True)
      (fun _ _ _ _ h hI => hI.step h) (fun _ _ => trivial) hrun' hpast
    cases e with
    | install k =>
      obtain ⟨_, _, hk⟩ := Service.installing_eq_some.mp hv'
      exact ht.loads _ (List.mem_of_getElem? hk) _ rfl
    | _ => cases hv'

/-- A domain of the application, with one running VM. -/
def appRow : RouteFindActiveRow :=
  ⟨"app.example.com", some 1, some 2, none, none, "production", some "10.0.0.2", some 3000, some 3,
    some 4⟩

/-- The load of the timer reads before the domain is there, the load of the tick reads and installs
after it, and the first load then takes the domain away again. -/
theorem older_table_replaces_newer : ∃ s t,
    Machine.run Service.step (.start none [] true) [.notify, .fire, .read 0 true, .change [appRow],
      .tick, .read 1 true, .install 1] = some s ∧
    (s.routes "app.example.com").isSome ∧ s.installing (.install 0) = some 0 ∧
    s.step (.install 0) = some t ∧ (t.routes "app.example.com").isSome = false :=
  ⟨_, _, rfl, rfl, rfl, rfl, rfl⟩

/-- One load alone. -/
theorem single_load_final : ∃ s s',
    Machine.run Service.step (.start none [] true) [.change [appRow], .tick, .read 0 true] = some s ∧
    s.step (.install 0) = some s' ∧
    ∀ es t e, Machine.run Service.step s' es = some t → ∀ v' ∈ t.installing e, 1 ≤ v' := by
  have hrun : Machine.run Service.step (.start none [] true)
      [.change [appRow], .tick, .read 0 true] = some _ := rfl
  refine ⟨_, _, hrun, rfl, (install_final_iff (i := 0) hrun rfl rfl).mpr fun l hl table ht => ?_⟩
  obtain rfl := List.mem_singleton.mp hl
  cases ht
  exact le_rfl

end Kindling.EdgeProxy
