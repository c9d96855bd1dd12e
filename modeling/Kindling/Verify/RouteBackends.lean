import Kindling.Edge.RouteTable
import Mathlib.Data.Finset.Dedup
import Mathlib.Data.List.Induction

/-!
# The backends of a route table

One pass over the active routes fills the maps of a table. The rows that give a domain its backends
are the first ones of their VMs: a later row finds its VM among those that have been seen.
-/

namespace Kindling.EdgeProxy

variable {server : Option Id} {d : String} {rows rows' picked : List RouteFindActiveRow}
  {row : RouteFindActiveRow} {m : RouteMaps}

namespace RouteFindActiveRow

def Redirects (d : String) (row : RouteFindActiveRow) : Prop :=
  row.domainName = d ∧ row.redirectTo.isSome = true

/-- The row is no redirect and has a valid address. -/
def Serves (d : String) (row : RouteFindActiveRow) : Prop :=
  row.domainName = d ∧ row.redirectTo = none ∧ row.vmIp.isSome = true

instance : DecidablePred (Serves d) := fun _ => inferInstanceAs (Decidable (_ ∧ _))

def backend (server : Option Id) (row : RouteFindActiveRow) : Backend :=
  ⟨if row.serverId.isSome && row.serverId == server then "127.0.0.1" else row.vmIp.getD "",
    row.vmPort.getD 0⟩

end RouteFindActiveRow

/-- The address, the port and the server of a row are those of its VM. The query takes them from one
row of the table of VMs. -/
structure Joined (rows : List RouteFindActiveRow) : Prop where
  vm : ∀ row ∈ rows, row.vmIp.isSome = true → row.vmId.isSome = true
  same : ∀ r ∈ rows, ∀ r' ∈ rows, r.domainName = r'.domainName → r.vmId.isSome = true →
    r.vmId = r'.vmId → r.vmIp = r'.vmIp ∧ r.vmPort = r'.vmPort ∧ r.serverId = r'.serverId

/-- The VMs that serve a domain. -/
def vmsOf (d : String) (rows : List RouteFindActiveRow) : Finset Id :=
  (rows.filterMap fun row => if row.Serves d then row.vmId else none).toFinset

theorem mem_vmsOf : v ∈ vmsOf d rows ↔ ∃ row ∈ rows, row.Serves d ∧ row.vmId = some v := by
  simp [vmsOf]

def backendsOf (t : Routes) (d : String) : List Backend := (t d).elim [] (·.backends)

namespace RouteMaps

/-- The row serves the domain, and its VM has not been seen. -/
def Fresh (d : String) (m : RouteMaps) (row : RouteFindActiveRow) : Prop :=
  row.Serves d ∧ ∀ v ∈ row.vmId, v ∉ m.proxySeen d

theorem addRow_of_ne (h : row.domainName ≠ d) : (m.addRow server row).redirects d = m.redirects d ∧
    (m.addRow server row).proxyBackends d = m.proxyBackends d ∧
    (m.addRow server row).proxySeen d = m.proxySeen d := by
  unfold addRow
  split
  · simp [h.symm]
  · simp
  · simp [addBackend, h.symm]
  · dsimp only
    split <;> simp [addBackend, h.symm]

theorem redirects_addRow : ((m.addRow server row).redirects d).isSome = true ↔
    (m.redirects d).isSome = true ∨ row.Redirects d := by
  by_cases hd : row.domainName = d
  · subst hd
    cases hr : row.redirectTo <;> cases hip : row.vmIp <;> cases hid : row.vmId <;>
      simp [addRow, addBackend, RouteFindActiveRow.Redirects, hr, hip, hid]
    split <;> rfl
  · simp [addRow_of_ne hd, RouteFindActiveRow.Redirects, hd]

theorem bare_addRow (h : ∀ r ∈ m.redirects d, r.backends = []) :
    ∀ r ∈ (m.addRow server row).redirects d, r.backends = [] := by
  by_cases hd : row.domainName = d
  · subst hd
    unfold addRow
    split
    · simp
    · exact h
    · exact h
    · dsimp only
      split <;> exact h
  · rwa [(addRow_of_ne hd).1]

open Classical in
theorem proxy_addRow (server : Option Id) : (m.addRow server row).proxyBackends d =
      (if m.Fresh d row then m.proxyBackends d ++ [row.backend server] else m.proxyBackends d) ∧
    (m.addRow server row).proxySeen d =
      if m.Fresh d row then row.vmId.toList ++ m.proxySeen d else m.proxySeen d := by
  by_cases hd : row.domainName = d
  · subst hd
    cases hr : row.redirectTo <;> cases hip : row.vmIp <;> cases hid : row.vmId <;>
      simp [addRow, addBackend, Fresh, RouteFindActiveRow.Serves, RouteFindActiveRow.backend, hr, hip,
        hid]
    split <;> simp_all
  · simp [addRow_of_ne hd, Fresh, RouteFindActiveRow.Serves, hd]

end RouteMaps

/-! ## All rows -/

structure Picked (server : Option Id) (d : String) (rows picked : List RouteFindActiveRow)
    (m : RouteMaps) : Prop where
  backends : m.proxyBackends d = picked.map (·.backend server)
  served : ∀ row ∈ picked, row ∈ rows ∧ row.Serves d
  seen : picked.filterMap (·.vmId) = (m.proxySeen d).reverse
  nodup : (m.proxySeen d).Nodup
  complete : ∀ row ∈ rows, row.Serves d → row ∈ picked ∨ ∃ v ∈ m.proxySeen d, row.vmId = some v

theorem Picked.addRow (h : Picked server d rows picked m) (row : RouteFindActiveRow) :
    ∃ picked', Picked server d (rows ++ [row]) picked' (m.addRow server row) := by
  by_cases hf : m.Fresh d row
  · obtain ⟨hb, hs⟩ := (RouteMaps.proxy_addRow server).imp (·.trans (if_pos hf))
      (·.trans (if_pos hf))
    refine ⟨picked ++ [row], ⟨by simp [hb, h.backends], ?_, ?_, ?_, ?_⟩⟩
    · simp only [List.mem_append, List.mem_singleton]
      rintro r (hr | rfl)
      · exact ⟨.inl (h.served r hr).1, (h.served r hr).2⟩
      · exact ⟨.inr rfl, hf.1⟩
    · cases hid : row.vmId <;> simp [hs, hid, h.seen]
    · rw [hs]
      cases hid : row.vmId with
      | none => exact h.nodup
      | some v => exact List.nodup_cons.mpr ⟨hf.2 v hid, h.nodup⟩
    · simp only [List.mem_append, List.mem_singleton]
      rintro r (hr | rfl) hserves
      · rw [hs]
        exact (h.complete r hr hserves).imp .inl
          (.imp fun _ => .imp_left (List.mem_append_right _))
      · exact .inl (.inr rfl)
  · obtain ⟨hb, hs⟩ := (RouteMaps.proxy_addRow server).imp (·.trans (if_neg hf))
      (·.trans (if_neg hf))
    refine ⟨picked, ⟨hb.trans h.backends, ?_, ?_, ?_, ?_⟩⟩
    · exact fun r hr => ⟨List.mem_append_left _ (h.served r hr).1, (h.served r hr).2⟩
    · rw [hs, h.seen]
    · rw [hs]
      exact h.nodup
    · simp only [List.mem_append, List.mem_singleton]
      rintro r (hr | rfl) hserves
      · rw [hs]
        exact h.complete r hr hserves
      · obtain ⟨v, hid, hv⟩ : ∃ v, r.vmId = some v ∧ v ∈ m.proxySeen d := by
          simpa [RouteMaps.Fresh, hserves] using hf
        exact .inr ⟨v, hs ▸ hv, hid⟩

theorem exists_picked (server : Option Id) (d : String) (rows : List RouteFindActiveRow) :
    ∃ picked, Picked server d rows picked (rows.foldl (.addRow server) {}) := by
  induction rows using List.reverseRecOn with
  | nil => exact ⟨[], rfl, nofun, rfl, List.nodup_nil, nofun⟩
  | append_singleton rows row ih =>
    obtain ⟨picked, h⟩ := ih
    rw [List.foldl_concat]
    exact h.addRow row

theorem redirects_foldl (server : Option Id) (d : String) (rows : List RouteFindActiveRow) :
    let m := rows.foldl (RouteMaps.addRow server) {}
    ((m.redirects d).isSome = true ↔ ∃ row ∈ rows, row.Redirects d) ∧
      ∀ r ∈ m.redirects d, r.backends = [] := by
  induction rows using List.reverseRecOn with
  | nil => exact ⟨by simp, nofun⟩
  | append_singleton rows row ih =>
    simp only [List.foldl_concat]
    refine ⟨RouteMaps.redirects_addRow.trans ?_, RouteMaps.bare_addRow ih.2⟩
    rw [ih.1]
    simp

section table
variable (server : Option Id) (d : String)

theorem isSome_buildRoutes : (buildRoutes server rows d).isSome = true ↔
    (∃ row ∈ rows, row.Redirects d) ∨ ∃ row ∈ rows, row.Serves d := by
  obtain ⟨picked, h⟩ := exists_picked server d rows
  have hpicked : (rows.foldl (RouteMaps.addRow server) {}).proxyBackends d ≠ [] ↔
      ∃ row ∈ rows, row.Serves d := by
    rw [h.backends, ne_eq, List.map_eq_nil_iff]
    refine ⟨fun hne => ?_, fun ⟨row, hrow, hserves⟩ hnil => ?_⟩
    · obtain ⟨row, hrow⟩ := List.exists_mem_of_ne_nil _ hne
      exact ⟨row, h.served row hrow⟩
    · have hseen := h.seen
      rcases h.complete row hrow hserves with hmem | ⟨v, hv, -⟩
      · simp [hnil] at hmem
      · simp_all
  rw [← (redirects_foldl server d rows).1, ← hpicked, buildRoutes, RouteMaps.newRoutes]
  cases (rows.foldl (RouteMaps.addRow server) {}).redirects d <;> simp

theorem backendsOf_redirected (h : ∃ row ∈ rows, row.Redirects d) :
    backendsOf (buildRoutes server rows) d = [] := by
  obtain ⟨hsome, hbare⟩ := redirects_foldl server d rows
  obtain ⟨r, hr⟩ := Option.isSome_iff_exists.mp (hsome.mpr h)
  rw [backendsOf, buildRoutes, RouteMaps.newRoutes, hr]
  exact hbare r hr

theorem backendsOf_served (h : ¬∃ row ∈ rows, row.Redirects d) :
    backendsOf (buildRoutes server rows) d =
      (rows.foldl (RouteMaps.addRow server) {}).proxyBackends d := by
  have hnone := (redirects_foldl server d rows).1.not.mpr h
  rw [backendsOf, buildRoutes, RouteMaps.newRoutes]
  split <;> simp_all

end table

def Agrees (server : Option Id) (d : String) (rows : List RouteFindActiveRow) (b : Id → Backend) :
    Prop :=
  ∀ row ∈ rows, row.Serves d → ∃ v, row.vmId = some v ∧ row.backend server = b v

theorem Joined.agrees (h : Joined rows) (server : Option Id) (d : String) :
    ∃ b, Agrees server d rows b := by
  refine ⟨fun v => ((rows.find? fun r => r.Serves d ∧ r.vmId = some v).map (·.backend server)).getD
    ⟨"", 0⟩, fun row hrow hserves => ?_⟩
  obtain ⟨v, hv⟩ := Option.isSome_iff_exists.mp (h.vm row hrow hserves.2.2)
  refine ⟨v, hv, ?_⟩
  dsimp only
  cases hfind : rows.find? fun r => r.Serves d ∧ r.vmId = some v with
  | none => exact absurd hv (by simpa [hserves] using List.find?_eq_none.mp hfind row hrow)
  | some r =>
    obtain ⟨hr, hid⟩ : r.Serves d ∧ r.vmId = some v := by simpa using List.find?_some hfind
    obtain ⟨hip, hport, hserver⟩ := h.same row hrow r (List.mem_of_find?_eq_some hfind)
      (hserves.1.trans hr.1.symm) (h.vm row hrow hserves.2.2) (hv.trans hid.symm)
    simp [RouteFindActiveRow.backend, hip, hport, hserver]

theorem Agrees.backends (h : Agrees server d rows b) (hredirect : ¬∃ row ∈ rows, row.Redirects d) :
    (backendsOf (buildRoutes server rows) d : Multiset Backend) = (vmsOf d rows).val.map b := by
  obtain ⟨picked, hp⟩ := exists_picked server d rows
  have hvms : picked.map (·.backend server) = (picked.filterMap (·.vmId)).map b := by
    have hpicked : ∀ row ∈ picked, ∃ v, row.vmId = some v ∧ row.backend server = b v := fun row hrow =>
      h row (hp.served row hrow).1 (hp.served row hrow).2
    clear hp
    induction picked with
    | nil => rfl
    | cons row picked ih =>
      obtain ⟨v, hv, hb⟩ := hpicked row List.mem_cons_self
      simp [hv, hb, ih fun r hr => hpicked r (List.mem_cons_of_mem _ hr)]
  have hnodup : (picked.filterMap (·.vmId)).Nodup := hp.seen ▸ List.nodup_reverse.mpr hp.nodup
  have hset : vmsOf d rows = (picked.filterMap (·.vmId)).toFinset := by
    ext v
    rw [mem_vmsOf, List.mem_toFinset]
    refine ⟨fun ⟨row, hrow, hserves, hv⟩ => ?_, fun hv => ?_⟩
    · rcases hp.complete row hrow hserves with hmem | ⟨v', hv', hid⟩
      · exact List.mem_filterMap.mpr ⟨row, hmem, hv⟩
      · rw [hp.seen, List.mem_reverse]
        exact Option.some.inj (hid.symm.trans hv) ▸ hv'
    · obtain ⟨row, hrow, hv⟩ := List.mem_filterMap.mp hv
      exact ⟨row, (hp.served row hrow).1, (hp.served row hrow).2, hv⟩
  rw [backendsOf_served server d hredirect, hp.backends, hvms, hset, List.toFinset_val,
    hnodup.dedup, Multiset.map_coe]

/-- **Route tables.** A domain has an entry exactly if one of its rows is a redirect or has a valid
address. A domain with a redirect has no backends, and another one has one backend for each of its
VMs, whatever the order of the rows. -/
theorem route_table_of_rows (server : Option Id) (rows : List RouteFindActiveRow) (h : Joined rows)
    (d : String) :
    ((buildRoutes server rows d).isSome = true ↔ ∃ row ∈ rows, row.domainName = d ∧
      (row.redirectTo.isSome = true ∨ row.vmIp.isSome = true)) ∧
    ((∃ row ∈ rows, row.Redirects d) → backendsOf (buildRoutes server rows) d = []) ∧
    ((¬∃ row ∈ rows, row.Redirects d) → ∃ b, Agrees server d rows b ∧
      (backendsOf (buildRoutes server rows) d : Multiset Backend) = (vmsOf d rows).val.map b) ∧
    ∀ rows', rows'.Perm rows →
      (backendsOf (buildRoutes server rows') d).Perm (backendsOf (buildRoutes server rows) d) := by
  obtain ⟨b, hb⟩ := h.agrees server d
  refine ⟨(isSome_buildRoutes server d).trans ?_, backendsOf_redirected server d,
    fun hr => ⟨b, hb, hb.backends hr⟩, fun rows' hperm => ?_⟩
  · rw [← exists_or]
    refine exists_congr fun row => ?_
    cases hr : row.redirectTo <;> simp [RouteFindActiveRow.Redirects, RouteFindActiveRow.Serves, hr]
  · by_cases hr : ∃ row ∈ rows, row.Redirects d
    · have hr' : ∃ row ∈ rows', row.Redirects d := by simpa only [hperm.mem_iff] using hr
      rw [backendsOf_redirected server d hr, backendsOf_redirected server d hr']
    · have hr' : ¬∃ row ∈ rows', row.Redirects d := by simpa only [hperm.mem_iff] using hr
      have hb' : Agrees server d rows' b := fun row hrow => hb row (hperm.mem_iff.mp hrow)
      have hvms : vmsOf d rows' = vmsOf d rows := by
        ext v
        simp only [mem_vmsOf, hperm.mem_iff]
      exact Multiset.coe_eq_coe.mp ((hb'.backends hr').trans (hvms ▸ (hb.backends hr).symm))

/-- A VM on this server that two rows of a domain name, and another one. -/
def sharedRows : List RouteFindActiveRow :=
  [⟨"a.dev", some 3, some 4, none, none, "production", some "10.0.0.1", some 80, some 5, some 70⟩,
    ⟨"a.dev", some 3, some 4, none, none, "production", some "10.0.0.1", some 80, some 5, some 70⟩,
    ⟨"a.dev", some 3, some 4, none, none, "production", some "10.0.0.2", some 80, some 6, some 71⟩]

theorem sharedRows_backends : Joined sharedRows ∧
    ∃ b, Agrees (some 5) "a.dev" sharedRows b ∧ (backendsOf (buildRoutes (some 5) sharedRows) "a.dev" :
      Multiset Backend) = (vmsOf "a.dev" sharedRows).val.map b := by
  have h : Joined sharedRows := ⟨by decide, by decide⟩
  refine ⟨h, (route_table_of_rows (some 5) sharedRows h "a.dev").2.2.1 ?_⟩
  simp [sharedRows, RouteFindActiveRow.Redirects]

end Kindling.EdgeProxy
