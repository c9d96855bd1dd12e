import Mathlib.Data.List.Sort

/-!
# Tables with a primary key

A table is a list of rows in which no two rows have the same key. Rows are looked up by key,
selected by a condition, inserted (unless the key is taken), removed, and changed in place by
functions that keep the key.
-/

namespace Kindling

structure Table (κ ρ : Type) (key : ρ → κ) where
  rows : List ρ
  nodup : (rows.map key).Nodup

namespace Table
variable {κ ρ : Type} {key : ρ → κ} {t t' : Table κ ρ key} {f : ρ → ρ} {r : ρ} {k : κ}
  {p : ρ → Bool} {hf : ∀ r, key (f r) = key r}

def empty : Table κ ρ key := ⟨[], List.nodup_nil⟩

def single (r : ρ) : Table κ ρ key := ⟨[r], List.nodup_singleton _⟩

instance : Inhabited (Table κ ρ key) := ⟨empty⟩

instance : Membership ρ (Table κ ρ key) := ⟨fun t r => r ∈ t.rows⟩

theorem mem_def : r ∈ t ↔ r ∈ t.rows := .rfl

theorem eq_of_key_eq (h : r ∈ t) (h' : r' ∈ t)
    (hk : key r = key r') : r = r' := List.inj_on_of_nodup_map t.nodup h h' hk

def modify (t : Table κ ρ key) (f : ρ → ρ) (hf : ∀ r, key (f r) = key r) : Table κ ρ key :=
  ⟨t.rows.map f, by
    have : (t.rows.map f).map key = t.rows.map key := by simp [Function.comp_def, hf]
    exact this ▸ t.nodup⟩

theorem mem_modify : r ∈ t.modify f hf ↔ ∃ r₀ ∈ t, f r₀ = r := List.mem_map

/-- Change the rows that satisfy a condition. -/
def updateWhere (t : Table κ ρ key) (p : ρ → Bool) (f : ρ → ρ) (hf : ∀ r, key (f r) = key r) :
    Table κ ρ key :=
  t.modify (fun r => if p r then f r else r) fun r => by split <;> simp [hf]

theorem mem_updateWhere :
    r ∈ t.updateWhere p f hf ↔ ∃ r₀ ∈ t, (if p r₀ then f r₀ else r₀) = r := mem_modify

def keep (t : Table κ ρ key) (p : ρ → Bool) : Table κ ρ key :=
  ⟨t.rows.filter p, t.nodup.sublist (List.filter_sublist.map key)⟩

theorem mem_keep : r ∈ t.keep p ↔ r ∈ t ∧ p r := List.mem_filter

/-- The rows that satisfy a condition, in ascending order of `ord`; ties keep their order. -/
def selectBy (t : Table κ ρ key) (p : ρ → Bool) (ord : ρ → Nat) : List ρ :=
  (t.rows.filter p).insertionSort fun a b => ord a ≤ ord b

theorem mem_selectBy : r ∈ t.selectBy p ord ↔ r ∈ t ∧ p r := by
  simp [selectBy, mem_def]

theorem selectBy_nodup (t : Table κ ρ key) (p : ρ → Bool) (ord : ρ → Nat) :
    (t.selectBy p ord).Nodup := by
  refine (List.perm_insertionSort _ _).nodup_iff.mpr (.filter _ ?_)
  exact .of_map key t.nodup

theorem selectBy_pairwise (t : Table κ ρ key) (p : ρ → Bool) (ord : ρ → Nat) :
    (t.selectBy p ord).Pairwise fun a b => ord a ≤ ord b := List.pairwise_insertionSort ..

theorem countP_selectBy (t : Table κ ρ key) (p q : ρ → Bool) (ord : ρ → Nat) :
    (t.selectBy p ord).countP q = t.rows.countP fun r => q r && p r := by
  rw [selectBy, (List.perm_insertionSort _ _).countP_eq, List.countP_filter]

variable [DecidableEq κ]

def find? (t : Table κ ρ key) (k : κ) : Option ρ := t.rows.find? fun r => key r = k

theorem find?_eq_some : t.find? k = some r ↔ r ∈ t ∧ key r = k := by
  constructor
  · intro h
    exact ⟨List.mem_of_find?_eq_some h, by simpa using List.find?_some h⟩
  · rintro ⟨hr, rfl⟩
    cases h : t.find? (key r) with
    | none => exact absurd (List.find?_eq_none.mp h r hr) (by simp)
    | some r' =>
      have hr' := List.mem_of_find?_eq_some h
      have hk : key r' = key r := by simpa using List.find?_some h
      rw [eq_of_key_eq hr' hr hk]

theorem find?_key (h : t.find? k = some r) : key r = k := (find?_eq_some.mp h).2

theorem mem_of_find? (h : t.find? k = some r) : r ∈ t := (find?_eq_some.mp h).1

theorem find?_of_mem (h : r ∈ t) : t.find? (key r) = some r := find?_eq_some.mpr ⟨h, rfl⟩

theorem find?_eq_none : t.find? k = none ↔ ∀ r ∈ t, key r ≠ k := by
  simp [find?, mem_def]

@[simp] theorem find?_modify (t : Table κ ρ key) (f : ρ → ρ) (hf : ∀ r, key (f r) = key r)
    (k : κ) : (t.modify f hf).find? k = (t.find? k).map f := by
  simp [find?, modify, Function.comp_def, hf]

@[simp] theorem find?_updateWhere (t : Table κ ρ key) (p : ρ → Bool) (f : ρ → ρ)
    (hf : ∀ r, key (f r) = key r) (k : κ) :
    (t.updateWhere p f hf).find? k = (t.find? k).map fun r => if p r then f r else r :=
  find?_modify ..

/-! ## Changing one row -/

/-- Change the row with key `k`, when it exists and satisfies `p`; the changed row is returned. -/
def updateKey (t : Table κ ρ key) (k : κ) (p : ρ → Bool) (f : ρ → ρ)
    (hf : ∀ r, key (f r) = key r) : Option ρ × Table κ ρ key :=
  (((t.find? k).filter p).map f, t.updateWhere (fun r => key r = k && p r) f hf)

@[simp] theorem updateKey_fst (t : Table κ ρ key) (k : κ) (p : ρ → Bool) (f : ρ → ρ)
    (hf : ∀ r, key (f r) = key r) :
    (t.updateKey k p f hf).1 = ((t.find? k).filter p).map f := rfl

theorem updateKey_fst_eq_some (h : (t.updateKey k p f hf).1 = some x) :
    ∃ r, t.find? k = some r ∧ p r = true ∧ x = f r ∧ key x = k := by
  obtain ⟨r, hr, rfl⟩ := Option.map_eq_some_iff.mp h
  obtain ⟨hr, hp⟩ := Option.filter_eq_some_iff.mp hr
  exact ⟨r, hr, hp, rfl, (hf r).trans (find?_key hr)⟩

theorem find?_updateKey_self (t : Table κ ρ key) (k : κ) (p : ρ → Bool) (f : ρ → ρ)
    (hf : ∀ r, key (f r) = key r) :
    (t.updateKey k p f hf).2.find? k = (t.find? k).map fun r => if p r then f r else r := by
  simp only [updateKey, find?_updateWhere]
  cases h : t.find? k with
  | none => rfl
  | some r => simp [find?_key h]

theorem find?_updateKey_ne (t : Table κ ρ key) (p : ρ → Bool) (f : ρ → ρ)
    (hf : ∀ r, key (f r) = key r) (h : k' ≠ k) :
    (t.updateKey k p f hf).2.find? k' = t.find? k' := by
  simp only [updateKey, find?_updateWhere]
  cases hr : t.find? k' with
  | none => rfl
  | some r => simp [find?_key hr, h]

theorem find?_updateKey (t : Table κ ρ key) (k : κ) (p : ρ → Bool) (f : ρ → ρ)
    (hf : ∀ r, key (f r) = key r) (k' : κ) :
    (t.updateKey k p f hf).2.find? k' =
      (t.find? k').map fun r => if k' = k ∧ p r then f r else r := by
  by_cases h : k' = k
  · subst h
    simp [find?_updateKey_self]
  · simp [find?_updateKey_ne _ _ _ _ h, h]

theorem find?_updateKey_returned (h : (t.updateKey k p f hf).1 = some x) :
    (t.updateKey k p f hf).2.find? (key x) = some x := by
  obtain ⟨r, hr, hp, rfl, hk⟩ := updateKey_fst_eq_some h
  rw [hk, find?_updateKey_self, hr]
  simp [hp]

theorem find?_updateKey_none (h : (t.updateKey k p f hf).1 = none) (k' : κ) :
    (t.updateKey k p f hf).2.find? k' = t.find? k' := by
  by_cases hk : k' = k
  · subst hk
    rw [find?_updateKey_self]
    rw [updateKey_fst, Option.map_eq_none_iff] at h
    cases hr : t.find? k' with
    | none => rfl
    | some r =>
      rw [hr, Option.filter_eq_none_iff] at h
      rw [Option.map_some, if_neg (h r rfl)]
  · exact t.find?_updateKey_ne p f hf hk

theorem find?_updateKey_map (t : Table κ ρ key) (k : κ) (p : ρ → Bool) (f : ρ → ρ)
    (hf : ∀ r, key (f r) = key r) {γ : Type} {g : ρ → γ} (hg : ∀ r, g (f r) = g r) (k' : κ) :
    ((t.updateKey k p f hf).2.find? k').map g = (t.find? k').map g := by
  simp only [updateKey, find?_updateWhere, Option.map_map]
  congr 1
  funext r
  simp only [Function.comp_apply]
  split
  · exact hg r
  · rfl

theorem mem_updateKey : r ∈ (t.updateKey k p f hf).2 ↔
      ∃ r₀ ∈ t, (if key r₀ = k && p r₀ then f r₀ else r₀) = r := @mem_updateWhere _ _ _ t f r _ hf

theorem forall_mem_updateKey (hf : ∀ r, key (f r) = key r) {P : ρ → Prop} (h : ∀ r ∈ t, P r) :
    (∀ r ∈ (t.updateKey k p f hf).2, P r) ↔ ∀ r, t.find? k = some r → p r = true → P (f r) := by
  constructor
  · intro hall r hr hp
    refine hall _ (mem_updateKey.mpr ⟨r, mem_of_find? hr, ?_⟩)
    simp [find?_key hr, hp]
  · intro hrow r hr
    obtain ⟨r₀, hr₀, rfl⟩ := mem_updateKey.mp hr
    split
    · next hand =>
      obtain ⟨hk, hp⟩ := Bool.and_eq_true_iff.mp hand
      exact hrow r₀ (of_decide_eq_true hk ▸ find?_of_mem hr₀) hp
    · exact h r₀ hr₀

theorem countP_updateKey (t : Table κ ρ key) (f : ρ → ρ) (hf : ∀ r, key (f r) = key r)
    (q : ρ → Bool) (hr : t.find? k = some r) (hp : p r = true) :
    (t.updateKey k p f hf).2.rows.countP q + (if q r then 1 else 0) =
      t.rows.countP q + (if q (f r) then 1 else 0) := by
  obtain ⟨l₁, l₂, hl⟩ := List.append_of_mem (mem_def.mp (mem_of_find? hr))
  have hnd := t.nodup
  have hk := find?_key hr
  rw [hl, List.map_append, List.map_cons, List.nodup_append, List.nodup_cons] at hnd
  obtain ⟨-, ⟨hl₂, -⟩, hl₁⟩ := hnd
  have hother : ∀ l : List ρ, (∀ x ∈ l, key x ≠ k) →
      l.map (fun x => if key x = k && p x then f x else x) = l := by
    intro l h
    calc l.map (fun x => if key x = k && p x then f x else x) = l.map id :=
          List.map_congr_left fun x hx => by simp [h x hx]
      _ = l := List.map_id l
  have h₁ := hother l₁ fun x hx hxk => hl₁ _ (List.mem_map_of_mem hx) _ List.mem_cons_self
    (hxk.trans hk.symm)
  have h₂ := hother l₂ fun x hx hxk => hl₂ (hk.trans hxk.symm ▸ List.mem_map_of_mem hx)
  have hrows : (t.updateKey k p f hf).2.rows = l₁ ++ f r :: l₂ := by
    change t.rows.map (fun x => if key x = k && p x then f x else x) = _
    rw [hl, List.map_append, List.map_cons, h₁, h₂]
    simp [hk, hp]
  rw [hrows, hl]
  simp only [List.countP_append, List.countP_cons]
  omega

/-- Insert a row, unless its key is taken. -/
def insert? (t : Table κ ρ key) (r : ρ) : Option (Table κ ρ key) :=
  if h : t.find? (key r) = none then
    some ⟨t.rows ++ [r], by
      rw [List.map_append, List.nodup_append]
      refine ⟨t.nodup, by simp, ?_⟩
      rintro _ hk _ hk' rfl
      obtain ⟨r', hr', hkr⟩ := List.mem_map.mp hk
      simp only [List.map_cons, List.map_nil, List.mem_singleton] at hk'
      exact find?_eq_none.mp h r' hr' (hkr.trans hk')⟩
  else none

theorem insert?_fresh (h : t.insert? r = some t') : t.find? (key r) = none := by
  unfold insert? at h
  split at h
  · assumption
  · cases h

theorem rows_insert? (h : t.insert? r = some t') : t'.rows = t.rows ++ [r] := by
  unfold insert? at h
  split at h
  · cases h
    rfl
  · cases h

theorem mem_insert? (h : t.insert? r = some t') : x ∈ t' ↔ x ∈ t ∨ x = r := by
  unfold insert? at h
  split at h
  · cases h
    simp [mem_def]
  · cases h

theorem find?_insert? (h : t.insert? r = some t') (k : κ) :
    t'.find? k = if key r = k then some r else t.find? k := by
  split
  · next hk => exact find?_eq_some.mpr ⟨(mem_insert? h).mpr (.inr rfl), hk⟩
  · next hk =>
    cases ht : t.find? k with
    | some x => exact find?_eq_some.mpr ⟨(mem_insert? h).mpr (.inl (mem_of_find? ht)), find?_key ht⟩
    | none =>
      refine find?_eq_none.mpr fun x hx => ?_
      rcases (mem_insert? h).mp hx with hx | rfl
      · exact find?_eq_none.mp ht x hx
      · exact hk

theorem find?_insert?_of_some (h : t.insert? r = some t')
    (hx : t.find? k = some x) : t'.find? k = some x := by
  rw [find?_insert? h, if_neg, hx]
  intro hk
  rw [← hk, insert?_fresh h] at hx
  cases hx

theorem countP_insert? (h : t.insert? r = some t') (q : ρ → Bool) :
    t'.rows.countP q = t.rows.countP q + (if q r then 1 else 0) := by
  unfold insert? at h
  split at h
  · cases h
    simp
  · cases h

def put (t : Table κ ρ key) (r : ρ) : Table κ ρ key :=
  ⟨t.rows.filter (fun x => key x ≠ key r) ++ [r], by
    rw [List.map_append, List.nodup_append]
    refine ⟨(t.keep _).nodup, by simp, ?_⟩
    rintro _ hk _ hk' rfl
    obtain ⟨x, hx, hkx⟩ := List.mem_map.mp hk
    simp only [List.map_cons, List.map_nil, List.mem_singleton] at hk'
    exact of_decide_eq_true (List.mem_filter.mp hx).2 (hkx.trans hk')⟩

theorem mem_put : x ∈ t.put r ↔ x ∈ t ∧ key x ≠ key r ∨ x = r := by
  simp [put, mem_def]

theorem find?_keep (t : Table κ ρ key) (p : ρ → Bool) (k : κ) :
    (t.keep p).find? k = (t.find? k).filter p := by
  cases ht : t.find? k with
  | none => exact find?_eq_none.mpr fun r hr => find?_eq_none.mp ht r (mem_keep.mp hr).1
  | some r =>
    by_cases hp : p r = true
    · rw [Option.filter_some_pos hp]
      exact find?_eq_some.mpr ⟨mem_keep.mpr ⟨mem_of_find? ht, hp⟩, find?_key ht⟩
    · rw [Option.filter_some_neg (by simpa using hp)]
      refine find?_eq_none.mpr fun x hx hk => hp ?_
      have : x = r := eq_of_key_eq (mem_keep.mp hx).1 (mem_of_find? ht) (hk.trans (find?_key ht).symm)
      exact this ▸ (mem_keep.mp hx).2

end Table
end Kindling
