import Mathlib.Data.Nat.ModEq

/-!
# IPv4 networks

Addresses with a mask length (`inet`) and networks (`cidr`), with the arithmetic and the order that
Postgres gives them: the sum of an `inet` and a number keeps the mask, the cast of an `inet` to a
`cidr` clears the host bits, and networks are ordered by their common bits first, then by the length
of the mask.
-/

namespace Kindling

/-- An address and the length of its mask. -/
@[ext] structure Inet where
  addr : Nat
  bits : Nat
  addr_lt : addr < 2 ^ 32
  bits_le : bits ≤ 32
  deriving DecidableEq, Repr

namespace Inet

def size (a : Inet) : Nat := 2 ^ (32 - a.bits)

theorem size_pos (a : Inet) : 0 < a.size := Nat.two_pow_pos _

/-- `inet + bigint`, which fails when the result is out of range. -/
def add (a : Inet) (n : Nat) : Option Inet :=
  if h : a.addr + n < 2 ^ 32 then some { a with addr := a.addr + n, addr_lt := h } else none

def contains (a : Inet) (x : Nat) : Bool := x / a.size == a.addr / a.size

/-- `network_cmp`: the common bits of both, the lengths of the masks, all bits. -/
def le (a b : Inet) : Bool :=
  let common := 2 ^ (32 - min a.bits b.bits)
  if a.addr / common ≠ b.addr / common then a.addr / common < b.addr / common
  else if a.bits ≠ b.bits then a.bits < b.bits
  else a.addr ≤ b.addr

theorem le_of_host {a b : Inet} (ha : a.bits = 32) (hb : b.bits = 32) :
    a.le b = decide (a.addr ≤ b.addr) := by
  simp only [le, ha, hb, min_self]
  split
  · exact decide_eq_decide.mpr (by omega)
  · rfl

/-- `MAX(inet)` -/
def max? : List Inet → Option Inet
  | [] => none
  | a :: as => some (as.foldl (fun m b => if m.le b then b else m) a)

theorem max?_of_hosts (hl : ∀ a ∈ l, a.bits = 32) {m : Inet} (h : max? l = some m) :
    m ∈ l ∧ ∀ a ∈ l, a.addr ≤ m.addr := by
  -- the fold starts with a host and keeps the greatest of what it has seen
  have hfold : ∀ l (a : Inet), (∀ b ∈ a :: l, b.bits = 32) →
      l.foldl (fun m b => if m.le b then b else m) a ∈ a :: l ∧
        ∀ b ∈ a :: l, b.addr ≤ (l.foldl (fun m b => if m.le b then b else m) a).addr := by
    intro l
    induction l with
    | nil => simp
    | cons c l ih =>
      intro a hl
      rw [List.foldl_cons, le_of_host (hl a (by simp)) (hl c (by simp))]
      split
      · next hac =>
        obtain ⟨hmem, hle⟩ := ih c fun b hb => hl b (List.mem_cons_of_mem _ hb)
        refine ⟨List.mem_cons_of_mem _ hmem, fun b hb => ?_⟩
        rcases List.mem_cons.mp hb with rfl | hb
        · exact (of_decide_eq_true hac).trans (hle c (by simp))
        · exact hle b hb
      · next hac =>
        obtain ⟨hmem, hle⟩ := ih a fun b hb => hl b (by
          rcases List.mem_cons.mp hb with rfl | hb <;> simp [*])
        have hca : c.addr ≤ a.addr := by
          have := of_decide_eq_false (Bool.eq_false_iff.mpr hac)
          omega
        refine ⟨?_, fun b hb => ?_⟩
        · rcases List.mem_cons.mp hmem with h | h
          · rw [h]
            exact List.mem_cons_self ..
          · exact List.mem_cons_of_mem _ (List.mem_cons_of_mem _ h)
        · rcases List.mem_cons.mp hb with rfl | hb
          · exact hle b (by simp)
          · rcases List.mem_cons.mp hb with rfl | hb
            · exact hca.trans (hle a (by simp))
            · exact hle b (List.mem_cons_of_mem _ hb)
  cases l with
  | nil => cases h
  | cons a l =>
    cases h
    exact hfold l a hl

end Inet

/-- A network: an `inet` without host bits. -/
@[ext] structure Cidr extends Inet where
  host_zero : addr % 2 ^ (32 - bits) = 0
  deriving DecidableEq, Repr

/-- `inet::cidr` -/
def Inet.toCidr (a : Inet) : Cidr where
  addr := a.addr / a.size * a.size
  bits := a.bits
  addr_lt := lt_of_le_of_lt (Nat.div_mul_le_self ..) a.addr_lt
  bits_le := a.bits_le
  host_zero := Nat.mul_mod_left ..

namespace Cidr

def Disjoint (c d : Cidr) : Prop := ∀ x, ¬(c.contains x = true ∧ d.contains x = true)

theorem contains_addr (c : Cidr) : c.contains c.addr = true := beq_self_eq_true _

theorem contains_iff (c : Cidr) (x : Nat) :
    c.contains x = true ↔ c.addr ≤ x ∧ x < c.addr + c.size := by
  have hpos := c.size_pos
  have haddr : c.addr / c.size * c.size = c.addr :=
    Nat.div_mul_cancel (Nat.dvd_of_mod_eq_zero c.host_zero)
  rw [Inet.contains, beq_iff_eq, Nat.div_eq_iff hpos]
  omega

theorem not_disjoint_self (c : Cidr) : ¬c.Disjoint c := fun h =>
  h c.addr ⟨c.contains_addr, c.contains_addr⟩

/-- `MAX(cidr)` -/
def max? : List Cidr → Option Cidr
  | [] => none
  | c :: cs => some (cs.foldl (fun m d => if m.le d.toInet then d else m) c)

theorem max?_singleton (c : Cidr) : max? [c] = some c := rfl

/-- Less than the size of a network, added to its first address, is lost in the cast. -/
theorem toCidr_add {a : Inet} (hn : n < c.size) (h : c.add n = some a) : a.toCidr = c := by
  unfold Inet.add at h
  split at h
  · cases h
    have hdvd : c.size ∣ c.addr := Nat.dvd_of_mod_eq_zero c.host_zero
    have haddr : (c.addr + n) / c.size * c.size = c.addr := by
      rw [Nat.add_div_of_dvd_right hdvd, Nat.div_eq_of_lt hn, add_zero, Nat.div_mul_cancel hdvd]
    exact Cidr.ext haddr rfl
  · cases h

end Cidr
end Kindling
