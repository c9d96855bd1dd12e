import Mathlib.Data.List.Basic

/-!
# Base64

The standard encoding with padding. A decoder skips line breaks, and takes the padding only at the
end. Decoding what has been encoded gives it back.
-/

namespace Kindling.Base64

def alphabet : List Char :=
  "ABCDEFGHIJKLMNOPQRSTUVWXYZabcdefghijklmnopqrstuvwxyz0123456789+/".toList

def digit (n : Nat) : Char := alphabet.getD (n % 64) 'A'

def value (c : Char) : Option Nat := alphabet.idxOf? c

def encodeList : List UInt8 → List Char
  | [] => []
  | [a] =>
    let n := a.toNat * 65536
    [digit (n / 262144), digit (n / 4096), '=', '=']
  | [a, b] =>
    let n := a.toNat * 65536 + b.toNat * 256
    [digit (n / 262144), digit (n / 4096), digit (n / 64), '=']
  | a :: b :: c :: rest =>
    let n := a.toNat * 65536 + b.toNat * 256 + c.toNat
    digit (n / 262144) :: digit (n / 4096) :: digit (n / 64) :: digit n :: encodeList rest

/-- The three bytes of four digits. -/
def quantum (v₁ v₂ v₃ v₄ : Nat) : UInt8 × UInt8 × UInt8 :=
  let n := v₁ * 262144 + v₂ * 4096 + v₃ * 64 + v₄
  (.ofNat (n / 65536), .ofNat (n / 256), .ofNat n)

/-- Decoding of characters that are no line breaks. -/
def decodeList : List Char → Option (List UInt8)
  | [] => some []
  | a :: b :: c :: d :: rest => do
    let v₁ ← value a
    let v₂ ← value b
    if c = '=' ∧ d = '=' ∧ rest = [] then return [(quantum v₁ v₂ 0 0).1]
    else
    let v₃ ← value c
    if d = '=' ∧ rest = [] then
      let q := quantum v₁ v₂ v₃ 0
      return [q.1, q.2.1]
    else
    let v₄ ← value d
    let q := quantum v₁ v₂ v₃ v₄
    let bytes ← decodeList rest
    return q.1 :: q.2.1 :: q.2.2 :: bytes
  | _ => none

def encode (bytes : List UInt8) : String := String.ofList (encodeList bytes)

def decode (s : String) : Option (List UInt8) :=
  decodeList (s.toList.filter fun c => c ≠ '\n' && c ≠ '\r')

theorem value_digit (n : Nat) : value (digit n) = some (n % 64) := by
  have hall : ∀ k : Fin 64, value (alphabet.getD k 'A') = some k := by decide +kernel
  exact hall ⟨n % 64, Nat.mod_lt _ (by decide)⟩

theorem digit_mem (n : Nat) : digit n ∈ alphabet := by
  have hlength : n % 64 < alphabet.length := Nat.mod_lt _ (by decide)
  rw [digit, List.getD_eq_getElem?_getD, List.getElem?_eq_getElem hlength]
  exact List.getElem_mem hlength

theorem digit_ne_pad (n : Nat) : digit n ≠ '=' := by
  intro h
  have hmem := digit_mem n
  rw [h] at hmem
  revert hmem
  decide

theorem mem_encodeList (h : c ∈ encodeList bytes) : c = '=' ∨ c ∈ alphabet := by
  induction bytes using encodeList.induct with
  | case1 => cases h
  | case2 a =>
    simp only [encodeList, List.mem_cons, List.not_mem_nil, or_false] at h
    rcases h with rfl | rfl | h | h
    · exact .inr (digit_mem _)
    · exact .inr (digit_mem _)
    · exact .inl h
    · exact .inl h
  | case3 a b =>
    simp only [encodeList, List.mem_cons, List.not_mem_nil, or_false] at h
    rcases h with rfl | rfl | rfl | h
    · exact .inr (digit_mem _)
    · exact .inr (digit_mem _)
    · exact .inr (digit_mem _)
    · exact .inl h
  | case4 a b c rest ih =>
    simp only [encodeList, List.mem_cons] at h
    rcases h with rfl | rfl | rfl | rfl | h
    · exact .inr (digit_mem _)
    · exact .inr (digit_mem _)
    · exact .inr (digit_mem _)
    · exact .inr (digit_mem _)
    · exact ih h

theorem ofNat_eq (h : n % 256 = b.toNat) : UInt8.ofNat n = b := by
  apply UInt8.toNat_inj.mp
  exact h

theorem quantum_digits (a b c : UInt8) (h : n = a.toNat * 65536 + b.toNat * 256 + c.toNat) :
    quantum (n / 262144 % 64) (n / 4096 % 64) (n / 64 % 64) (n % 64) = (a, b, c) := by
  have ha := a.toNat_lt
  have hb := b.toNat_lt
  have hc := c.toNat_lt
  unfold quantum
  dsimp only
  rw [ofNat_eq, ofNat_eq, ofNat_eq]
  · omega
  · omega
  · omega

theorem decodeList_encodeList : decodeList (encodeList bytes) = some bytes := by
  induction bytes using encodeList.induct with
  | case1 => rfl
  | case2 a =>
    have hquantum := quantum_digits a 0 0 (n := a.toNat * 65536) (by simp)
    rw [show a.toNat * 65536 / 64 % 64 = 0 by omega, show a.toNat * 65536 % 64 = 0 by omega] at hquantum
    simp [encodeList, decodeList, value_digit, hquantum]
  | case3 a b =>
    have hquantum := quantum_digits a b 0 (n := a.toNat * 65536 + b.toNat * 256) (by simp)
    rw [show (a.toNat * 65536 + b.toNat * 256) % 64 = 0 by omega] at hquantum
    simp [encodeList, decodeList, value_digit, digit_ne_pad, hquantum]
  | case4 a b c rest ih =>
    simp [encodeList, decodeList, value_digit, digit_ne_pad, quantum_digits a b c rfl, ih]

theorem decode_encode (bytes : List UInt8) : decode (encode bytes) = some bytes := by
  unfold decode encode
  rw [String.toList_ofList, List.filter_eq_self.mpr, decodeList_encodeList]
  intro c hc
  rcases mem_encodeList hc with rfl | hc
  · decide
  · have hall : (alphabet.all fun c => c ≠ '\n' && c ≠ '\r') = true := by decide
    exact List.all_eq_true.mp hall c hc

theorem encode_ne_empty (h : bytes ≠ []) : encode bytes ≠ "" := by
  intro hempty
  have hdecode := decode_encode bytes
  rw [hempty] at hdecode
  exact h (Option.some.inj hdecode).symm

end Kindling.Base64
