import Mathlib.Algebra.Order.Ring.Nat

/-!
Numbers as big-endian byte strings of a fixed width.
-/

namespace BigEndian

def value (bytes : List UInt8) : Nat :=
  bytes.foldl (fun n byte => n * 256 + byte.toNat) 0

def bytes : Nat → Nat → List UInt8
  | 0, _ => []
  | width + 1, n => bytes width (n / 256) ++ [UInt8.ofNat (n % 256)]

@[simp] theorem length_bytes (width n : Nat) : (bytes width n).length = width := by
  induction width generalizing n with
  | zero => rfl
  | succ width ih => simp [bytes, ih]

theorem value_append_singleton (front : List UInt8) (byte : UInt8) :
    value (front ++ [byte]) = value front * 256 + byte.toNat := by
  simp [value, List.foldl_append]

theorem value_bytes {width n : Nat} (h : n < 256 ^ width) : value (bytes width n) = n := by
  induction width generalizing n with
  | zero =>
      rw [Nat.pow_zero] at h
      simp [value, bytes]
      omega
  | succ width ih =>
      have hhigh : n / 256 < 256 ^ width := by
        rw [Nat.pow_succ] at h
        exact Nat.div_lt_of_lt_mul (by rwa [Nat.mul_comm] at h)
      have hlow : (UInt8.ofNat (n % 256)).toNat = n % 256 := by
        rw [UInt8.toNat_ofNat']
        omega
      rw [bytes, value_append_singleton, ih hhigh, hlow]
      omega

/-- A word whose four bytes are all at least `low` is at least `low` repeated. -/
theorem le_value_of_forall {word : List UInt8} {low : Nat} (hlength : word.length = 4)
    (h : ∀ byte ∈ word, low ≤ byte.toNat) :
    low * 0x1010101 ≤ value word := by
  match word, hlength with
  | [a, b, c, d], _ =>
      have ha := h a (by simp)
      have hb := h b (by simp)
      have hc := h c (by simp)
      have hd := h d (by simp)
      simp only [value, List.foldl_cons, List.foldl_nil]
      omega

end BigEndian
