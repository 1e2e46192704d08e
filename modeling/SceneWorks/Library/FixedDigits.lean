import Mathlib.Tactic.IntervalCases
import SceneWorks.Library.Text

/-!
Numbers written with a fixed number of decimal digits: they read back, and they are ordered as the
texts are.
-/

namespace FixedDigits

def digits : Nat → Nat → List Char
  | 0, _ => []
  | width + 1, n => digits width (n / 10) ++ [Nat.digitChar (n % 10)]

theorem length_digits (width n : Nat) : (digits width n).length = width := by
  induction width generalizing n with
  | zero => rfl
  | succ width ih => rw [digits, List.length_append, ih]; rfl

theorem digitValue_digitChar {n : Nat} (h : n < 10) :
    Text.digitValue (Nat.digitChar n) = some n := by
  interval_cases n <;> decide

theorem foldlM_digits {width n : Nat} (h : n < 10 ^ width) (acc : Nat) :
    (digits width n).foldlM (fun acc c => (Text.digitValue c).map fun d => acc * 10 + d) acc =
      some (acc * 10 ^ width + n) := by
  induction width generalizing n with
  | zero =>
      have hzero : n = 0 := by simpa using h
      rw [hzero]
      simp [digits]
  | succ width ih =>
      have hfront : n / 10 < 10 ^ width := by
        rw [Nat.pow_succ] at h
        omega
      have hlast : n % 10 < 10 := Nat.mod_lt n (by decide)
      rw [digits, List.foldlM_append, ih hfront]
      simp only [List.foldlM_cons, List.foldlM_nil, digitValue_digitChar hlast, Option.map_some,
        Option.bind_eq_bind, Option.bind_some, Option.pure_def]
      congr 1
      rw [Nat.pow_succ, Nat.add_mul, Nat.mul_assoc]
      omega

theorem parseDigits_digits {width n : Nat} (hwidth : 0 < width) (h : n < 10 ^ width) :
    Text.parseDigits (digits width n) = some n := by
  have hread := foldlM_digits h 0
  rw [Nat.zero_mul, Nat.zero_add] at hread
  cases hdigits : digits width n with
  | nil =>
      have hlength := length_digits width n
      rw [hdigits] at hlength
      exact absurd hlength hwidth.ne
  | cons c cs =>
      rw [hdigits] at hread
      exact hread

theorem isDigit_of_mem_digits {width n : Nat} {c : Char} (h : c ∈ digits width n) :
    c.isDigit = true := by
  induction width generalizing n with
  | zero => cases h
  | succ width ih =>
      rw [digits, List.mem_append, List.mem_singleton] at h
      rcases h with h | rfl
      · exact ih h
      · rw [Nat.isDigit_digitChar]
        exact decide_eq_true (Nat.mod_lt n (by decide))

theorem digits_zero (width : Nat) : digits width 0 = List.replicate width '0' := by
  induction width with
  | zero => rfl
  | succ width ih =>
      have hlast : Nat.digitChar (0 % 10) = '0' := rfl
      rw [digits, Nat.zero_div, ih, hlast, List.replicate_succ']

/-- The decimal digits of a number, with zeros before them up to the width. -/
theorem replicate_append_toDigits {width n : Nat} (hwidth : 0 < width) (h : n < 10 ^ width) :
    List.replicate (width - (Nat.toDigits 10 n).length) '0' ++ Nat.toDigits 10 n =
      digits width n := by
  induction width generalizing n with
  | zero => cases hwidth
  | succ width ih =>
      by_cases hsmall : n < 10
      · rw [Nat.toDigits_of_lt_base hsmall, digits, Nat.div_eq_of_lt hsmall,
          Nat.mod_eq_of_lt hsmall, digits_zero]
        rfl
      · have hfront : n / 10 < 10 ^ width := by
          rw [Nat.pow_succ] at h
          omega
        have hpositive : 0 < width := by
          rw [Nat.pos_iff_ne_zero]
          rintro rfl
          rw [Nat.pow_zero] at hfront
          omega
        have hsplit : Nat.toDigits 10 n = Nat.toDigits 10 (n / 10) ++ [Nat.digitChar (n % 10)] := by
          have hlast : n % 10 < 10 := Nat.mod_lt n (by decide)
          rw [← Nat.toDigits_of_lt_base hlast,
            Nat.toDigits_append_toDigits (by decide) (by omega) hlast, Nat.div_add_mod]
        rw [hsplit, List.length_append, List.length_singleton, Nat.succ_sub_succ_eq_sub,
          ← List.append_assoc, ih hpositive hfront, digits]

/-- No sign stands before the digits. -/
theorem exists_digits_cons {width : Nat} (hwidth : 0 < width) (n : Nat) :
    ∃ c chars, digits width n = c :: chars ∧ c ≠ '-' ∧ c ≠ '+' := by
  cases hdigits : digits width n with
  | nil =>
      have hlength := length_digits width n
      rw [hdigits] at hlength
      exact absurd hlength hwidth.ne
  | cons c chars =>
      have hdigit : c.isDigit = true := by
        apply isDigit_of_mem_digits
        rw [hdigits]
        exact List.mem_cons_self
      refine ⟨c, chars, rfl, ?_, ?_⟩ <;> rintro rfl <;> cases hdigit

theorem parseI64_digits {width n : Nat} (hwidth : 0 < width) (h : n < 10 ^ width)
    (hrange : n < 2 ^ 63) : Text.parseI64 (String.ofList (digits width n)) = some (n : Int) := by
  have hparse := parseDigits_digits hwidth h
  obtain ⟨c, chars, hdigits, hminus, hplus⟩ := exists_digits_cons hwidth n
  rw [hdigits] at hparse
  have hvalue : Text.parseI64 (String.ofList (c :: chars)) =
      ((Text.parseDigits (c :: chars)).map fun n : Nat => (n : Int)).filter
        fun n => -(2 ^ 63) ≤ n ∧ n < 2 ^ 63 := by
    rw [Text.parseI64, String.toList_ofList]
    split
    · rename_i heq
      exact absurd (List.cons.inj heq).1 hminus
    · rename_i heq
      exact absurd (List.cons.inj heq).1 hplus
    · cases Text.parseDigits (c :: chars) <;> rfl
  rw [hdigits, hvalue, hparse, Option.map_some, Option.filter_some, if_pos]
  exact decide_eq_true (by omega)

theorem parseU32_digits {width n : Nat} (hwidth : 0 < width) (h : n < 10 ^ width)
    (hrange : n < 2 ^ 32) :
    Text.parseU32 (String.ofList (digits width n)) = some (UInt32.ofNat n) := by
  have hparse := parseDigits_digits hwidth h
  obtain ⟨c, chars, hdigits, -, hplus⟩ := exists_digits_cons hwidth n
  rw [hdigits] at hparse
  have hvalue : Text.parseU32 (String.ofList (c :: chars)) =
      ((Text.parseDigits (c :: chars)).filter fun n => n < 2 ^ 32).map UInt32.ofNat := by
    rw [Text.parseU32, String.toList_ofList]
    split
    · rename_i heq
      exact absurd (List.cons.inj heq).1 hplus
    · rfl
  rw [hdigits, hvalue, hparse, Option.filter_some, if_pos (decide_eq_true hrange), Option.map_some]

/-- Texts of one length are compared before what follows them. -/
theorem append_lt_append_iff {a b x y : List Char} (h : a.length = b.length) :
    a ++ x < b ++ y ↔ a < b ∨ a = b ∧ x < y := by
  induction a generalizing b with
  | nil =>
      obtain rfl := List.length_eq_zero_iff.mp h.symm
      simp
  | cons c a ih =>
      cases b with
      | nil => cases h
      | cons d b =>
          have hlength : a.length = b.length := Nat.succ.inj h
          rw [List.cons_append, List.cons_append, List.cons_lt_cons_iff, List.cons_lt_cons_iff,
            ih hlength, List.cons.injEq]
          tauto

theorem digitChar_lt_iff {a b : Nat} (ha : a < 10) (hb : b < 10) :
    Nat.digitChar a < Nat.digitChar b ↔ a < b := by
  interval_cases a <;> interval_cases b <;> decide

theorem digits_lt_iff {width a b : Nat} (ha : a < 10 ^ width) (hb : b < 10 ^ width) :
    digits width a < digits width b ↔ a < b := by
  induction width generalizing a b with
  | zero =>
      have hzero : a = 0 ∧ b = 0 := by simpa using And.intro ha hb
      rw [hzero.1, hzero.2]
      simp
  | succ width ih =>
      rw [Nat.pow_succ] at ha hb
      have hfrontA : a / 10 < 10 ^ width := by omega
      have hfrontB : b / 10 < 10 ^ width := by omega
      have hlength : (digits width (a / 10)).length = (digits width (b / 10)).length := by
        rw [length_digits, length_digits]
      have hsame : digits width (a / 10) = digits width (b / 10) ↔ a / 10 = b / 10 := by
        constructor
        · intro h
          have hlt := ih hfrontA hfrontB
          have hgt := ih hfrontB hfrontA
          rw [h] at hlt hgt
          have hirrefl : ¬ digits width (b / 10) < digits width (b / 10) := List.lt_irrefl _
          have := mt hlt.mpr hirrefl
          have := mt hgt.mpr hirrefl
          omega
        · exact fun h => by rw [h]
      have hlast : [Nat.digitChar (a % 10)] < [Nat.digitChar (b % 10)] ↔ a % 10 < b % 10 := by
        rw [List.cons_lt_cons_iff, digitChar_lt_iff (Nat.mod_lt a (by decide))
          (Nat.mod_lt b (by decide))]
        simp
      rw [digits, digits, append_lt_append_iff hlength, ih hfrontA hfrontB, hsame, hlast]
      omega

theorem digits_inj {width a b : Nat} (ha : a < 10 ^ width) (hb : b < 10 ^ width) :
    digits width a = digits width b ↔ a = b := by
  constructor
  · intro h
    have hlt := digits_lt_iff ha hb
    have hgt := digits_lt_iff hb ha
    rw [h] at hlt hgt
    have := mt hlt.mpr (List.lt_irrefl _)
    have := mt hgt.mpr (List.lt_irrefl _)
    omega
  · exact fun h => by rw [h]

/-- A field of fixed width, and then a separator, is compared before what follows. -/
theorem field_lt_iff {width a b : Nat} (ha : a < 10 ^ width) (hb : b < 10 ^ width)
    {separator : Char} {x y : List Char} :
    digits width a ++ separator :: x < digits width b ++ separator :: y ↔
      a < b ∨ a = b ∧ x < y := by
  rw [append_lt_append_iff (by rw [length_digits, length_digits]), digits_lt_iff ha hb,
    digits_inj ha hb, List.cons_lt_cons_iff]
  simp

end FixedDigits
