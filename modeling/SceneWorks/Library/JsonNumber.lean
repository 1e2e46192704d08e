import Mathlib.Algebra.Order.Field.Rat
import Mathlib.Tactic.FieldSimp
import Mathlib.Tactic.Ring

/-!
The numbers of JSON as the grammar writes them, and the rational number each stands for; the number
that a run of decimal digits stands for, with zeros at its ends.
-/

namespace JsonNumber

/-- The number a run of decimal digits stands for. -/
def natural (digits : List Char) : Nat := Nat.ofDigitChars 10 digits 0

def Digits (chars : List Char) : Prop := ∀ c ∈ chars, c.isDigit = true

section Digits

variable {chars front back : List Char}

theorem natural_append (front back : List Char) :
    natural (front ++ back) = natural front * 10 ^ back.length + natural back := by
  rw [natural, Nat.ofDigitChars_append, Nat.ofDigitChars_eq_ofDigitChars_zero, Nat.mul_comm]
  rfl

theorem natural_cons (c : Char) (chars : List Char) :
    natural (c :: chars) = (c.toNat - '0'.toNat) * 10 ^ chars.length + natural chars := by
  have hsplit := natural_append [c] chars
  rw [List.singleton_append] at hsplit
  rw [hsplit]
  simp [natural, Nat.ofDigitChars_cons]

theorem toNat_of_isDigit {c : Char} (h : c.isDigit = true) : 48 ≤ c.toNat ∧ c.toNat ≤ 57 := by
  rw [Char.isDigit, Bool.and_eq_true, decide_eq_true_eq, decide_eq_true_eq] at h
  exact ⟨UInt32.le_iff_toNat_le.mp h.1, UInt32.le_iff_toNat_le.mp h.2⟩

theorem natural_lt (h : Digits chars) : natural chars < 10 ^ chars.length := by
  induction chars with
  | nil => decide
  | cons c chars ih =>
      obtain ⟨hc, hchars⟩ := List.forall_mem_cons.mp h
      have hrest := ih hchars
      obtain ⟨-, hlast⟩ := toNat_of_isDigit hc
      have hdigit : c.toNat - '0'.toNat ≤ 9 := by
        have hzero : '0'.toNat = 48 := rfl
        omega
      rw [natural_cons, List.length_cons, Nat.pow_succ]
      have hfront := Nat.mul_le_mul_right (10 ^ chars.length) hdigit
      omega

/-- A digit before the others that is not a zero. -/
theorem le_natural {c : Char} (hc : c.isDigit = true) (hzero : c ≠ '0') :
    10 ^ chars.length ≤ natural (c :: chars) := by
  obtain ⟨hfirst, -⟩ := toNat_of_isDigit hc
  have hne : c.toNat ≠ 48 := fun h => hzero (Char.toNat_inj.mp h)
  have hdigit : 1 ≤ c.toNat - '0'.toNat := by
    have : '0'.toNat = 48 := rfl
    omega
  rw [natural_cons]
  have hfront := Nat.mul_le_mul_right (10 ^ chars.length) hdigit
  omega

theorem natural_eq_zero_iff (h : Digits chars) : natural chars = 0 ↔ ∀ c ∈ chars, c = '0' := by
  induction chars with
  | nil => exact ⟨fun _ => nofun, fun _ => rfl⟩
  | cons c chars ih =>
      obtain ⟨hc, hchars⟩ := List.forall_mem_cons.mp h
      rw [List.forall_mem_cons, ← ih hchars]
      constructor
      · intro hnatural
        by_cases hzero : c = '0'
        · rw [natural_cons] at hnatural
          exact ⟨hzero, by omega⟩
        · have hlarge : 10 ^ chars.length ≤ natural (c :: chars) := le_natural hc hzero
          have := Nat.pow_pos (n := chars.length) (show 0 < 10 by decide)
          omega
      · rintro ⟨rfl, hrest⟩
        rw [natural_cons, hrest]
        simp

/-- Zeros before a number do not count. -/
theorem natural_dropWhile (chars : List Char) :
    natural (chars.dropWhile (· = '0')) = natural chars := by
  induction chars with
  | nil => rfl
  | cons c chars ih =>
      by_cases hzero : c = '0'
      · rw [List.dropWhile_cons_of_pos (by simpa using hzero), ih, natural_cons, hzero]
        simp
      · rw [List.dropWhile_cons_of_neg (by simpa using hzero)]

end Digits

structure Exponent where
  marker : Char
  sign : Option Char
  digits : List Char
  marker_e : marker = 'e' ∨ marker = 'E'
  sign_valid : ∀ c ∈ sign, c = '+' ∨ c = '-'
  digits_nonempty : digits ≠ []
  digits_valid : Digits digits

namespace Exponent

def text (exponent : Exponent) : List Char :=
  exponent.marker :: (exponent.sign.toList ++ exponent.digits)

def value (exponent : Exponent) : Int :=
  if exponent.sign = some '-' then -(natural exponent.digits : Int) else natural exponent.digits

end Exponent

end JsonNumber

/-- A number token of JSON. -/
structure JsonNumber where
  minus : Bool
  integer : List Char
  fraction : Option (List Char)
  exponent : Option JsonNumber.Exponent
  integer_nonempty : integer ≠ []
  integer_valid : JsonNumber.Digits integer
  integer_leading : integer = ['0'] ∨ integer.head? ≠ some '0'
  fraction_nonempty : ∀ digits ∈ fraction, digits ≠ []
  fraction_valid : ∀ digits ∈ fraction, JsonNumber.Digits digits

namespace JsonNumber

variable (number : JsonNumber)

def fractionDigits : List Char := number.fraction.getD []

def fractionText : List Char := (number.fraction.map ('.' :: ·)).getD []

def exponentText : List Char := (number.exponent.map Exponent.text).getD []

def exponentValue : Int := (number.exponent.map Exponent.value).getD 0

def text : List Char :=
  (if number.minus then ['-'] else []) ++ (number.integer ++ number.fractionText ++
    number.exponentText)

def value : ℚ :=
  (if number.minus then -1 else 1) *
    (natural number.integer + natural number.fractionDigits / 10 ^ number.fractionDigits.length) *
    (10 : ℚ) ^ number.exponentValue

theorem fractionDigits_valid : Digits number.fractionDigits := by
  rw [fractionDigits]
  cases hfraction : number.fraction with
  | none => exact nofun
  | some digits => exact number.fraction_valid digits hfraction

theorem digits_valid : Digits (number.integer ++ number.fractionDigits) := by
  intro c hc
  rcases List.mem_append.mp hc with hc | hc
  · exact number.integer_valid c hc
  · exact number.fractionDigits_valid c hc

/-- The point moves all digits of the significand to the left of it. -/
theorem value_eq (h : number.minus = false) :
    number.value = natural (number.integer ++ number.fractionDigits) *
      (10 : ℚ) ^ (number.exponentValue - number.fractionDigits.length) := by
  have hten : (10 : ℚ) ≠ 0 := by decide
  have hpow : (10 : ℚ) ^ number.fractionDigits.length ≠ 0 := pow_ne_zero _ hten
  rw [value, h, natural_append, zpow_sub₀ hten, zpow_natCast]
  push_cast
  field_simp

end JsonNumber
