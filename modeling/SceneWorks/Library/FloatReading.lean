import Mathlib.Algebra.Order.Field.Rat
import Mathlib.Data.Rat.Cast.Order
import Mathlib.Tactic.Positivity
import SceneWorks.Library.FloatText

/-!
A binary64 value read as the rational number it stands for, and the decimal texts a
float is parsed from.
-/

namespace F64

/-- The exact value of a finite float. -/
def toRat (x : F64) : ℚ :=
  match x.decode with
  | .finite negative magnitude => signed negative magnitude / 2 ^ 1074
  | _ => 0

theorem decode_of_isFinite {x : F64} (h : x.isFinite = true) :
    ∃ negative magnitude, x.decode = .finite negative magnitude := by
  cases hx : x.decode with
  | finite negative magnitude => exact ⟨negative, magnitude, rfl⟩
  | infinite _ => simp [isFinite, hx] at h
  | nan => simp [isFinite, hx] at h

theorem lt_iff_toRat {x y : F64} (hx : x.isFinite = true) (hy : y.isFinite = true) :
    lt x y = true ↔ x.toRat < y.toRat := by
  obtain ⟨a, m, hx⟩ := decode_of_isFinite hx
  obtain ⟨b, n, hy⟩ := decode_of_isFinite hy
  simp only [lt, toRat, hx, hy, decide_eq_true_eq]
  rw [div_lt_div_iff_of_pos_right (by positivity), Int.cast_lt]

theorem eq_iff_toRat {x y : F64} (hx : x.isFinite = true) (hy : y.isFinite = true) :
    eq x y = true ↔ x.toRat = y.toRat := by
  obtain ⟨a, m, hx⟩ := decode_of_isFinite hx
  obtain ⟨b, n, hy⟩ := decode_of_isFinite hy
  simp only [eq, toRat, hx, hy, beq_iff_eq]
  rw [div_left_inj' (by positivity), Int.cast_inj]

theorem le_iff_toRat {x y : F64} (hx : x.isFinite = true) (hy : y.isFinite = true) :
    le x y = true ↔ x.toRat ≤ y.toRat := by
  rw [le, Bool.or_eq_true, lt_iff_toRat hx hy, eq_iff_toRat hx hy, le_iff_lt_or_eq]

/-- `*` on floats. -/
def mul (x y : F64) : F64 :=
  match x.decode, y.decode with
  | .nan, _ | _, .nan => encode .nan
  | .infinite a, .infinite b => encode (.infinite (xor a b))
  | .infinite a, .finite b n | .finite b n, .infinite a =>
      if n = 0 then encode .nan else encode (.infinite (xor a b))
  | .finite a m, .finite b n => encode (round (xor a b) (m * n) (2 ^ 1074))

def parseDigits (text : List Char) : Option Nat :=
  if text ≠ [] ∧ text.all Char.isDigit then some (Nat.ofDigitChars 10 text 0) else none

def parseExponent : List Char → Option Int
  | [] => some 0
  | mark :: rest =>
      if mark = 'e' ∨ mark = 'E' then
        match rest with
        | '-' :: digits => (parseDigits digits).map fun n => -(n : Int)
        | '+' :: digits => (parseDigits digits).map Int.ofNat
        | digits => (parseDigits digits).map Int.ofNat
      else none

/-- The digits of `12.5e3` and the power of ten they are scaled by. -/
def parseNumber (text : List Char) : Option (Nat × Int) := do
  let whole := text.takeWhile Char.isDigit
  let rest := text.dropWhile Char.isDigit
  let (fraction, rest) := match rest with
    | '.' :: rest => (rest.takeWhile Char.isDigit, rest.dropWhile Char.isDigit)
    | rest => ([], rest)
  let digits ← parseDigits (whole ++ fraction)
  let exponent ← parseExponent rest
  some (digits, exponent - fraction.length)

def scaled (negative : Bool) (digits : Nat) (exponent : Int) : Value :=
  round negative (digits * 2 ^ 1074 * 10 ^ exponent.toNat) (10 ^ (-exponent).toNat)

/-- `str::parse::<f64>`. -/
def parse (text : String) : Option F64 :=
  let (negative, body) := match text.toList with
    | '-' :: rest => (true, rest)
    | '+' :: rest => (false, rest)
    | rest => (false, rest)
  let lower := String.ofList (body.map Char.toLower)
  if lower = "inf" ∨ lower = "infinity" then some (encode (.infinite negative))
  else if lower = "nan" then some (encode .nan)
  else (parseNumber body).map fun number => encode (scaled negative number.1 number.2)

example : parse "-12.5e-1" = some (encode (.finite true (5 * 2 ^ 1072))) ∧
    parse " 1" = none ∧ parse ".5" = some (ofRatio 1 2) ∧ parse "." = none := by
  decide +kernel

end F64
