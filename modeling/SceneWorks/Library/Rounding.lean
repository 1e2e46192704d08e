import Mathlib.Data.Int.ConditionallyCompleteOrder
import Mathlib.Data.Rat.Floor

/-!
Rounding a rational number to an integer, with halves away from zero or to the even neighbour, and
to a fixed number of decimal places. Neither ever puts two numbers out of order.
-/

namespace Rounding

/-- To the nearest integer, halves away from zero. -/
def away (value : ℚ) : ℤ := if 0 ≤ value then ⌊value + 1 / 2⌋ else ⌈value - 1 / 2⌉

/-- To the nearest integer, halves to the even neighbour. -/
def even (value : ℚ) : ℤ :=
  if value - ⌊value⌋ < 1 / 2 then ⌊value⌋
  else if 1 / 2 < value - ⌊value⌋ then ⌊value⌋ + 1
  else if ⌊value⌋ % 2 = 0 then ⌊value⌋ else ⌊value⌋ + 1

/-- A rounding at the given number of decimal places. -/
def toPlaces (round : ℚ → ℤ) (places : ℕ) (value : ℚ) : ℚ :=
  round (value * 10 ^ places) / 10 ^ places

theorem away_mono : Monotone away := by
  intro a b hab
  unfold away
  split
  · rename_i ha
    rw [if_pos (ha.trans hab)]
    exact Int.floor_mono (by linarith)
  · rename_i ha
    split
    · rename_i hb
      have hleft : ⌈a - 1 / 2⌉ ≤ 0 := Int.ceil_le.mpr (by push_cast; linarith)
      have hright : 0 ≤ ⌊b + 1 / 2⌋ := Int.floor_nonneg.mpr (by linarith)
      exact hleft.trans hright
    · exact Int.ceil_mono (by linarith)

theorem floor_le_even (value : ℚ) : ⌊value⌋ ≤ even value := by
  unfold even
  split_ifs <;> omega

theorem even_le_floor_add_one (value : ℚ) : even value ≤ ⌊value⌋ + 1 := by
  unfold even
  split_ifs <;> omega

theorem even_mono : Monotone even := by
  intro a b hab
  rcases (Int.floor_mono hab).lt_or_eq with hfloor | hfloor
  · calc even a ≤ ⌊a⌋ + 1 := even_le_floor_add_one a
      _ ≤ ⌊b⌋ := hfloor
      _ ≤ even b := floor_le_even b
  · unfold even
    rw [hfloor]
    split_ifs <;> first | omega | (exfalso; linarith)

theorem toPlaces_mono {round : ℚ → ℤ} (h : Monotone round) (places : ℕ) :
    Monotone (toPlaces round places) := by
  intro a b hab
  have hpow : (0 : ℚ) < 10 ^ places := by positivity
  have hround : round (a * 10 ^ places) ≤ round (b * 10 ^ places) :=
    h (mul_le_mul_of_nonneg_right hab hpow.le)
  exact div_le_div_of_nonneg_right (by exact_mod_cast hround) hpow.le

end Rounding
