import SceneWorks.Library.Float64
import Mathlib.Algebra.Order.Field.Rat
import Mathlib.Data.Nat.Log
import Mathlib.Tactic.FieldSimp
import Mathlib.Tactic.Ring

/-!
The texts of a float. Both forms write the shortest decimal that reads back as the value, the
nearest of those of one length: `{}` in positional notation, `{:?}` with a fraction always and with
an exponent far from one. What reads back is told apart by its text.
-/

namespace F64

/-- A decimal `digits * 10 ^ (309 - scale)`; no float is as large as `10 ^ 309`. -/
structure Decimal where
  digits : Nat
  scale : Nat

/-- The decimal at a scale that reads back; of two the nearer one, and the larger at a tie. The
magnitude counts the given parts of one. -/
def decimalAt (reads : Decimal → Bool) (parts magnitude scale : Nat) : Option Decimal :=
  let unit := 10 ^ 309 * parts
  let below := magnitude * 10 ^ scale / unit
  let rest := magnitude * 10 ^ scale % unit
  let candidates : List Decimal :=
    if 2 * rest < unit then [⟨below, scale⟩, ⟨below + 1, scale⟩]
    else [⟨below + 1, scale⟩, ⟨below, scale⟩]
  candidates.find? reads

/-- Whether the decimal is read as the magnitude. -/
def readsBack (negative : Bool) (magnitude : Nat) (decimal : Decimal) : Bool :=
  round negative (decimal.digits * 10 ^ 309 * 2 ^ 1074) (10 ^ decimal.scale) =
    .finite negative magnitude

/-- All digits of the magnitude: it is a multiple of `2 ^ -1074`. -/
def exactDecimal (magnitude : Nat) : Decimal := ⟨magnitude * 5 ^ 1074, 309 + 1074⟩

def shortest (negative : Bool) (magnitude : Nat) : Decimal :=
  let found := (List.range 1383).findSome?
    (decimalAt (readsBack negative magnitude) (2 ^ 1074) magnitude)
  found.getD (exactDecimal magnitude)

def padded (width n : Nat) : List Char :=
  let digits := Nat.toDigits 10 n
  List.replicate (width - digits.length) '0' ++ digits

/-- Positional notation; a whole number has a fraction only where one is asked for. -/
def positional (fraction : Bool) (decimal : Decimal) : List Char :=
  if decimal.scale ≤ 309 then
    Nat.toDigits 10 (decimal.digits * 10 ^ (309 - decimal.scale)) ++
      if fraction then ['.', '0'] else []
  else
    let places := decimal.scale - 309
    Nat.toDigits 10 (decimal.digits / 10 ^ places) ++
      '.' :: padded places (decimal.digits % 10 ^ places)

def intDigits : Int → List Char
  | .ofNat n => Nat.toDigits 10 n
  | .negSucc n => '-' :: Nat.toDigits 10 (n + 1)

def exponential (decimal : Decimal) : List Char :=
  match Nat.toDigits 10 decimal.digits with
  | [] => []
  | first :: rest =>
      first :: (if rest = [] then [] else '.' :: rest) ++
        'e' :: intDigits (rest.length + 309 - decimal.scale)

def signed? (negative : Bool) (text : List Char) : List Char :=
  if negative then '-' :: text else text

/-- The text of a value, given how its magnitude is written. -/
def valueText (text : Bool → Nat → List Char) : Value → List Char
  | .nan => ['N', 'a', 'N']
  | .infinite negative => signed? negative ['i', 'n', 'f']
  | .finite negative magnitude => signed? negative (text negative magnitude)

def displayMagnitude (negative : Bool) (magnitude : Nat) : List Char :=
  positional false (shortest negative magnitude)

/-- `{}` of a float. -/
def display (x : F64) : String := String.ofList (valueText displayMagnitude x.decode)

/-- The magnitudes `{:?}` writes with an exponent: from `1e16` on, and below `1e-4`. -/
def isExponential (magnitude : Nat) : Bool :=
  10 ^ 16 * 2 ^ 1074 ≤ magnitude ||
    (magnitude ≠ 0 && lt (encode (.finite false magnitude)) (ofRatio 1 10000))

def debugMagnitude (negative : Bool) (magnitude : Nat) : List Char :=
  let decimal := shortest negative magnitude
  if isExponential magnitude then exponential decimal else positional true decimal

/-- `{:?}` of a float. -/
def debug (x : F64) : String := String.ofList (valueText debugMagnitude x.decode)

section Reading

theorem nearestEven_mul {k : Nat} (hk : 0 < k) (num den : Nat) :
    nearestEven (num * k) (den * k) = nearestEven num den := by
  have htwice : 2 * (num * k % (den * k)) = 2 * (num % den) * k := by
    rw [Nat.mul_mod_mul_right, Nat.mul_assoc]
  simp only [nearestEven, Nat.mul_div_mul_right _ _ hk, htwice, Nat.mul_lt_mul_right hk]

theorem round_mul {k : Nat} (hk : 0 < k) (negative : Bool) (num den : Nat) :
    round negative (num * k) (den * k) = round negative num den := by
  simp only [round, Nat.mul_div_mul_right _ _ hk, Nat.mul_right_comm den k, nearestEven_mul hk]

/-- Rounding depends on the quotient alone. -/
theorem round_congr (negative : Bool) {num den num' den' : Nat} (hden : 0 < den) (hden' : 0 < den')
    (h : num * den' = num' * den) : round negative num den = round negative num' den' := by
  rw [← round_mul hden' negative num den, h, Nat.mul_comm den den', round_mul hden]

theorem nearestEven_exact {den : Nat} (hden : 0 < den) (n : Nat) :
    nearestEven (n * den) den = n := by
  simp [nearestEven, Nat.mul_div_cancel n hden, Nat.mul_mod_left, hden]

theorem round_of_log2 {magnitude : Nat} (significand shift : Nat)
    (hmagnitude : magnitude = significand * 2 ^ shift)
    (hshift : magnitude.log2 + 1 - 53 = shift) (hmax : magnitude ≤ maxMagnitude) (negative : Bool) :
    round negative magnitude 1 = .finite negative magnitude := by
  have hexact : nearestEven magnitude (1 * 2 ^ shift) = significand := by
    rw [Nat.one_mul, hmagnitude]
    exact nearestEven_exact (Nat.two_pow_pos shift) significand
  simp only [round, Nat.div_one, hshift, hexact, ← hmagnitude, if_neg (Nat.not_lt.mpr hmax)]

theorem round_subnormal {fraction : Nat} (h : fraction < 2 ^ 52) (negative : Bool) :
    round negative fraction 1 = .finite negative fraction := by
  have hlog : fraction.log2 < 52 := by
    by_cases hzero : fraction = 0
    · rw [hzero, Nat.log2_zero]
      omega
    · exact (Nat.log2_lt hzero).mpr h
  refine round_of_log2 fraction 0 (by omega) (by omega) ?_ negative
  exact (Nat.le_of_lt h).trans (by decide +kernel)

theorem round_normal {fraction shift : Nat} (h : fraction < 2 ^ 52) (hshift : shift ≤ 2045)
    (negative : Bool) :
    round negative ((2 ^ 52 + fraction) * 2 ^ shift) 1 =
      .finite negative ((2 ^ 52 + fraction) * 2 ^ shift) := by
  have hpos : 0 < 2 ^ shift := Nat.two_pow_pos shift
  have hlog : ((2 ^ 52 + fraction) * 2 ^ shift).log2 = 52 + shift := by
    refine (Nat.log2_eq_iff (Nat.mul_pos (by omega) hpos).ne').mpr ⟨?_, ?_⟩
    · rw [Nat.pow_add]
      exact Nat.mul_le_mul_right _ (by omega)
    · rw [show 52 + shift + 1 = 53 + shift by omega, Nat.pow_add]
      exact Nat.mul_lt_mul_of_pos_right (by omega) hpos
  refine round_of_log2 (2 ^ 52 + fraction) shift rfl (by omega) ?_ negative
  have hsignificand : 2 ^ 52 + fraction ≤ 2 ^ 53 - 1 := by omega
  have hpower : ∀ limit, shift ≤ limit → 2 ^ shift ≤ 2 ^ limit :=
    fun _ => Nat.pow_le_pow_right Nat.two_pos
  exact Nat.mul_le_mul hsignificand (hpower 2045 hshift)

/-- What a bit pattern stands for is its own rounding. -/
theorem round_decode {x : F64} {negative : Bool} {magnitude : Nat}
    (h : x.decode = .finite negative magnitude) :
    round negative magnitude 1 = .finite negative magnitude := by
  simp only [decode] at h
  generalize hexponent : x.bits.toNat / 2 ^ 52 % 2 ^ 11 = exponent at h
  generalize hfraction : x.bits.toNat % 2 ^ 52 = fraction at h
  have hlt : fraction < 2 ^ 52 := hfraction ▸ Nat.mod_lt _ (Nat.two_pow_pos 52)
  have hexponentLt : exponent < 2 ^ 11 := hexponent ▸ Nat.mod_lt _ (Nat.two_pow_pos 11)
  split at h
  · split at h <;> cases h
  · next hfinite =>
      split at h
      · obtain ⟨-, rfl⟩ := Value.finite.inj h
        exact round_subnormal hlt negative
      · obtain ⟨-, rfl⟩ := Value.finite.inj h
        exact round_normal hlt (by omega) negative

/-- The number a decimal stands for. -/
def Decimal.value (decimal : Decimal) : ℚ := decimal.digits * 10 ^ (309 - decimal.scale : ℤ)

theorem value_eq_iff (one other : Decimal) :
    one.value = other.value ↔
      one.digits * 10 ^ other.scale = other.digits * 10 ^ one.scale := by
  have hten : (10 : ℚ) ≠ 0 := by norm_num
  have hunit : (10 : ℚ) ^ (309 : ℤ) ≠ 0 := zpow_ne_zero _ hten
  simp only [Decimal.value, zpow_sub₀ hten, zpow_natCast, mul_div_assoc']
  rw [div_eq_div_iff (pow_ne_zero _ hten) (pow_ne_zero _ hten), mul_right_comm,
    mul_right_comm (other.digits : ℚ), mul_left_inj' hunit]
  exact_mod_cast Iff.rfl

theorem readsBack_congr {one other : Decimal} (h : one.value = other.value) (negative : Bool)
    (magnitude : Nat) : readsBack negative magnitude one = readsBack negative magnitude other := by
  have hdigits := (value_eq_iff one other).mp h
  have hround : round negative (one.digits * 10 ^ 309 * 2 ^ 1074) (10 ^ one.scale) =
      round negative (other.digits * 10 ^ 309 * 2 ^ 1074) (10 ^ other.scale) := by
    refine round_congr negative (Nat.pow_pos (by decide)) (Nat.pow_pos (by decide)) ?_
    rw [Nat.mul_assoc one.digits, Nat.mul_assoc other.digits, Nat.mul_right_comm, hdigits,
      Nat.mul_right_comm]
  rw [readsBack, readsBack, hround]

theorem readsBack_exactDecimal {x : F64} {negative : Bool} {magnitude : Nat}
    (h : x.decode = .finite negative magnitude) :
    readsBack negative magnitude (exactDecimal magnitude) = true := by
  have hpower : 5 ^ 1074 * 10 ^ 309 * 2 ^ 1074 = 10 ^ (309 + 1074) := by decide +kernel
  rw [readsBack, decide_eq_true_eq, exactDecimal, ← round_decode h]
  refine round_congr negative (Nat.pow_pos (by decide)) Nat.one_pos ?_
  rw [Nat.mul_one, ← hpower, Nat.mul_assoc, Nat.mul_assoc, ← Nat.mul_assoc (5 ^ 1074)]

/-- The text written for a value reads back as it. -/
theorem readsBack_shortest {x : F64} {negative : Bool} {magnitude : Nat}
    (h : x.decode = .finite negative magnitude) :
    readsBack negative magnitude (shortest negative magnitude) = true := by
  unfold shortest
  dsimp only
  cases hfound : (List.range 1383).findSome?
      (decimalAt (readsBack negative magnitude) (2 ^ 1074) magnitude) with
  | none => exact readsBack_exactDecimal h
  | some decimal =>
      obtain ⟨scale, -, hscale⟩ := List.exists_of_findSome?_eq_some hfound
      exact List.find?_some hscale

theorem magnitude_eq_of_value {one other : Decimal} (h : one.value = other.value) {negative : Bool}
    {m n : Nat} (hm : readsBack negative m one = true) (hn : readsBack negative n other = true) :
    m = n := by
  rw [readsBack_congr h, readsBack, decide_eq_true_eq] at hm
  rw [readsBack, decide_eq_true_eq] at hn
  exact (Value.finite.inj (hm.symm.trans hn)).2

def wholeDigits (text : List Char) : List Char := text.takeWhile Char.isDigit

def fractionDigits (text : List Char) : List Char :=
  match text.dropWhile Char.isDigit with
  | '.' :: rest => rest.takeWhile Char.isDigit
  | _ => []

def signedDigits : List Char → ℤ
  | '-' :: digits => -(Nat.ofDigitChars 10 digits 0 : ℤ)
  | digits => Nat.ofDigitChars 10 digits 0

def exponentOf (text : List Char) : ℤ := signedDigits ((text.dropWhile (· ≠ 'e')).drop 1)

/-- The number a text stands for, in either notation. -/
def reading (text : List Char) : ℚ :=
  Nat.ofDigitChars 10 (wholeDigits text ++ fractionDigits text) 0 *
    10 ^ (exponentOf text - (fractionDigits text).length)

theorem takeWhile_digits {digits : List Char} (h : ∀ c ∈ digits, c.isDigit = true)
    (rest : List Char) (hrest : ∀ c, rest.head? = some c → c.isDigit = false) :
    (digits ++ rest).takeWhile Char.isDigit = digits ∧
      (digits ++ rest).dropWhile Char.isDigit = rest := by
  rw [List.takeWhile_append_of_pos h, List.dropWhile_append_of_pos h]
  cases rest with
  | nil => simp
  | cons c rest => simp [hrest c rfl]

theorem toDigits_isDigit (n : Nat) : ∀ c ∈ Nat.toDigits 10 n, c.isDigit = true :=
  fun _ hc => Nat.isDigit_of_mem_toDigits (by decide) (by decide) hc

theorem padded_isDigit (width n : Nat) : ∀ c ∈ padded width n, c.isDigit = true := by
  intro c hc
  rcases List.mem_append.mp hc with hzero | hdigit
  · rw [List.eq_of_mem_replicate hzero]
    rfl
  · exact toDigits_isDigit n c hdigit

theorem padded_length {width n : Nat} (hwidth : 0 < width) (h : n < 10 ^ width) :
    (padded width n).length = width := by
  have hle : (Nat.toDigits 10 n).length ≤ width :=
    (Nat.length_toDigits_le_iff (by decide) hwidth).mpr h
  rw [padded, List.length_append, List.length_replicate, Nat.sub_add_cancel hle]

theorem ofDigitChars_padded (width n : Nat) : Nat.ofDigitChars 10 (padded width n) 0 = n := by
  rw [padded, Nat.ofDigitChars_append, Nat.ofDigitChars_replicate_zero, Nat.mul_zero,
    Nat.ofDigitChars_ten_toDigits]

/-- What may follow the digits: nothing, or an exponent. -/
def exponentText : Option ℤ → List Char
  | none => []
  | some exponent => 'e' :: intDigits exponent

theorem exponentText_head (exponent : Option ℤ) :
    ∀ c, (exponentText exponent).head? = some c → c.isDigit = false := by
  cases exponent with
  | none => simp [exponentText]
  | some exponent =>
      rintro c hc
      obtain rfl : 'e' = c := by simpa [exponentText] using hc
      decide

theorem signedDigits_intDigits (n : ℤ) : signedDigits (intDigits n) = n := by
  cases n with
  | ofNat n =>
      rw [intDigits, signedDigits]
      · rw [Nat.ofDigitChars_ten_toDigits]
        rfl
      · intro rest hminus
        have hdigit := toDigits_isDigit n '-' (by simp [hminus])
        exact absurd hdigit (by decide)
  | negSucc n => simp [intDigits, signedDigits, Nat.ofDigitChars_ten_toDigits, Int.negSucc_eq]

theorem exponentOf_append {digits : List Char} (h : ∀ c ∈ digits, c ≠ 'e') (exponent : Option ℤ) :
    exponentOf (digits ++ exponentText exponent) = exponent.getD 0 := by
  have hdigits : ∀ c ∈ digits, (decide (c ≠ 'e')) = true := by simpa using h
  rw [exponentOf, List.dropWhile_append_of_pos hdigits]
  cases exponent with
  | none => rfl
  | some exponent => simp [exponentText, signedDigits_intDigits]

theorem ne_e_of_isDigit {c : Char} (h : c.isDigit = true) : c ≠ 'e' := by
  rintro rfl
  exact absurd h (by decide)

theorem reading_whole {whole : List Char} (hwhole : ∀ c ∈ whole, c.isDigit = true)
    (exponent : Option ℤ) :
    reading (whole ++ exponentText exponent) =
      Nat.ofDigitChars 10 whole 0 * 10 ^ (exponent.getD 0) := by
  obtain ⟨htake, hdrop⟩ := takeWhile_digits hwhole _ (exponentText_head exponent)
  have hfraction : fractionDigits (whole ++ exponentText exponent) = [] := by
    rw [fractionDigits, hdrop]
    cases exponent <;> rfl
  have hexponent := exponentOf_append (fun c hc => ne_e_of_isDigit (hwhole c hc)) exponent
  simp only [reading, wholeDigits, htake, hfraction, hexponent, List.append_nil, List.length_nil,
    Nat.cast_zero, sub_zero]

theorem reading_fraction {whole fraction : List Char} (hwhole : ∀ c ∈ whole, c.isDigit = true)
    (hfraction : ∀ c ∈ fraction, c.isDigit = true) (exponent : Option ℤ) :
    reading (whole ++ '.' :: (fraction ++ exponentText exponent)) =
      Nat.ofDigitChars 10 (whole ++ fraction) 0 * 10 ^ (exponent.getD 0 - fraction.length) := by
  obtain ⟨htake, hdrop⟩ := takeWhile_digits hwhole ('.' :: (fraction ++ exponentText exponent))
    (by simp)
  have hdigits : fractionDigits (whole ++ '.' :: (fraction ++ exponentText exponent)) =
      fraction := by
    rw [fractionDigits, hdrop]
    exact (takeWhile_digits hfraction _ (exponentText_head exponent)).1
  have hexponent : exponentOf (whole ++ '.' :: (fraction ++ exponentText exponent)) =
      exponent.getD 0 := by
    rw [← List.cons_append, ← List.append_assoc]
    refine exponentOf_append ?_ exponent
    intro c hc
    rcases List.mem_append.mp hc with hc | hc
    · exact ne_e_of_isDigit (hwhole c hc)
    · rcases List.mem_cons.mp hc with rfl | hc
      · decide
      · exact ne_e_of_isDigit (hfraction c hc)
  simp only [reading, wholeDigits, htake, hdigits, hexponent]

theorem reading_positional (fraction : Bool) (decimal : Decimal) :
    reading (positional fraction decimal) = decimal.value := by
  unfold positional
  split
  · next hscale =>
      have hvalue : decimal.value = (decimal.digits * 10 ^ (309 - decimal.scale) : ℕ) := by
        rw [Decimal.value, Nat.cast_mul, Nat.cast_pow, ← zpow_natCast, Nat.cast_sub hscale]
        rfl
      cases fraction with
      | false =>
          have hwhole := reading_whole
            (toDigits_isDigit (decimal.digits * 10 ^ (309 - decimal.scale))) none
          rw [Nat.ofDigitChars_ten_toDigits] at hwhole
          simpa [exponentText, hvalue] using hwhole
      | true =>
          have hdigit : ∀ c ∈ ['0'], c.isDigit = true := by simp
          have hzero := reading_fraction
            (toDigits_isDigit (decimal.digits * 10 ^ (309 - decimal.scale))) hdigit none
          have htimes :
              (Nat.ofDigitChars 10 ['0'] (decimal.digits * 10 ^ (309 - decimal.scale)) : ℚ) =
              decimal.value * 10 := by
            rw [Nat.ofDigitChars_cons, Nat.ofDigitChars_nil, hvalue]
            push_cast
            ring
          rw [Nat.ofDigitChars_append, Nat.ofDigitChars_ten_toDigits, htimes] at hzero
          simpa [exponentText] using hzero
  · next hscale =>
      have hplaces := reading_fraction
        (toDigits_isDigit (decimal.digits / 10 ^ (decimal.scale - 309)))
        (padded_isDigit (decimal.scale - 309) (decimal.digits % 10 ^ (decimal.scale - 309))) none
      have hrest : decimal.digits % 10 ^ (decimal.scale - 309) < 10 ^ (decimal.scale - 309) :=
        Nat.mod_lt _ (Nat.pow_pos (by decide))
      have hexponent : (0 : ℤ) - (decimal.scale - 309 : ℕ) = 309 - decimal.scale := by omega
      rw [Nat.ofDigitChars_append, Nat.ofDigitChars_ten_toDigits,
        Nat.ofDigitChars_eq_ofDigitChars_zero, ofDigitChars_padded, padded_length (by omega) hrest,
        Nat.div_add_mod, Option.getD_none, hexponent] at hplaces
      simpa [exponentText, Decimal.value] using hplaces

theorem reading_exponential (decimal : Decimal) :
    reading (exponential decimal) = decimal.value := by
  unfold exponential
  split
  · next hnil => exact absurd hnil Nat.toDigits_ne_nil
  · next first rest hdigits =>
      have hall := toDigits_isDigit decimal.digits
      rw [hdigits] at hall
      have hfirst : ∀ c ∈ [first], c.isDigit = true := by simpa using hall first (by simp)
      have hrest : ∀ c ∈ rest, c.isDigit = true := fun c hc => hall c (by simp [hc])
      have hnumber : Nat.ofDigitChars 10 ([first] ++ rest) 0 = decimal.digits := by
        rw [List.singleton_append, ← hdigits, Nat.ofDigitChars_ten_toDigits]
      have hexponent : (rest.length + 309 - decimal.scale : ℤ) - rest.length =
          309 - decimal.scale := by omega
      by_cases hlone : rest = []
      · have hwhole := reading_whole hfirst (some (309 - decimal.scale))
        rw [hlone, List.append_nil] at hnumber
        rw [hnumber, Option.getD_some] at hwhole
        simpa [exponentText, hlone, Decimal.value] using hwhole
      · have hplaces := reading_fraction hfirst hrest (some (rest.length + 309 - decimal.scale))
        rw [hnumber, Option.getD_some, hexponent] at hplaces
        simpa [exponentText, hlone, Decimal.value] using hplaces

theorem positional_head (fraction : Bool) (decimal : Decimal) :
    ∃ c, (positional fraction decimal).head? = some c ∧ c.isDigit = true := by
  have hhead : ∀ (n : Nat) (rest : List Char),
      ∃ c, (Nat.toDigits 10 n ++ rest).head? = some c ∧ c.isDigit = true := by
    intro n rest
    cases hdigits : Nat.toDigits 10 n with
    | nil => exact absurd hdigits Nat.toDigits_ne_nil
    | cons c digits => exact ⟨c, rfl, toDigits_isDigit n c (by simp [hdigits])⟩
  unfold positional
  split <;> exact hhead _ _

theorem exponential_head (decimal : Decimal) :
    ∃ c, (exponential decimal).head? = some c ∧ c.isDigit = true := by
  unfold exponential
  split
  · next hnil => exact absurd hnil Nat.toDigits_ne_nil
  · next first rest hdigits =>
      exact ⟨first, rfl, toDigits_isDigit decimal.digits first (by simp [hdigits])⟩

/-- A text of a magnitude that starts with a digit and reads as the decimal. -/
structure Writes (text : Bool → Nat → List Char) : Prop where
  head : ∀ negative magnitude, ∃ c, (text negative magnitude).head? = some c ∧ c.isDigit = true
  value : ∀ negative magnitude, reading (text negative magnitude) =
    (shortest negative magnitude).value

theorem writes_display : Writes displayMagnitude where
  head := fun _ _ => positional_head _ _
  value := fun _ _ => reading_positional _ _

theorem writes_debug : Writes debugMagnitude where
  head := by
    intro negative magnitude
    unfold debugMagnitude
    dsimp only
    split
    · exact exponential_head _
    · exact positional_head _ _
  value := by
    intro negative magnitude
    unfold debugMagnitude
    dsimp only
    split
    · exact reading_exponential _
    · exact reading_positional _ _

theorem signed?_inj {one other : Bool} {text text' : List Char}
    (h : signed? one text = signed? other text') (htext : text.head? ≠ some '-')
    (htext' : text'.head? ≠ some '-') : one = other ∧ text = text' := by
  cases one <;> cases other
  · exact ⟨rfl, h⟩
  · exact absurd (congrArg List.head? h) htext
  · exact absurd (congrArg List.head? h).symm htext'
  · exact ⟨rfl, (List.cons.inj h).2⟩

theorem Writes.ne_minus {text : Bool → Nat → List Char} (hwrites : Writes text) (negative : Bool)
    (magnitude : Nat) : (text negative magnitude).head? ≠ some '-' := by
  obtain ⟨c, hc, hdigit⟩ := hwrites.head negative magnitude
  rw [hc]
  rintro ⟨⟩
  exact absurd hdigit (by decide)

theorem Writes.ne_of_not_digit {text : Bool → Nat → List Char} (hwrites : Writes text)
    {negative : Bool} {magnitude : Nat} {rest : List Char} {c : Char} (other : Bool)
    (hdigit : c.isDigit = false) (hminus : c ≠ '-') :
    signed? other (c :: rest) ≠ signed? negative (text negative magnitude) := by
  intro h
  obtain ⟨-, htext⟩ := signed?_inj h (by simpa using hminus) (hwrites.ne_minus _ _)
  obtain ⟨d, hd, hisDigit⟩ := hwrites.head negative magnitude
  rw [← htext] at hd
  obtain rfl : c = d := by simpa using hd
  simp [hdigit] at hisDigit

/-- Two values of one text are one value. -/
theorem valueText_inj {text : Bool → Nat → List Char} (hwrites : Writes text) {x y : F64}
    (h : valueText text x.decode = valueText text y.decode) : x.decode = y.decode := by
  cases hx : x.decode with
  | nan =>
      cases hy : y.decode with
      | nan => rfl
      | infinite negative => cases negative <;> simp [hx, hy, valueText, signed?] at h
      | finite negative magnitude =>
          rw [hx, hy] at h
          exact absurd h (hwrites.ne_of_not_digit false (by decide) (by decide))
  | infinite one =>
      cases hy : y.decode with
      | nan => cases one <;> simp [hx, hy, valueText, signed?] at h
      | infinite other =>
          rw [hx, hy] at h
          rw [(signed?_inj h (by simp) (by simp)).1]
      | finite negative magnitude =>
          rw [hx, hy] at h
          exact absurd h (hwrites.ne_of_not_digit _ (by decide) (by decide))
  | finite one m =>
      cases hy : y.decode with
      | nan =>
          rw [hx, hy] at h
          exact absurd h.symm (hwrites.ne_of_not_digit false (by decide) (by decide))
      | infinite other =>
          rw [hx, hy] at h
          exact absurd h.symm (hwrites.ne_of_not_digit _ (by decide) (by decide))
      | finite other n =>
          rw [hx, hy] at h
          obtain ⟨rfl, htext⟩ := signed?_inj h (hwrites.ne_minus _ _) (hwrites.ne_minus _ _)
          have hvalue : (shortest one m).value = (shortest one n).value := by
            rw [← hwrites.value, ← hwrites.value, htext]
          rw [magnitude_eq_of_value hvalue (readsBack_shortest hx) (readsBack_shortest hy)]

theorem display_inj {x y : F64} (h : x.display = y.display) : x.decode = y.decode :=
  valueText_inj writes_display (String.ofList_injective h)

theorem debug_inj {x y : F64} (h : x.debug = y.debug) : x.decode = y.decode :=
  valueText_inj writes_debug (String.ofList_injective h)

end Reading

end F64

/-- IEEE 754 binary32, as far as it is read and written here. -/
structure F32 where
  bits : UInt32
  deriving DecidableEq

namespace F32

/-- A magnitude counts units of 2^-149. -/
def decode (x : F32) : F64.Value :=
  let raw := x.bits.toNat
  let negative : Bool := 2 ^ 31 ≤ raw
  let exponent := raw / 2 ^ 23 % 2 ^ 8
  let fraction := raw % 2 ^ 23
  if exponent = 255 then
    if fraction = 0 then .infinite negative else .nan
  else if exponent = 0 then .finite negative fraction
  else .finite negative ((2 ^ 23 + fraction) * 2 ^ (exponent - 1))

/-- `f64::from`, which is exact. -/
def toF64 (x : F32) : F64 :=
  match x.decode with
  | .finite negative magnitude => F64.encode (.finite negative (magnitude * 2 ^ 925))
  | other => F64.encode other

/-- Whether the decimal rounds to the magnitude, with 24 significant bits. -/
def readsBack (magnitude : Nat) (decimal : F64.Decimal) : Bool :=
  let num := decimal.digits * 10 ^ 309 * 2 ^ 149
  let den := 10 ^ decimal.scale
  let shift := (num / den).log2 + 1 - 24
  F64.nearestEven num (den * 2 ^ shift) * 2 ^ shift = magnitude

def displayMagnitude (_ : Bool) (magnitude : Nat) : List Char :=
  let found := (List.range 458).findSome? (F64.decimalAt (readsBack magnitude) (2 ^ 149) magnitude)
  F64.positional false (found.getD ⟨magnitude * 5 ^ 149, 309 + 149⟩)

/-- `{}` of a float. -/
def display (x : F32) : String := String.ofList (F64.valueText displayMagnitude x.decode)

end F32
