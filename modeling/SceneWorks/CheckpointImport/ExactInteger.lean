import SceneWorks.Library.JsonNumber
import SceneWorks.Library.Text

/-!
`exact_json_u32`: the nonnegative integer that a number token of JSON stands for, by its decimal
digits alone.
-/

namespace SceneWorks.CheckpointImport

open JsonNumber

/-- What the arithmetic and the slices of the source can trap on. -/
inductive Panic where
  | outOfRange
  | overflow
  deriving DecidableEq

/-- A computation that may panic, and that may find no value. -/
abbrev Checked (α : Type) := OptionT (Except Panic) α

def panicking {α : Type} (panic : Panic) : Checked α := OptionT.mk (.error panic)

section Operations

def sliceFrom (chars : List Char) (start : Nat) : Checked (List Char) :=
  if start ≤ chars.length then pure (chars.drop start) else panicking .outOfRange

def sliceTo (chars : List Char) (stop : Nat) : Checked (List Char) :=
  if stop ≤ chars.length then pure (chars.take stop) else panicking .outOfRange

/-- `a - b` of unsigned numbers. -/
def subUnsigned (a b : Nat) : Checked Nat :=
  if b ≤ a then pure (a - b) else panicking .overflow

/-- An unsigned number below a bound, as the checked operations return it. -/
def below (bound n : Nat) : Checked Nat := if n < bound then pure n else failure

def checkedI64 (n : Int) : Checked Int :=
  if -(2 ^ 63) ≤ n ∧ n < 2 ^ 63 then pure n else failure

/-- `checked_mul(10)`, and `checked_add` of the digit. -/
def pushDigit (bound value : Nat) (c : Char) : Checked Nat := do
  let digit ← subUnsigned c.toNat '0'.toNat
  let scaled ← below bound (value * 10)
  below bound (scaled + digit)

def readDigits (bound : Nat) (digits : List Char) : Checked Nat :=
  digits.foldlM (pushDigit bound) 0

end Operations

def trimZeros (digits : List Char) : List Char := digits.dropWhile (· = '0')

def readMagnitude (negative : Bool) (magnitude : List Char) : Checked Int :=
  if magnitude.isEmpty || !magnitude.all Char.isDigit then failure
  else do
    let value ← readDigits (2 ^ 63) magnitude
    if negative then checkedI64 (-(value : Int)) else pure (value : Int)

def readExponent : Option (List Char) → Checked Int
  | none => pure 0
  | some token =>
      match token.head? with
      | some '+' => do readMagnitude false (← sliceFrom token 1)
      | some '-' => do readMagnitude true (← sliceFrom token 1)
      | _ => readMagnitude false token

/-- The significant digits with the zeros that a negative shift takes off their end. -/
def integerDigits (significant : List Char) (decimalShift : Int) : Checked (List Char) :=
  if decimalShift < 0 then do
    let removed ← checkedI64 (-decimalShift)
    if removed.toNat > significant.length then failure
    else do
      let cut ← subUnsigned significant.length removed.toNat
      let tail ← sliceFrom significant cut
      if !tail.all (· = '0') then failure
      else do
        let cut ← subUnsigned significant.length removed.toNat
        sliceTo significant cut
  else pure significant

def scaleDigits (integerDigits : List Char) (decimalShift : Int) : Checked UInt32 :=
  if integerDigits.isEmpty then pure 0
  else do
    let appendedZeros ← below (2 ^ 64) (max decimalShift 0).toNat
    let total ← below (2 ^ 64) (integerDigits.length + appendedZeros)
    if total > 10 then failure
    else do
      let value ← readDigits (2 ^ 64) integerDigits
      let value ← (List.range appendedZeros).foldlM
        (fun value _ => below (2 ^ 64) (value * 10)) value
      if value < 2 ^ 32 then pure (UInt32.ofNat value) else failure

/-- Parses a syntactically valid JSON number as an exact, nonnegative u32. -/
def exactJsonU32 (token : String) : Checked UInt32 :=
  if token.toList.head? = some '-' then failure
  else
    let (significand, exponentToken) :=
      match Text.cut (fun c => c = 'e' || c = 'E') token.toList with
      | some (left, right) => (left, some right)
      | none => (token.toList, none)
    let (integer, fraction) :=
      match Text.cut (· = '.') significand with
      | some (left, right) => (left, right)
      | none => (significand, [])
    if integer.isEmpty || !integer.all Char.isDigit || !fraction.all Char.isDigit then failure
    else
      let digits := integer ++ fraction
      if digits.all (· = '0') then pure 0
      else do
        let exponent ← readExponent exponentToken
        let fractionLen ← checkedI64 fraction.length
        let decimalShift ← checkedI64 (exponent - fractionLen)
        let kept ← integerDigits (trimZeros digits) decimalShift
        scaleDigits (trimZeros kept) decimalShift

example : (["10e-1", "0.10e1", "0e99999999999999999999", "4294967296"].map fun token =>
    (exactJsonU32 token).run.toOption) =
      [some (some 1), some (some 1), some (some 0), some none] := by
  decide +kernel

section Digits

theorem below_of_lt {bound n : Nat} (h : n < bound) : below bound n = pure n := if_pos h

theorem below_of_le {bound n : Nat} (h : bound ≤ n) : below bound n = failure :=
  if_neg (Nat.not_lt.mpr h)

theorem failure_bind {α β : Type} (next : α → Checked β) : (failure >>= next) = failure := rfl

theorem pushDigit_eq {bound value : Nat} {c : Char} (hc : c.isDigit = true) :
    pushDigit bound value c = below bound (10 * value + (c.toNat - '0'.toNat)) := by
  obtain ⟨hfirst, -⟩ := toNat_of_isDigit hc
  have hdigit : subUnsigned c.toNat '0'.toNat = pure (c.toNat - '0'.toNat) := if_pos hfirst
  rw [pushDigit, hdigit, pure_bind, Nat.mul_comm value 10]
  by_cases hscaled : 10 * value < bound
  · rw [below_of_lt hscaled, pure_bind]
  · rw [below_of_le (Nat.not_lt.mp hscaled), failure_bind, below_of_le (by omega)]

theorem foldlM_pushDigit {bound value : Nat} {digits : List Char} (hdigits : Digits digits)
    (hvalue : value < bound) :
    digits.foldlM (pushDigit bound) value = below bound (Nat.ofDigitChars 10 digits value) := by
  induction digits generalizing value with
  | nil => exact (below_of_lt hvalue).symm
  | cons c digits ih =>
      obtain ⟨hc, hrest⟩ := List.forall_mem_cons.mp hdigits
      rw [List.foldlM_cons, pushDigit_eq hc, Nat.ofDigitChars_cons]
      by_cases hpushed : 10 * value + (c.toNat - '0'.toNat) < bound
      · rw [below_of_lt hpushed, pure_bind, ih hrest hpushed]
      · -- What has outgrown the bound does not come back under it.
        rw [below_of_le (Nat.not_lt.mp hpushed), failure_bind, below_of_le]
        rw [Nat.ofDigitChars_eq_ofDigitChars_zero]
        have hpow := Nat.pow_pos (n := digits.length) (show 0 < 10 by decide)
        have hgrown := Nat.le_mul_of_pos_left (10 * value + (c.toNat - '0'.toNat)) hpow
        omega

/-- A run of digits is read where its number is below the bound. -/
theorem readDigits_eq {bound : Nat} {digits : List Char} (hdigits : Digits digits)
    (hbound : 0 < bound) : readDigits bound digits = below bound (natural digits) :=
  foldlM_pushDigit hdigits hbound

theorem foldlM_append_zeros {bound value zeros : Nat} (h : value * 10 ^ zeros < bound) :
    (List.range zeros).foldlM (fun value _ => below bound (value * 10)) value =
      pure (value * 10 ^ zeros) := by
  induction zeros with
  | zero => rw [Nat.pow_zero, Nat.mul_one]; rfl
  | succ zeros ih =>
      rw [Nat.pow_succ, ← Nat.mul_assoc] at h
      rw [List.range_succ, List.foldlM_append, ih (by omega), pure_bind, Nat.pow_succ,
        ← Nat.mul_assoc, List.foldlM_cons, below_of_lt h]
      rfl

end Digits

section Exact

/-- A computation that does not panic and finds the number of 32 bits that a rational number is, and
nothing where it is none. -/
def Exact (result : Checked UInt32) (value : ℚ) : Prop :=
  ∃ found, result = OptionT.mk (.ok found) ∧ ∀ n : UInt32, found = some n ↔ value = n.toNat

theorem exact_failure {value : ℚ} (h : ∀ n : Nat, n < 2 ^ 32 → value ≠ n) :
    Exact failure value :=
  ⟨none, rfl, fun n => ⟨nofun, fun hvalue => absurd hvalue (h _ n.toNat_lt)⟩⟩

theorem exact_pure {n : Nat} (h : n < 2 ^ 32) : Exact (pure (UInt32.ofNat n)) n := by
  refine ⟨some (UInt32.ofNat n), rfl, fun other => ?_⟩
  rw [Option.some.injEq, Nat.cast_inj, ← UInt32.toNat_inj, UInt32.toNat_ofNat_of_lt' h]

theorem exact_of_large {n : Nat} (h : 2 ^ 32 ≤ n) : Exact failure (n : ℚ) := by
  apply exact_failure
  intro other hother heq
  rw [Nat.cast_inj] at heq
  omega

theorem exact_scaleDigits {digits : List Char} {decimalShift : Int} (hdigits : Digits digits)
    (hhead : digits.head? ≠ some '0') (hlength : digits.length < 2 ^ 63)
    (hshift : decimalShift < 2 ^ 63) :
    Exact (scaleDigits digits decimalShift)
      ((natural digits * 10 ^ (max decimalShift 0).toNat : Nat) : ℚ) := by
  generalize hzeros : (max decimalShift 0).toNat = zeros
  cases digits with
  | nil =>
      rw [natural, Nat.ofDigitChars_nil, Nat.zero_mul]
      exact exact_pure (by decide)
  | cons c digits =>
      have hc : c.isDigit = true := hdigits c List.mem_cons_self
      have hzero : c ≠ '0' := fun h => hhead (by rw [h]; rfl)
      have hpower : 10 ^ (digits.length + zeros) ≤ natural (c :: digits) * 10 ^ zeros := by
        rw [Nat.pow_add]
        exact Nat.mul_le_mul_right _ (le_natural hc hzero)
      have hbelow : natural (c :: digits) * 10 ^ zeros < 10 ^ ((c :: digits).length + zeros) := by
        rw [Nat.pow_add]
        exact Nat.mul_lt_mul_of_pos_right (natural_lt hdigits) (Nat.pow_pos (by decide))
      rw [scaleDigits, if_neg (by simp), hzeros, below_of_lt (by omega), pure_bind,
        below_of_lt (by omega), pure_bind]
      by_cases htotal : (c :: digits).length + zeros > 10
      · rw [if_pos htotal]
        apply exact_of_large
        have hexponent : 10 ≤ digits.length + zeros := by
          rw [List.length_cons] at htotal
          omega
        calc
          2 ^ 32 ≤ 10 ^ 10 := by decide
          _ ≤ 10 ^ (digits.length + zeros) := Nat.pow_le_pow_right (by decide) hexponent
          _ ≤ _ := hpower
      · have hsmall : natural (c :: digits) * 10 ^ zeros < 2 ^ 64 :=
          calc
            _ < 10 ^ ((c :: digits).length + zeros) := hbelow
            _ ≤ 10 ^ 10 := Nat.pow_le_pow_right (by decide) (Nat.not_lt.mp htotal)
            _ ≤ 2 ^ 64 := by decide
        have hdigitsSmall : natural (c :: digits) < 2 ^ 64 :=
          (Nat.le_mul_of_pos_right _ (Nat.pow_pos (by decide))).trans_lt hsmall
        rw [if_neg htotal, readDigits_eq hdigits (by decide), below_of_lt hdigitsSmall, pure_bind,
          foldlM_append_zeros hsmall, pure_bind]
        split
        · rename_i hrange
          exact exact_pure hrange
        · rename_i hrange
          exact exact_of_large (Nat.not_lt.mp hrange)

/-- A positive number of so many digits, moved as many places to the right, is below one. -/
theorem exact_tiny {digits : List Char} {shift : Int} (hdigits : Digits digits)
    (hpositive : 0 < natural digits) (hshift : shift ≤ -(digits.length : Int)) :
    Exact failure (natural digits * (10 : ℚ) ^ shift) := by
  apply exact_failure
  intro n _ heq
  obtain ⟨places, rfl⟩ : ∃ places : Nat, shift = -(places : Int) := ⟨(-shift).toNat, by omega⟩
  have hvalue : natural digits = n * 10 ^ places := by
    rw [zpow_neg, zpow_natCast, ← div_eq_mul_inv,
      div_eq_iff (pow_ne_zero places (by decide))] at heq
    exact_mod_cast heq
  cases n with
  | zero => omega
  | succ n =>
      have hsmall : natural digits < 10 ^ places :=
        (natural_lt hdigits).trans_le (Nat.pow_le_pow_right (by decide) (by omega))
      have hlarge : 10 ^ places ≤ (n + 1) * 10 ^ places :=
        Nat.le_mul_of_pos_left _ (Nat.succ_pos n)
      omega

theorem exact_huge {n : Nat} {shift : Int} (hpositive : 0 < n) (hshift : 10 ≤ shift) :
    Exact failure (n * (10 : ℚ) ^ shift) := by
  obtain ⟨places, rfl⟩ : ∃ places : Nat, shift = (places : Int) := ⟨shift.toNat, by omega⟩
  have hvalue : (n * (10 : ℚ) ^ (places : Int)) = ((n * 10 ^ places : Nat) : ℚ) := by
    rw [zpow_natCast]
    push_cast
    rfl
  rw [hvalue]
  apply exact_of_large
  calc
    2 ^ 32 ≤ 10 ^ 10 := by decide
    _ ≤ 10 ^ places := Nat.pow_le_pow_right (by decide) (by omega)
    _ ≤ n * 10 ^ places := Nat.le_mul_of_pos_left _ hpositive

theorem head?_trimZeros (digits : List Char) : (trimZeros digits).head? ≠ some '0' := by
  induction digits with
  | nil => nofun
  | cons c digits ih =>
      rw [trimZeros, List.dropWhile_cons]
      split
      · exact ih
      · rename_i hzero
        intro hhead
        obtain rfl := Option.some.inj hhead
        exact hzero rfl

theorem trimZeros_valid {digits : List Char} (h : Digits digits) : Digits (trimZeros digits) :=
  fun c hc => h c ((List.dropWhile_sublist _).mem hc)

theorem length_trimZeros_le (digits : List Char) : (trimZeros digits).length ≤ digits.length :=
  (List.dropWhile_sublist _).length_le

/-- The number of the digits that are kept, where no shift to the right is left. -/
theorem exact_kept {kept : List Char} {decimalShift : Int} (hkept : Digits kept)
    (hlength : kept.length < 2 ^ 63) (hshift : decimalShift < 2 ^ 63) :
    Exact (scaleDigits (trimZeros kept) decimalShift)
      ((natural kept * 10 ^ (max decimalShift 0).toNat : Nat) : ℚ) := by
  have hexact := exact_scaleDigits (trimZeros_valid hkept) (head?_trimZeros kept)
    ((length_trimZeros_le kept).trans_lt hlength) hshift
  rwa [trimZeros, natural_dropWhile] at hexact

theorem exact_shifted {significant : List Char} {decimalShift : Int} (hdigits : Digits significant)
    (hpositive : 0 < natural significant) (hlength : significant.length < 2 ^ 63)
    (hrange : -(2 ^ 63) ≤ decimalShift ∧ decimalShift < 2 ^ 63) :
    Exact (do
        let kept ← integerDigits significant decimalShift
        scaleDigits (trimZeros kept) decimalShift)
      (natural significant * (10 : ℚ) ^ decimalShift) := by
  by_cases hright : decimalShift < 0
  · obtain ⟨places, hplaces⟩ : ∃ places : Nat, decimalShift = -(places : Int) :=
      ⟨(-decimalShift).toNat, by omega⟩
    rw [integerDigits, if_pos hright]
    by_cases hlast : decimalShift = -(2 ^ 63)
    · have hfails : checkedI64 (-decimalShift) = failure := if_neg (by omega)
      rw [hfails, failure_bind, failure_bind]
      exact exact_tiny hdigits hpositive (by omega)
    · have hremoved : checkedI64 (-decimalShift) = pure (places : Int) := by
        rw [checkedI64, if_pos (by omega), hplaces, Int.neg_neg]
      rw [hremoved, pure_bind, Int.toNat_natCast]
      by_cases hall : places > significant.length
      · rw [if_pos hall, failure_bind]
        exact exact_tiny hdigits hpositive (by omega)
      · have hcut : subUnsigned significant.length places = pure (significant.length - places) :=
          if_pos (Nat.not_lt.mp hall)
        have htail : sliceFrom significant (significant.length - places) =
            pure (significant.drop (significant.length - places)) := if_pos (Nat.sub_le _ _)
        have hfront : sliceTo significant (significant.length - places) =
            pure (significant.take (significant.length - places)) := if_pos (Nat.sub_le _ _)
        generalize hkept : significant.take (significant.length - places) = kept at hfront
        generalize hdropped : significant.drop (significant.length - places) = dropped at htail
        have hsplit : kept ++ dropped = significant := by
          rw [← hkept, ← hdropped, List.take_append_drop]
        have hplacesLength : dropped.length = places := by
          rw [← hdropped, List.length_drop]
          omega
        have hkeptValid : Digits kept := fun c hc => hdigits c (List.mem_of_mem_take (hkept ▸ hc))
        have hdroppedValid : Digits dropped :=
          fun c hc => hdigits c (List.mem_of_mem_drop (hdropped ▸ hc))
        have hnatural : natural significant = natural kept * 10 ^ places + natural dropped := by
          rw [← hsplit, natural_append, hplacesLength]
        rw [if_neg hall, hcut, pure_bind, htail, pure_bind]
        by_cases hzeros : dropped.all (· = '0') = true
        · have hnone : natural dropped = 0 := by
            rw [natural_eq_zero_iff hdroppedValid]
            simpa using hzeros
          have hmax : max decimalShift 0 = 0 := by omega
          have hvalue : natural significant * (10 : ℚ) ^ decimalShift =
              ((natural kept * 10 ^ (max decimalShift 0).toNat : Nat) : ℚ) := by
            rw [hmax, hnatural, hnone, hplaces, zpow_neg, zpow_natCast]
            push_cast
            field_simp
            simp
          have hkeptLength : kept.length < 2 ^ 63 := by
            rw [← hsplit, List.length_append] at hlength
            omega
          rw [hzeros, if_neg (by decide), pure_bind, hfront, pure_bind, hvalue]
          exact exact_kept hkeptValid hkeptLength hrange.2
        · rw [if_pos (by simpa using hzeros), failure_bind]
          apply exact_failure
          intro n _ heq
          have hproduct : natural significant = n * 10 ^ places := by
            rw [hplaces, zpow_neg, zpow_natCast, ← div_eq_mul_inv,
              div_eq_iff (pow_ne_zero places (by decide))] at heq
            exact_mod_cast heq
          have hrest : natural dropped = 0 := by
            have hsmall := natural_lt hdroppedValid
            rw [hplacesLength] at hsmall
            have hmod : natural significant % 10 ^ places = natural dropped := by
              rw [hnatural, Nat.mul_add_mod', Nat.mod_eq_of_lt hsmall]
            rw [← hmod, hproduct, Nat.mul_mod_left]
          rw [natural_eq_zero_iff hdroppedValid] at hrest
          exact hzeros (by simpa using hrest)
  · have hvalue : natural significant * (10 : ℚ) ^ decimalShift =
        ((natural significant * 10 ^ (max decimalShift 0).toNat : Nat) : ℚ) := by
      obtain ⟨places, hplaces⟩ : ∃ places : Nat, decimalShift = (places : Int) :=
        ⟨decimalShift.toNat, by omega⟩
      have hmax : (max decimalShift 0).toNat = places := by omega
      rw [hmax, hplaces, zpow_natCast]
      push_cast
      rfl
    rw [integerDigits, if_neg hright, pure_bind, hvalue]
    exact exact_kept hdigits hlength hrange.2

end Exact

section Token

theorem ne_of_isDigit {c d : Char} (hc : c.isDigit = true) (hd : d.isDigit = false) : c ≠ d := by
  rintro rfl
  rw [hc] at hd
  cases hd

variable (number : JsonNumber)

/-- The text of an exponent, after its marker. -/
def exponentTail : Option (List Char) :=
  number.exponent.map fun exponent => exponent.sign.toList ++ exponent.digits

theorem split_exponent : Text.cut (fun c => c = 'e' || c = 'E')
    (number.integer ++ number.fractionText ++ number.exponentText) =
      (exponentTail number).map fun tail => (number.integer ++ number.fractionText, tail) := by
  have hsignificand : ∀ c ∈ number.integer ++ number.fractionText,
      (decide (c = 'e') || decide (c = 'E')) = false := by
    intro c hc
    rcases List.mem_append.mp hc with hc | hc
    · have hdigit := number.integer_valid c hc
      rw [decide_eq_false (ne_of_isDigit hdigit rfl), decide_eq_false (ne_of_isDigit hdigit rfl)]
      rfl
    · rw [fractionText] at hc
      cases hfraction : number.fraction with
      | none =>
          rw [hfraction] at hc
          cases hc
      | some digits =>
          rw [hfraction, Option.map_some, Option.getD_some, List.mem_cons] at hc
          rcases hc with rfl | hc
          · rfl
          · have hdigit := number.fraction_valid digits hfraction c hc
            rw [decide_eq_false (ne_of_isDigit hdigit rfl),
              decide_eq_false (ne_of_isDigit hdigit rfl)]
            rfl
  rw [exponentText, exponentTail]
  cases hexponent : number.exponent with
  | none => exact Text.cut_eq_none (by simpa using hsignificand)
  | some exponent =>
      have hmarker : (decide (exponent.marker = 'e') || decide (exponent.marker = 'E')) = true := by
        simpa using exponent.marker_e
      exact Text.cut_append hsignificand hmarker

theorem split_fraction : Text.cut (· = '.') (number.integer ++ number.fractionText) =
    number.fraction.map fun digits => (number.integer, digits) := by
  have hinteger : ∀ c ∈ number.integer, decide (c = '.') = false := fun c hc =>
    decide_eq_false (ne_of_isDigit (number.integer_valid c hc) rfl)
  rw [fractionText]
  cases hfraction : number.fraction with
  | none => exact Text.cut_eq_none (by simpa using hinteger)
  | some digits => exact Text.cut_append hinteger rfl

theorem readMagnitude_eq {negative : Bool} {digits : List Char} (hnonempty : digits ≠ [])
    (hdigits : Digits digits) :
    readMagnitude negative digits =
      if natural digits < 2 ^ 63 then
        pure (if negative then -(natural digits : Int) else natural digits)
      else failure := by
  have hvalid : (digits.isEmpty || !digits.all Char.isDigit) = false := by
    have hall : digits.all Char.isDigit = true := List.all_eq_true.mpr hdigits
    rw [hall, List.isEmpty_eq_false_iff.mpr hnonempty]
    rfl
  rw [readMagnitude, hvalid, if_neg (by decide), readDigits_eq hdigits (by decide)]
  by_cases hrange : natural digits < 2 ^ 63
  · rw [if_pos hrange, below_of_lt hrange, pure_bind]
    cases negative with
    | true =>
        change checkedI64 _ = pure _
        exact if_pos (by omega)
    | false => rfl
  · rw [if_neg hrange, below_of_le (Nat.not_lt.mp hrange), failure_bind]

/-- An exponent is read where its magnitude fits. -/
theorem readExponent_eq : readExponent (exponentTail number) =
    if ∀ exponent ∈ number.exponent, natural exponent.digits < 2 ^ 63 then
      pure number.exponentValue
    else failure := by
  rw [exponentTail, exponentValue]
  cases number.exponent with
  | none => rfl
  | some exponent =>
      obtain ⟨marker, sign, digits, -, hsign, hnonempty, hdigits⟩ := exponent
      have hslice : ∀ c, sliceFrom (c :: digits) 1 = pure digits := fun c =>
        if_pos (Nat.succ_le_succ (Nat.zero_le _))
      simp only [Option.map_some, Option.mem_some_iff, forall_eq', Option.getD_some, Exponent.value]
      cases sign with
      | none =>
          obtain ⟨c, rest, rfl⟩ := List.exists_cons_of_ne_nil hnonempty
          have hc := hdigits c List.mem_cons_self
          have hread : readExponent (some (c :: rest)) = readMagnitude false (c :: rest) := by
            rw [readExponent]
            split
            · rename_i heq
              exact absurd (Option.some.inj heq) (ne_of_isDigit hc rfl)
            · rename_i heq
              exact absurd (Option.some.inj heq) (ne_of_isDigit hc rfl)
            · rfl
          exact hread.trans (readMagnitude_eq hnonempty hdigits)
      | some c =>
          rcases hsign c rfl with rfl | rfl
          · change (do readMagnitude false (← sliceFrom ('+' :: digits) 1)) = _
            rw [hslice, pure_bind, readMagnitude_eq hnonempty hdigits]
            rfl
          · change (do readMagnitude true (← sliceFrom ('-' :: digits) 1)) = _
            rw [hslice, pure_bind, readMagnitude_eq hnonempty hdigits]
            rfl

theorem head?_text (hplain : number.minus = false) : number.text.head? ≠ some '-' := by
  obtain ⟨c, rest, hinteger⟩ := List.exists_cons_of_ne_nil number.integer_nonempty
  have hc : c.isDigit = true := by
    apply number.integer_valid
    rw [hinteger]
    exact List.mem_cons_self
  rw [text, hplain, hinteger]
  intro hhead
  exact ne_of_isDigit hc rfl (Option.some.inj hhead)

/-- The parts of a token without a minus sign are those of the grammar. -/
theorem exactJsonU32_text (hplain : number.minus = false) :
    exactJsonU32 (String.ofList number.text) =
      (if (number.integer ++ number.fractionDigits).all (· = '0') then pure 0
      else do
        let exponent ← readExponent (exponentTail number)
        let fractionLen ← checkedI64 number.fractionDigits.length
        let decimalShift ← checkedI64 (exponent - fractionLen)
        let kept ← integerDigits (trimZeros (number.integer ++ number.fractionDigits)) decimalShift
        scaleDigits (trimZeros kept) decimalShift) := by
  have htext : number.text = number.integer ++ number.fractionText ++ number.exponentText := by
    rw [text, hplain]
    rfl
  have hvalid : (number.integer.isEmpty || !number.integer.all Char.isDigit ||
      !number.fractionDigits.all Char.isDigit) = false := by
    have hinteger : number.integer.all Char.isDigit = true :=
      List.all_eq_true.mpr number.integer_valid
    have hfraction : number.fractionDigits.all Char.isDigit = true :=
      List.all_eq_true.mpr number.fractionDigits_valid
    rw [hinteger, hfraction, List.isEmpty_eq_false_iff.mpr number.integer_nonempty]
    rfl
  have hsignificand : (match Text.cut (fun c => c = 'e' || c = 'E') number.text with
      | some (left, right) => (left, some right)
      | none => (number.text, none)) =
        (number.integer ++ number.fractionText, exponentTail number) := by
    rw [htext, split_exponent, exponentTail, exponentText]
    cases number.exponent with
    | none => simp
    | some exponent => rfl
  have hfraction : (match Text.cut (· = '.') (number.integer ++ number.fractionText) with
      | some (left, right) => (left, right)
      | none => (number.integer ++ number.fractionText, [])) =
        (number.integer, number.fractionDigits) := by
    rw [split_fraction, fractionText, fractionDigits]
    cases number.fraction with
    | none => simp
    | some digits => rfl
  rw [exactJsonU32, String.toList_ofList, if_neg (head?_text number hplain), hsignificand]
  dsimp only
  rw [hfraction]
  dsimp only
  rw [hvalid, if_neg (by decide)]

end Token

/-- A number token as a text of the language, which has fewer than 2^63 bytes. -/
structure JsonToken extends JsonNumber where
  length_lt : toJsonNumber.text.length < 2 ^ 63

namespace JsonToken

variable (token : JsonToken)

/-- The digits of the significand. -/
def digits : List Char := token.integer ++ token.fractionDigits

theorem length_bound : token.digits.length < 2 ^ 63 ∧
    ∀ exponent ∈ token.exponent, token.fractionDigits.length + exponent.digits.length < 2 ^ 63 := by
  have hlength := token.length_lt
  have hfraction : token.fractionDigits.length ≤ token.fractionText.length := by
    rw [fractionDigits, fractionText]
    cases token.fraction with
    | none => exact Nat.le_refl 0
    | some digits => exact Nat.le_succ _
  have hexponent : ∀ exponent ∈ token.exponent,
      exponent.digits.length ≤ token.exponentText.length := by
    intro exponent hexponent
    rw [exponentText, Option.mem_def.mp hexponent, Option.map_some, Option.getD_some, Exponent.text,
      List.length_cons, List.length_append]
    omega
  rw [text] at hlength
  simp only [List.length_append] at hlength
  constructor
  · rw [digits, List.length_append]
    omega
  · intro exponent hmem
    have := hexponent exponent hmem
    omega

/-- An exponent whose magnitude does not fit moves every digit past the point, or leaves more than
ten places before it. -/
theorem exact_of_unread (hplain : token.minus = false) (hpositive : 0 < natural token.digits)
    {exponent : Exponent} (hexponent : token.exponent = some exponent)
    (hlarge : 2 ^ 63 ≤ natural exponent.digits) : Exact failure token.value := by
  obtain ⟨hlength, hexponentLength⟩ := token.length_bound
  have hroom := hexponentLength exponent hexponent
  have hplaces : 10 < exponent.digits.length := by
    by_contra hfew
    have hsmall := natural_lt exponent.digits_valid
    have hbound : 10 ^ exponent.digits.length ≤ 10 ^ 10 :=
      Nat.pow_le_pow_right (by decide) (Nat.not_lt.mp hfew)
    omega
  have hvalue : token.exponentValue = exponent.value := by
    rw [exponentValue, hexponent]
    rfl
  rw [token.value_eq hplain, hvalue, Exponent.value]
  split
  · exact exact_tiny token.digits_valid hpositive (by rw [digits] at hlength; omega)
  · exact exact_huge hpositive (by omega)

/-- Of a token without a minus sign: what is read of it is the integer it stands for. -/
theorem exact_of_plain (hplain : token.minus = false) :
    Exact (exactJsonU32 (String.ofList token.text)) token.value := by
  have hdigits : Digits token.digits := token.digits_valid
  obtain ⟨hlength, -⟩ := token.length_bound
  rw [exactJsonU32_text token.toJsonNumber hplain]
  change Exact (if token.digits.all (· = '0') then _ else _) _
  by_cases hzeros : token.digits.all (· = '0') = true
  · have hnone : natural token.digits = 0 := by
      rw [natural_eq_zero_iff hdigits]
      simpa using hzeros
    have hvalue : token.value = (0 : Nat) := by
      rw [token.value_eq hplain]
      change (natural token.digits : ℚ) * _ = _
      rw [hnone]
      simp
    rw [if_pos hzeros, hvalue]
    exact exact_pure (by decide)
  · have hpositive : 0 < natural token.digits := by
      rw [Nat.pos_iff_ne_zero, Ne, natural_eq_zero_iff hdigits]
      simpa using hzeros
    rw [if_neg hzeros, readExponent_eq]
    by_cases hfits : ∀ exponent ∈ token.exponent, natural exponent.digits < 2 ^ 63
    · have hrange : -(2 ^ 63) < token.exponentValue ∧ token.exponentValue < 2 ^ 63 := by
        rw [exponentValue]
        cases hexponent : token.exponent with
        | none => decide
        | some exponent =>
            have := hfits exponent hexponent
            rw [Option.map_some, Option.getD_some, Exponent.value]
            split <;> omega
      have hfraction : token.fractionDigits.length ≤ token.digits.length := by
        rw [digits, List.length_append]
        omega
      have hfractionLen : checkedI64 token.fractionDigits.length =
          pure (token.fractionDigits.length : Int) := if_pos (by omega)
      have htrimmed : natural (trimZeros token.digits) = natural token.digits :=
        natural_dropWhile _
      rw [if_pos hfits, pure_bind, hfractionLen, pure_bind, token.value_eq hplain]
      change Exact _ ((natural token.digits : ℚ) * _)
      generalize hshift : token.exponentValue - (token.fractionDigits.length : Int) = decimalShift
      by_cases hfar : decimalShift < -(2 ^ 63)
      · have hfails : checkedI64 decimalShift = failure := if_neg (by omega)
        rw [hfails, failure_bind]
        exact exact_tiny hdigits hpositive (by omega)
      · have hread : checkedI64 decimalShift = pure decimalShift := if_pos (by omega)
        rw [hread, pure_bind, ← htrimmed]
        exact exact_shifted (trimZeros_valid hdigits) (hpositive.trans_eq htrimmed.symm)
          ((length_trimZeros_le _).trans_lt hlength) (by omega)
    · rw [if_neg hfits, failure_bind]
      push Not at hfits
      obtain ⟨exponent, hexponent, hlarge⟩ := hfits
      exact token.exact_of_unread hplain hpositive hexponent hlarge

/-- No number token makes the reading panic. Without a minus sign it yields a number of 32 bits
exactly where the token stands for it, and nothing otherwise; with a minus sign it is refused. -/
theorem exactJsonU32_exact :
    (token.minus = true → exactJsonU32 (String.ofList token.text) = failure) ∧
      (token.minus = false → Exact (exactJsonU32 (String.ofList token.text)) token.value) := by
  refine ⟨fun hminus => ?_, token.exact_of_plain⟩
  have hhead : token.text.head? = some '-' := by
    rw [text, hminus]
    rfl
  rw [exactJsonU32, String.toList_ofList, if_pos hhead]

end JsonToken

/-- The token `1000e-3`. -/
def thousandThousandths : JsonToken where
  minus := false
  integer := ['1', '0', '0', '0']
  fraction := none
  exponent := some ⟨'e', some '-', ['3'], .inl rfl, by simp, by simp, by simp [Digits]⟩
  integer_nonempty := by simp
  integer_valid := by simp [Digits]
  integer_leading := .inr (by decide)
  fraction_nonempty := by simp
  fraction_valid := by simp
  length_lt := by decide

theorem thousandThousandths_exact :
    Exact (exactJsonU32 (String.ofList thousandThousandths.text)) thousandThousandths.value :=
  thousandThousandths.exactJsonU32_exact.2 rfl

end SceneWorks.CheckpointImport
