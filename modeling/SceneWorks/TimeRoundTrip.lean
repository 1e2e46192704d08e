import Mathlib.Data.String.Basic
import SceneWorks.Library.FixedDigits
import SceneWorks.Library.Gregorian
import SceneWorks.Library.Utf8
import SceneWorks.Time

/-!
`parse_utc_seconds`, the way back from the canonical UTC text, and the two conversions of the
calendar against the calendar itself. The texts of the years with four digits read back, and they
are ordered as the instants are.
-/

namespace SceneWorks

open Gregorian

def daysFromCivil (year month day : Int) : Int :=
  let adjustedYear := year - if month ≤ 2 then 1 else 0
  let era := adjustedYear / 400
  let yearOfEra := adjustedYear - era * 400
  let monthPrime := month + if month > 2 then -3 else 9
  let dayOfYear := (153 * monthPrime + 2) / 5 + day - 1
  let dayOfEra := yearOfEra * 365 + yearOfEra / 4 - yearOfEra / 100 + dayOfYear
  era * 146097 + dayOfEra - 719468

section Slices

/-- The characters from a byte offset on, where a character starts there. -/
def dropBytes : Nat → List Char → Option (List Char)
  | 0, chars => some chars
  | _ + 1, [] => none
  | count + 1, c :: chars =>
      if c.utf8Size ≤ count + 1 then dropBytes (count + 1 - c.utf8Size) chars else none

/-- The characters up to a byte offset, where a character ends there. -/
def takeBytes : Nat → List Char → Option (List Char)
  | 0, _ => some []
  | _ + 1, [] => none
  | count + 1, c :: chars =>
      if c.utf8Size ≤ count + 1 then
        (takeBytes (count + 1 - c.utf8Size) chars).map (c :: ·)
      else none

/-- `str::get` of a range of bytes. -/
def getBytes (value : String) (first last : Nat) : Option String :=
  ((dropBytes first value.toList).bind (takeBytes (last - first))).map String.ofList

/-- `str::get` of the bytes from an offset on. -/
def getBytesFrom (value : String) (first : Nat) : Option String :=
  (dropBytes first value.toList).map String.ofList

end Slices

def parseI32 (value : String) : Option Int :=
  (Text.parseI64 value).filter fun n => -(2 ^ 31) ≤ n ∧ n < 2 ^ 31

/-- The end of the text: `Z`, or a fraction of a second and then `Z`. -/
def isUtcSuffix (suffix : String) : Bool :=
  suffix = "Z" ||
    match suffix.toList with
    | '.' :: rest => rest.getLast? = some 'Z' && rest.dropLast.all Char.isDigit
    | _ => false

def parseUtcSeconds (value : String) : Option Timestamp := do
  guard (20 ≤ value.utf8ByteSize)
  let year ← (← getBytes value 0 4) |> parseI32
  let month ← (← getBytes value 5 7) |> Text.parseU32
  let day ← (← getBytes value 8 10) |> Text.parseU32
  let hour ← (← getBytes value 11 13) |> Text.parseI64
  let minute ← (← getBytes value 14 16) |> Text.parseI64
  let second ← (← getBytes value 17 19) |> Text.parseI64
  let suffix ← getBytesFrom value 19
  guard ((← getBytes value 4 5) = "-")
  guard ((← getBytes value 7 8) = "-")
  guard ((← getBytes value 10 11) = "T")
  guard ((← getBytes value 13 14) = ":")
  guard ((← getBytes value 16 17) = ":")
  guard (!(month = 0 || month > 12 || day = 0 || day > 31 || hour > 23 || minute > 59 ||
    second > 59))
  guard (isUtcSuffix suffix)
  return daysFromCivil year month.toNat day.toNat * 86400 + hour * 3600 + minute * 60 + second

example : parseUtcSeconds "2024-02-29T12:24:56Z" = some 1709209496 ∧
    parseUtcSeconds "2026-05-17T13:00:04.521Z" = parseUtcSeconds "2026-05-17T13:00:04Z" ∧
    parseUtcSeconds "2026-07-03T00:00:00.123" = none := by decide +kernel

section Calendar

theorem yearStart_add_one (year : Int) :
    yearStart (year + 1) = 365 * year + year / 4 - year / 100 + year / 400 - 719162 := by
  simp only [yearStart]
  omega

theorem yearStart_add_era (year era : Int) :
    yearStart (year + era * 400) = yearStart year + era * 146097 := by
  simp only [yearStart]
  omega

/-- The conversions count years from March, so that a leap day is the last of its year. -/
theorem number_from_march {date : Date} {year dayOfYear : Int}
    (hyear : date.year = year + if date.month ≤ 2 then 1 else 0)
    (hday : dayOfYear = (153 * (date.month + if date.month > 2 then -3 else 9) + 2) / 5 +
      date.day - 1) : date.number = yearStart (year + 1) - 306 + dayOfYear := by
  obtain ⟨hfirst, hlast⟩ := date.month_range
  have hsucc := yearStart_succ year
  rw [Date.number, hyear, hday, hsucc]
  generalize date.month = month at hfirst hlast ⊢
  interval_cases month <;> simp [monthStart, hsucc] <;> omega

theorem daysFromCivil_number (date : Date) :
    daysFromCivil date.year date.month date.day = date.number := by
  generalize hyear : date.year - (if date.month ≤ 2 then 1 else 0) = year
  generalize hday : (153 * (date.month + if date.month > 2 then -3 else 9) + 2) / 5 +
    date.day - 1 = dayOfYear
  have hnumber : date.number = yearStart (year + 1) - 306 + dayOfYear :=
    number_from_march (by omega) hday.symm
  have hstart := yearStart_add_one year
  rw [hnumber]
  simp only [daysFromCivil, hyear, hday]
  omega

theorem yearOfEra_bounds {dayOfEra yearOfEra : Int} (hfrom : 0 ≤ dayOfEra) (hto : dayOfEra < 146097)
    (hyear : yearOfEra =
      (dayOfEra - dayOfEra / 1460 + dayOfEra / 36524 - dayOfEra / 146096) / 365) :
    0 ≤ yearOfEra ∧ yearOfEra ≤ 399 ∧
      365 * yearOfEra + yearOfEra / 4 - yearOfEra / 100 ≤ dayOfEra ∧
      dayOfEra < 365 * (yearOfEra + 1) + (yearOfEra + 1) / 4 - (yearOfEra + 1) / 100 +
        (yearOfEra + 1) / 400 := by
  obtain rfl | hlt : dayOfEra = 146096 ∨ dayOfEra < 146096 := by omega
  · obtain rfl : yearOfEra = 399 := hyear
    decide
  have hlast : dayOfEra / 146096 = 0 := by omega
  rw [hlast, sub_zero] at hyear
  have hrange : 0 ≤ yearOfEra ∧ yearOfEra ≤ 399 := by omega
  have hcentury : yearOfEra / 100 = dayOfEra / 36524 := by omega
  -- The divisor 1460 is a day short of four years, which in an era adds up to less than a year.
  have hcycle : dayOfEra / 1460 = yearOfEra / 4 ∨
      dayOfEra / 1460 = yearOfEra / 4 + 1 ∧ yearOfEra % 4 = 3 := by omega
  refine ⟨hrange.1, hrange.2, by omega, ?_⟩
  have hsum : 365 * yearOfEra ≤ dayOfEra - dayOfEra / 1460 + dayOfEra / 36524 ∧
      dayOfEra - dayOfEra / 1460 + dayOfEra / 36524 < 365 * (yearOfEra + 1) := by omega
  -- The last year of a century has no leap day of its own to lose.
  obtain hend | hinner : yearOfEra + 1 = 100 * (dayOfEra / 36524 + 1) ∨
      (yearOfEra + 1) / 100 = yearOfEra / 100 := by omega
  · omega
  · obtain hcycle | ⟨hcycle, hrest⟩ := hcycle
    · have hmono : yearOfEra / 4 ≤ (yearOfEra + 1) / 4 := by omega
      omega
    · have hleap : (yearOfEra + 1) / 4 = yearOfEra / 4 + 1 := by omega
      omega

theorem date_from_march {year dayOfYear : Int} (hfrom : 0 ≤ dayOfYear)
    (hto : dayOfYear < yearLength (year + 1)) :
    let monthPrime := (5 * dayOfYear + 2) / 153
    let month := monthPrime + if monthPrime < 10 then 3 else -9
    ∃ date : Date, (date.year, date.month, date.day) = (year + if month ≤ 2 then 1 else 0, month,
      dayOfYear - (153 * monthPrime + 2) / 5 + 1) := by
  have hlength : yearLength (year + 1) ≤ 366 := by
    unfold yearLength
    split <;> decide
  generalize hmonth : (5 * dayOfYear + 2) / 153 = monthPrime
  have hfirst : 0 ≤ monthPrime := by omega
  have hlast : monthPrime ≤ 11 := by omega
  refine ⟨⟨_, _, _, ?_, ?_⟩, rfl⟩
  · split <;> omega
  · interval_cases monthPrime <;> simp [monthLength, monthStart] <;> omega

theorem civilFromDays_date (days : Int) :
    ∃ date : Date, civilFromDays days = (date.year, date.month, date.day) ∧ date.number = days := by
  generalize hadjusted : days + 719468 = adjusted
  generalize hera : adjusted / 146097 = era
  generalize hdayOfEra : adjusted - era * 146097 = dayOfEra
  generalize hyearOfEra :
    (dayOfEra - dayOfEra / 1460 + dayOfEra / 36524 - dayOfEra / 146096) / 365 = yearOfEra
  obtain ⟨hfirst, hlast, hfrom, hto⟩ := yearOfEra_bounds (by omega) (by omega) hyearOfEra.symm
  generalize hdayOfYear : dayOfEra - (365 * yearOfEra + yearOfEra / 4 - yearOfEra / 100) = dayOfYear
  generalize hyear : yearOfEra + era * 400 = year
  have hmarch : yearStart (year + 1) =
      era * 146097 + (365 * yearOfEra + yearOfEra / 4 - yearOfEra / 100) - 719162 := by
    have hstart := yearStart_add_one yearOfEra
    have hshift := yearStart_add_era (yearOfEra + 1) era
    rw [show year + 1 = yearOfEra + 1 + era * 400 by omega]
    omega
  have hnext : dayOfYear < yearLength (year + 1) := by
    have hstart := yearStart_add_one (yearOfEra + 1)
    have hshift := yearStart_add_era (yearOfEra + 1 + 1) era
    have hsucc := yearStart_succ (year + 1)
    rw [show year + 1 + 1 = yearOfEra + 1 + 1 + era * 400 by omega] at hsucc
    omega
  obtain ⟨date, hdate⟩ := date_from_march (by omega) hnext
  have hfields := hdate
  simp only [Prod.mk.injEq] at hfields
  obtain ⟨hdateYear, hdateMonth, hdateDay⟩ := hfields
  refine ⟨date, ?_, ?_⟩
  · rw [hdate]
    simp only [civilFromDays, hadjusted, hera, hdayOfEra, hyearOfEra, hdayOfYear, hyear]
  · have hnumber : date.number = yearStart (year + 1) - 306 + dayOfYear := by
      apply number_from_march
      · rw [hdateYear, hdateMonth]
      · rw [hdateMonth, hdateDay]
        split <;> split <;> omega
    omega

end Calendar

section Slices

theorem dropBytes_ascii {chars : List Char} (hascii : ∀ c ∈ chars, c.utf8Size = 1) {count : Nat}
    (hcount : count ≤ chars.length) : dropBytes count chars = some (chars.drop count) := by
  induction chars generalizing count with
  | nil =>
      obtain rfl := Nat.le_zero.mp hcount
      rfl
  | cons c chars ih =>
      cases count with
      | zero => rfl
      | succ count =>
          obtain ⟨hc, hchars⟩ := List.forall_mem_cons.mp hascii
          rw [dropBytes, hc, if_pos (Nat.succ_le_succ (Nat.zero_le count)), Nat.add_sub_cancel]
          exact ih hchars (Nat.succ_le_succ_iff.mp hcount)

theorem takeBytes_ascii {chars : List Char} (hascii : ∀ c ∈ chars, c.utf8Size = 1) {count : Nat}
    (hcount : count ≤ chars.length) : takeBytes count chars = some (chars.take count) := by
  induction chars generalizing count with
  | nil =>
      obtain rfl := Nat.le_zero.mp hcount
      rfl
  | cons c chars ih =>
      cases count with
      | zero => rfl
      | succ count =>
          obtain ⟨hc, hchars⟩ := List.forall_mem_cons.mp hascii
          rw [takeBytes, hc, if_pos (Nat.succ_le_succ (Nat.zero_le count)), Nat.add_sub_cancel,
            ih hchars (Nat.succ_le_succ_iff.mp hcount)]
          rfl

theorem getBytes_ascii {chars : List Char} (hascii : ∀ c ∈ chars, c.utf8Size = 1)
    {first last : Nat} (hfirst : first ≤ last) (hlast : last ≤ chars.length) :
    getBytes (String.ofList chars) first last =
      some (String.ofList ((chars.drop first).take (last - first))) := by
  have hrest : ∀ c ∈ chars.drop first, c.utf8Size = 1 :=
    fun c hc => hascii c (List.mem_of_mem_drop hc)
  have hlength : last - first ≤ (chars.drop first).length := by
    rw [List.length_drop]
    omega
  rw [getBytes, String.toList_ofList, dropBytes_ascii hascii (hfirst.trans hlast), Option.bind_some,
    takeBytes_ascii hrest hlength, Option.map_some]

theorem getBytesFrom_ascii {chars : List Char} (hascii : ∀ c ∈ chars, c.utf8Size = 1)
    {first : Nat} (hfirst : first ≤ chars.length) :
    getBytesFrom (String.ofList chars) first = some (String.ofList (chars.drop first)) := by
  rw [getBytesFrom, String.toList_ofList, dropBytes_ascii hascii hfirst, Option.map_some]

end Slices

section Text

open FixedDigits

theorem padded_toList {width n : Nat} (hwidth : 0 < width) (h : n < 10 ^ width) :
    (padded width n).toList = digits width n := by
  have hrepr : (Nat.repr n).toList = Nat.toDigits 10 n := String.toList_ofList
  have hlength : (Nat.repr n).length = (Nat.toDigits 10 n).length := by
    rw [← hrepr, String.length_toList]
  rw [padded, String.toList_append, String.toList_ofList, hrepr, hlength,
    replicate_append_toDigits hwidth h]

theorem utf8Size_of_isDigit {c : Char} (h : c.isDigit = true) : c.utf8Size = 1 := by
  rw [Char.isDigit, Bool.and_eq_true, decide_eq_true_eq, decide_eq_true_eq] at h
  have hlast : c.val ≤ '9'.val := h.2
  rw [Char.utf8Size_eq_one_iff]
  exact UInt32.le_trans hlast (by decide)

theorem ofNat_in_range {n last : Nat} (hfirst : 1 ≤ n) (hlast : n ≤ last) (hrange : last < 2 ^ 32) :
    (UInt32.ofNat n).toNat = n ∧ UInt32.ofNat n ≠ 0 ∧ ¬ UInt32.ofNat n > UInt32.ofNat last := by
  have hvalue : (UInt32.ofNat n).toNat = n := UInt32.toNat_ofNat_of_lt' (hlast.trans_lt hrange)
  have hbound : (UInt32.ofNat last).toNat = last := UInt32.toNat_ofNat_of_lt' hrange
  refine ⟨hvalue, fun hzero => ?_, fun hover => ?_⟩
  · rw [hzero] at hvalue
    exact absurd hfirst (by rw [← hvalue]; decide)
  · have := UInt32.lt_iff_toNat_lt.mp hover
    omega

structure TimeFields where
  year : Nat
  month : Nat
  day : Nat
  hour : Nat
  minute : Nat
  second : Nat
  year_lt : year < 10 ^ 4
  month_range : 1 ≤ month ∧ month ≤ 12
  day_range : 1 ≤ day ∧ day ≤ 31
  hour_lt : hour < 24
  minute_lt : minute < 60
  second_lt : second < 60

namespace TimeFields

def chars (fields : TimeFields) : List Char :=
  digits 4 fields.year ++ '-' :: (digits 2 fields.month ++ '-' :: (digits 2 fields.day ++ 'T' ::
    (digits 2 fields.hour ++ ':' :: (digits 2 fields.minute ++ ':' ::
      (digits 2 fields.second ++ ['Z'])))))

def seconds (fields : TimeFields) : Int :=
  daysFromCivil fields.year fields.month fields.day * 86400 + fields.hour * 3600 +
    fields.minute * 60 + fields.second

variable (fields : TimeFields)

theorem length_chars : fields.chars.length = 20 := by
  simp only [chars, List.length_append, List.length_cons, length_digits, List.length_nil]

theorem chars_ascii : ∀ c ∈ fields.chars, c.utf8Size = 1 := by
  have hdigit : ∀ {width n : Nat} {c : Char}, c ∈ digits width n → c.utf8Size = 1 := by
    intro width n c hc
    exact utf8Size_of_isDigit (isDigit_of_mem_digits hc)
  intro c hc
  simp only [chars, List.mem_append, List.mem_cons, List.not_mem_nil, or_false] at hc
  rcases hc with hc | rfl | hc | rfl | hc | rfl | hc | rfl | hc | rfl | hc | rfl <;>
    first | exact hdigit hc | rfl

theorem read_back :
    parseI32 (String.ofList (digits 4 fields.year)) = some (fields.year : Int) ∧
      Text.parseU32 (String.ofList (digits 2 fields.month)) = some (UInt32.ofNat fields.month) ∧
      Text.parseU32 (String.ofList (digits 2 fields.day)) = some (UInt32.ofNat fields.day) ∧
      Text.parseI64 (String.ofList (digits 2 fields.hour)) = some (fields.hour : Int) ∧
      Text.parseI64 (String.ofList (digits 2 fields.minute)) = some (fields.minute : Int) ∧
      Text.parseI64 (String.ofList (digits 2 fields.second)) = some (fields.second : Int) := by
  have hyear := fields.year_lt
  have hmonth := fields.month_range
  have hday := fields.day_range
  have hhour := fields.hour_lt
  have hminute := fields.minute_lt
  have hsecond := fields.second_lt
  refine ⟨?_, parseU32_digits (by decide) (by omega) (by omega),
    parseU32_digits (by decide) (by omega) (by omega),
    parseI64_digits (by decide) (by omega) (by omega),
    parseI64_digits (by decide) (by omega) (by omega),
    parseI64_digits (by decide) (by omega) (by omega)⟩
  rw [parseI32, parseI64_digits (by decide) hyear (by omega), Option.filter_some, if_pos]
  exact decide_eq_true (by omega)

/-- The text of the fields reads as their instant. -/
theorem parse_chars : parseUtcSeconds (String.ofList fields.chars) = some fields.seconds := by
  have hslice : ∀ first last, first ≤ last → last ≤ 20 →
      getBytes (String.ofList fields.chars) first last =
        some (String.ofList ((fields.chars.drop first).take (last - first))) := by
    intro first last hfirst hlast
    exact getBytes_ascii fields.chars_ascii hfirst (by rw [length_chars]; exact hlast)
  have hsuffix : getBytesFrom (String.ofList fields.chars) 19 = some "Z" :=
    getBytesFrom_ascii fields.chars_ascii (by rw [length_chars]; decide)
  have hlength : 20 ≤ (String.ofList fields.chars).utf8ByteSize := by
    rw [Utf8.utf8ByteSize_ofList, List.map_congr_left fields.chars_ascii, List.map_const',
      length_chars]
    decide
  have hyear : getBytes (String.ofList fields.chars) 0 4 =
      some (String.ofList (digits 4 fields.year)) := hslice 0 4 (by decide) (by decide)
  have hmonth : getBytes (String.ofList fields.chars) 5 7 =
      some (String.ofList (digits 2 fields.month)) := hslice 5 7 (by decide) (by decide)
  have hday : getBytes (String.ofList fields.chars) 8 10 =
      some (String.ofList (digits 2 fields.day)) := hslice 8 10 (by decide) (by decide)
  have hhour : getBytes (String.ofList fields.chars) 11 13 =
      some (String.ofList (digits 2 fields.hour)) := hslice 11 13 (by decide) (by decide)
  have hminute : getBytes (String.ofList fields.chars) 14 16 =
      some (String.ofList (digits 2 fields.minute)) := hslice 14 16 (by decide) (by decide)
  have hsecond : getBytes (String.ofList fields.chars) 17 19 =
      some (String.ofList (digits 2 fields.second)) := hslice 17 19 (by decide) (by decide)
  have hfirstDash : getBytes (String.ofList fields.chars) 4 5 = some "-" :=
    hslice 4 5 (by decide) (by decide)
  have hsecondDash : getBytes (String.ofList fields.chars) 7 8 = some "-" :=
    hslice 7 8 (by decide) (by decide)
  have htime : getBytes (String.ofList fields.chars) 10 11 = some "T" :=
    hslice 10 11 (by decide) (by decide)
  have hfirstColon : getBytes (String.ofList fields.chars) 13 14 = some ":" :=
    hslice 13 14 (by decide) (by decide)
  have hsecondColon : getBytes (String.ofList fields.chars) 16 17 = some ":" :=
    hslice 16 17 (by decide) (by decide)
  have hsuffixOk : isUtcSuffix "Z" = true := by decide
  obtain ⟨hyearText, hmonthText, hdayText, hhourText, hminuteText, hsecondText⟩ :=
    fields.read_back
  obtain ⟨hmonthValue, hmonthPositive, hmonthOver⟩ :=
    ofNat_in_range fields.month_range.1 fields.month_range.2 (by decide)
  have hmonthLast : ¬ UInt32.ofNat fields.month > 12 := hmonthOver
  obtain ⟨hdayValue, hdayPositive, hdayOver⟩ :=
    ofNat_in_range fields.day_range.1 fields.day_range.2 (by decide)
  have hdayLast : ¬ UInt32.ofNat fields.day > 31 := hdayOver
  have hinRange : (!(UInt32.ofNat fields.month = 0 || UInt32.ofNat fields.month > 12 ||
      UInt32.ofNat fields.day = 0 || UInt32.ofNat fields.day > 31 || (fields.hour : Int) > 23 ||
      (fields.minute : Int) > 59 || (fields.second : Int) > 59)) = true := by
    have hhour' : ¬ (fields.hour : Int) > 23 := by
      have := fields.hour_lt
      omega
    have hminute' : ¬ (fields.minute : Int) > 59 := by
      have := fields.minute_lt
      omega
    have hsecond' : ¬ (fields.second : Int) > 59 := by
      have := fields.second_lt
      omega
    simp only [hmonthPositive, hmonthLast, hdayPositive, hdayLast, hhour', hminute', hsecond',
      decide_false, Bool.or_self, Bool.not_false]
  simp only [parseUtcSeconds, hlength, hyear, hmonth, hday, hhour, hminute, hsecond, hsuffix,
    hfirstDash, hsecondDash, htime, hfirstColon, hsecondColon, hsuffixOk, hyearText, hmonthText,
    hdayText, hhourText, hminuteText, hsecondText, hinRange, Option.bind_eq_bind, Option.bind_some,
    guard_true, Option.pure_def, hmonthValue, hdayValue, seconds]

end TimeFields

section Order

/-- The texts of fields are ordered as the fields, from the year on. -/
theorem TimeFields.chars_lt_iff (a b : TimeFields) : a.chars < b.chars ↔
    a.year < b.year ∨ a.year = b.year ∧ (a.month < b.month ∨ a.month = b.month ∧
      (a.day < b.day ∨ a.day = b.day ∧ (a.hour < b.hour ∨ a.hour = b.hour ∧
        (a.minute < b.minute ∨ a.minute = b.minute ∧ a.second < b.second)))) := by
  have hlast : ∀ fields : TimeFields, fields.month < 10 ^ 2 ∧ fields.day < 10 ^ 2 ∧
      fields.hour < 10 ^ 2 ∧ fields.minute < 10 ^ 2 ∧ fields.second < 10 ^ 2 := by
    intro fields
    have hmonth := fields.month_range
    have hday := fields.day_range
    have hhour := fields.hour_lt
    have hminute := fields.minute_lt
    have hsecond := fields.second_lt
    omega
  obtain ⟨hmonth, hday, hhour, hminute, hsecond⟩ := hlast a
  obtain ⟨hmonth', hday', hhour', hminute', hsecond'⟩ := hlast b
  rw [chars, chars, field_lt_iff a.year_lt b.year_lt, field_lt_iff hmonth hmonth',
    field_lt_iff hday hday', field_lt_iff hhour hhour', field_lt_iff hminute hminute',
    field_lt_iff hsecond hsecond']
  simp

end Order

end Text

section RoundTrip

/-- The instants of a year. -/
def UtcYear (year timestamp : Int) : Prop :=
  yearStart year * 86400 ≤ timestamp ∧ timestamp < yearStart (year + 1) * 86400

/-- The instants whose year has four digits at most. -/
def FourDigitYear (timestamp : Int) : Prop :=
  ∃ year, 0 ≤ year ∧ year ≤ 9999 ∧ UtcYear year timestamp

/-- The fields of an instant, read off the calendar. -/
structure FieldsOf (fields : TimeFields) (timestamp : Int) : Prop where
  date : ∃ date : Date, date.number = timestamp / 86400 ∧ date.year = fields.year ∧
    date.month = fields.month ∧ date.day = fields.day
  hour : (fields.hour : Int) = timestamp % 86400 / 3600
  minute : (fields.minute : Int) = timestamp % 86400 % 3600 / 60
  second : (fields.second : Int) = timestamp % 86400 % 60
  text : (formatUnixSeconds timestamp).toList = fields.chars

theorem exists_fieldsOf {timestamp : Int} (h : FourDigitYear timestamp) :
    ∃ fields, FieldsOf fields timestamp := by
  obtain ⟨year, hfrom, hto, hstart, hend⟩ := h
  obtain ⟨date, hcivil, hnumber⟩ := civilFromDays_date (timestamp / 86400)
  have hyear : date.year = year := (date.year_iff year).mpr (by omega)
  have hmonth := date.month_range
  have hday := date.day_range
  have hlength : monthLength date.year date.month ≤ 31 := monthLength_le date.year hmonth
  have hdayTo : date.day ≤ 31 := hday.2.trans hlength
  let fields : TimeFields := {
    year := date.year.toNat
    month := date.month.toNat
    day := date.day.toNat
    hour := (timestamp % 86400 / 3600).toNat
    minute := (timestamp % 86400 % 3600 / 60).toNat
    second := (timestamp % 86400 % 60).toNat
    year_lt := by omega
    month_range := by omega
    day_range := by omega
    hour_lt := by omega
    minute_lt := by omega
    second_lt := by omega }
  refine ⟨fields, ⟨date, hnumber, ?_, ?_, ?_⟩, ?_, ?_, ?_, ?_⟩
  all_goals dsimp only [fields]
  iterate 6 omega
  have hpositive : 0 ≤ date.year := by omega
  simp only [formatUnixSeconds, hcivil, if_pos hpositive, String.toList_append]
  rw [padded_toList (by decide) fields.year_lt,
    padded_toList (by decide) (fields.month_range.2.trans_lt (by decide)),
    padded_toList (by decide) (fields.day_range.2.trans_lt (by decide)),
    padded_toList (by decide) (fields.hour_lt.trans (by decide)),
    padded_toList (by decide) (fields.minute_lt.trans (by decide)),
    padded_toList (by decide) (fields.second_lt.trans (by decide))]
  simp only [List.append_assoc]
  rfl

theorem FieldsOf.seconds_eq {fields : TimeFields} {timestamp : Int}
    (h : FieldsOf fields timestamp) : fields.seconds = timestamp := by
  obtain ⟨⟨date, hnumber, hyear, hmonth, hday⟩, hhour, hminute, hsecond, -⟩ := h
  rw [TimeFields.seconds, ← hyear, ← hmonth, ← hday, daysFromCivil_number, hnumber]
  omega

theorem FieldsOf.chars_lt_iff {fields fields' : TimeFields} {timestamp timestamp' : Int}
    (h : FieldsOf fields timestamp) (h' : FieldsOf fields' timestamp') :
    fields.chars < fields'.chars ↔ timestamp < timestamp' := by
  obtain ⟨⟨date, hnumber, hyear, hmonth, hday⟩, hhour, hminute, hsecond, -⟩ := h
  obtain ⟨⟨date', hnumber', hyear', hmonth', hday'⟩, hhour', hminute', hsecond', -⟩ := h'
  have hbefore : date.number < date'.number ↔ date.Before date' := Date.number_lt_iff
  have hsame : date.number = date'.number ↔ _ := Date.number_eq_iff
  rw [TimeFields.chars_lt_iff]
  rw [Date.Before] at hbefore
  omega

/-- Every instant of a year with four digits is read back from its text, and the texts of two such
instants are ordered as the instants are. -/
theorem timestamps_round_trip_and_sort :
    (∀ timestamp, FourDigitYear timestamp →
        parseUtcSeconds (formatUnixSeconds timestamp) = some timestamp) ∧
      ∀ first second, FourDigitYear first → FourDigitYear second →
        (first < second ↔ formatUnixSeconds first < formatUnixSeconds second) := by
  constructor
  · intro timestamp hyear
    obtain ⟨fields, hfields⟩ := exists_fieldsOf hyear
    have htext : formatUnixSeconds timestamp = String.ofList fields.chars := by
      rw [← hfields.text, String.ofList_toList]
    rw [htext, fields.parse_chars, hfields.seconds_eq]
  · intro first second hfirst hsecond
    obtain ⟨fields, hfields⟩ := exists_fieldsOf hfirst
    obtain ⟨fields', hfields'⟩ := exists_fieldsOf hsecond
    rw [String.lt_iff_toList_lt, hfields.text, hfields'.text, hfields.chars_lt_iff hfields']

theorem last_second_of_1969 :
    parseUtcSeconds (formatUnixSeconds (-1)) = some (-1) ∧
      ((-1 : Timestamp) < 0 ↔ formatUnixSeconds (-1) < formatUnixSeconds 0) :=
  ⟨timestamps_round_trip_and_sort.1 (-1) ⟨1969, by decide, by decide, by decide, by decide⟩,
    timestamps_round_trip_and_sort.2 (-1) 0 ⟨1969, by decide, by decide, by decide, by decide⟩
      ⟨1970, by decide, by decide, by decide, by decide⟩⟩

end RoundTrip

end SceneWorks
