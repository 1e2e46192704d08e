import SceneWorks.Contracts

/-!
`format_unix_seconds` of `time.rs`: the canonical UTC text of an instant.
-/

namespace SceneWorks

/-- The decimal digits of `n`, padded with zeros to at least `width`. -/
def padded (width n : Nat) : String :=
  let digits := Nat.repr n
  String.ofList (List.replicate (width - digits.length) '0') ++ digits

def civilFromDays (days : Int) : Int × Int × Int :=
  let adjustedDays := days + 719468
  let era := adjustedDays / 146097
  let dayOfEra := adjustedDays - era * 146097
  let yearOfEra :=
    (dayOfEra - dayOfEra / 1460 + dayOfEra / 36524 - dayOfEra / 146096) / 365
  let dayOfYear := dayOfEra - (365 * yearOfEra + yearOfEra / 4 - yearOfEra / 100)
  let monthPrime := (5 * dayOfYear + 2) / 153
  let day := dayOfYear - (153 * monthPrime + 2) / 5 + 1
  let month := monthPrime + if monthPrime < 10 then 3 else -9
  let year := yearOfEra + era * 400 + if month ≤ 2 then 1 else 0
  (year, month, day)

def formatUnixSeconds (timestamp : Timestamp) : String :=
  let (year, month, day) := civilFromDays (timestamp / 86400)
  let secondsOfDay := timestamp % 86400
  let yearText := if 0 ≤ year then padded 4 year.toNat else "-" ++ padded 3 (-year).toNat
  yearText ++ "-" ++ padded 2 month.toNat ++ "-" ++ padded 2 day.toNat ++ "T" ++
    padded 2 (secondsOfDay / 3600).toNat ++ ":" ++
    padded 2 (secondsOfDay % 3600 / 60).toNat ++ ":" ++ padded 2 (secondsOfDay % 60).toNat ++ "Z"

example : formatUnixSeconds 1600000000 = "2020-09-13T12:26:40Z" := by decide +kernel

end SceneWorks
