/-
Points of time in universal time.

* `civil` — the date of a day, counted from the first day of 1970;
* `timestamp` — a point of time as date, time of day and offset zero.
-/
import UtilityCss.Text.Basic

namespace UtilityCss

namespace Cli

/-- The year, month and day of a day, counted from 1970-01-01. The count is
moved to 0000-03-01, so that a leap day ends a year and 146097 days make an era
of 400 years. -/
def civil (days : Nat) : Nat × Nat × Nat :=
  let shifted := days + 719468
  let era := shifted / 146097
  let dayOfEra := shifted % 146097
  let yearOfEra := (dayOfEra - dayOfEra / 1460 + dayOfEra / 36524 - dayOfEra / 146096) / 365
  let dayOfYear := dayOfEra - (365 * yearOfEra + yearOfEra / 4 - yearOfEra / 100)
  let shiftedMonth := (5 * dayOfYear + 2) / 153
  let day := dayOfYear - (153 * shiftedMonth + 2) / 5 + 1
  let month := if shiftedMonth < 10 then shiftedMonth + 3 else shiftedMonth - 9
  let year := era * 400 + yearOfEra
  (if month ≤ 2 then year + 1 else year, month, day)

example : civil 0 = (1970, 1, 1) := by decide +kernel
example : civil 11016 = (2000, 2, 29) := by decide +kernel
example : civil 20453 = (2025, 12, 31) := by decide +kernel

/-- A numeral of at least `width` digits. -/
def padded (width n : Nat) : Text :=
  Text.padded width (Text.decimal n)

/-- A point of time, counted in microseconds from the beginning of 1970. Whole
seconds have no fraction. -/
def timestamp (microseconds : Nat) : Text :=
  let seconds := microseconds / 1000000
  let fraction := microseconds % 1000000
  let (year, month, day) := civil (seconds / 86400)
  let second := seconds % 86400
  let date := Text.join "-" [padded 4 year, padded 2 month, padded 2 day]
  let time := Text.join ":" [padded 2 (second / 3600), padded 2 (second / 60 % 60),
    padded 2 (second % 60)]
  let fractionText : Text := if fraction = 0 then "" else '.' :: padded 6 fraction
  date ++ "T" ++ time ++ fractionText ++ "+00:00"

example : timestamp 1735689599000123 = ("2024-12-31T23:59:59.000123+00:00" : Text) := by
  decide +kernel

end Cli

end UtilityCss
