/-!
# Timestamps

A moment of Coordinated Universal Time as seconds since 1970 and nanoseconds within the
second, written by the calendar rules of RFC 3339. A leap second has nanoseconds from
`10 ^ 9` on and belongs to the last second of a minute. Years run from -262143 to 262142.

## Main definitions

* `Timestamp`, `Timestamp.ofParts?` — moments and the parts that make one.
* `civil` — the year, month and day of a day number.
* `Timestamp.render` — the text of a moment.
-/

namespace ServiceHealth

/-- The second at which year -262143 begins. -/
def firstSecond : Int := -8334601228800

/-- The last second of year 262142. -/
def lastSecond : Int := 8210266876799

/-- The number of nanoseconds in a second. -/
def nanosecondsPerSecond : Nat := 1000000000

/-- A moment: seconds since 1970, and nanoseconds of which a leap second has `10 ^ 9` or
more. -/
structure Timestamp where
  seconds : Int
  nanoseconds : Nat
  deriving DecidableEq, Repr, Inhabited

/-- The calendar date of the day that lies `days` after 1970-01-01, as year, month and day.
Years are counted from March in eras of 400 years. -/
def civil (days : Int) : Int × Nat × Nat :=
  let shifted := days + 719468
  let era := shifted.fdiv 146097
  let dayOfEra := (shifted.fmod 146097).toNat
  let yearOfEra := (dayOfEra - dayOfEra / 1460 + dayOfEra / 36524 - dayOfEra / 146096) / 365
  let dayOfYear := dayOfEra - (365 * yearOfEra + yearOfEra / 4 - yearOfEra / 100)
  let shiftedMonth := (5 * dayOfYear + 2) / 153
  let day := dayOfYear - (153 * shiftedMonth + 2) / 5 + 1
  let month := if shiftedMonth < 10 then shiftedMonth + 3 else shiftedMonth - 9
  let year := era * 400 + yearOfEra + (if month ≤ 2 then 1 else 0)
  (year, month, day)

/-- A natural number with zeros in front up to a width. -/
def padded (width n : Nat) : String :=
  let cs := Nat.toDigits 10 n
  String.ofList (List.replicate (width - cs.length) '0' ++ cs)

namespace Timestamp

/-- The moment with these parts: within the years that are supported, and with nanoseconds of
a leap second only in the last second of a minute. -/
def ofParts? (seconds : Int) (nanoseconds : Nat) : Option Timestamp :=
  if firstSecond ≤ seconds ∧ seconds ≤ lastSecond ∧
      (nanoseconds < nanosecondsPerSecond ∨
        (nanoseconds < 2 * nanosecondsPerSecond ∧ seconds.fmod 60 = 59)) then
    some ⟨seconds, nanoseconds⟩
  else none

/-- The moment that is a number of nanoseconds away from the start of 1970. -/
def ofNanoseconds (n : Int) : Timestamp := 
  ⟨n.fdiv nanosecondsPerSecond, (n.fmod nanosecondsPerSecond).toNat⟩

/-- A year: four digits, and outside 0 to 9999 a sign before at least four digits. -/
def yearText (year : Int) : String :=
  if 0 ≤ year ∧ year ≤ 9999 then padded 4 year.toNat
  else (if year < 0 then "-" else "+") ++ padded 4 year.natAbs

/-- The fraction of a second: nothing, or as many groups of three digits as are needed. -/
def fractionText (nanoseconds : Nat) : String :=
  if nanoseconds = 0 then ""
  else if nanoseconds % 1000000 = 0 then "." ++ padded 3 (nanoseconds / 1000000)
  else if nanoseconds % 1000 = 0 then "." ++ padded 6 (nanoseconds / 1000)
  else "." ++ padded 9 nanoseconds

/-- The text of a moment; a leap second is second 60. -/
def render (t : Timestamp) : String :=
  let (year, month, day) := civil (t.seconds.fdiv 86400)
  let ofDay := (t.seconds.fmod 86400).toNat
  let isLeap := nanosecondsPerSecond ≤ t.nanoseconds
  let second := ofDay % 60 + (if isLeap then 1 else 0)
  let fraction := if isLeap then t.nanoseconds - nanosecondsPerSecond else t.nanoseconds
  yearText year ++ "-" ++ padded 2 month ++ "-" ++ padded 2 day ++ "T" ++
    padded 2 (ofDay / 3600) ++ ":" ++ padded 2 (ofDay / 60 % 60) ++ ":" ++ padded 2 second ++
    fractionText fraction ++ "Z"

example : (Timestamp.mk 1700000000 5000000).render = "2023-11-14T22:13:20.005Z" := by
  decide +kernel
example : (Timestamp.mk (-62198755200) 0).render = "-0001-01-01T00:00:00Z" := by
  decide +kernel

end Timestamp

end ServiceHealth
