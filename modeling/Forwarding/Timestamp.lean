/-!
Points in time as texts: date, time and offset of a moment in universal time.
-/

namespace Forwarding.Timestamp

/-- The days of four hundred years, after which the calendar repeats. -/
def cycleDays : Nat := 146097

structure Date where
  year : Nat
  /-- From one to twelve. -/
  month : Nat
  /-- From one on. -/
  day : Nat
  deriving DecidableEq, Repr, Inhabited

/-- The date that lies some days behind the first of March of the year 0. With years that start in
March the day of a leap year is the last of its year, and months repeat every 153 days. -/
def Date.ofDays (days : Nat) : Date :=
  let day := days % cycleDays
  let year := (day - day / 1460 + day / 36524 - day / 146096) / 365
  let day := day - (365 * year + year / 4 - year / 100)
  let month := (5 * day + 2) / 153
  { year := days / cycleDays * 400 + year + if 10 ≤ month then 1 else 0
    month := if month < 10 then month + 3 else month - 9
    day := day - (153 * month + 2) / 5 + 1 }

/-- The days from the first of March of the year 0 to the first of January 1970. -/
def daysToEpoch : Nat := 719468

/-- A number with at least `width` digits. -/
def padded (width n : Nat) : String :=
  let digits := (toString n).toList
  String.ofList (List.replicate (width - digits.length) '0' ++ digits)

/-- A part of a second with as many groups of three digits as it needs. -/
def fractionText (nanoseconds : Nat) : String :=
  if nanoseconds = 0 then ""
  else if nanoseconds % 1000000 = 0 then "." ++ padded 3 (nanoseconds / 1000000)
  else if nanoseconds % 1000 = 0 then "." ++ padded 6 (nanoseconds / 1000)
  else "." ++ padded 9 nanoseconds

/-- The moment that lies some nanoseconds behind the start of 1970. -/
def text (nanoseconds : Nat) : String :=
  let seconds := nanoseconds / 1000000000
  let date := Date.ofDays (seconds / 86400 + daysToEpoch)
  padded 4 date.year ++ "-" ++ padded 2 date.month ++ "-" ++ padded 2 date.day ++ "T" ++
    padded 2 (seconds / 3600 % 24) ++ ":" ++ padded 2 (seconds / 60 % 60) ++ ":" ++
    padded 2 (seconds % 60) ++ fractionText (nanoseconds % 1000000000) ++ "+00:00"

end Forwarding.Timestamp
