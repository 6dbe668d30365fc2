import ComLayout.Value.Moment

/-!
# Instants

An instant is counted in seconds and microseconds from the beginning of 1970 in universal time. Its
calendar date is found by eras of 400 years, each of which has the same number of days; within an era,
years begin in March, so that a leap day is the last day of its year.
-/

namespace ComLayout

/-- A point in time. -/
structure Instant where
  seconds : Nat
  micros : Nat
deriving DecidableEq, Repr

/-- The number of days in an era. -/
def daysInEra : Nat := 146097

/-- The days from the beginning of the era of the year zero to the beginning of 1970. -/
def daysBefore1970 : Nat := 719468

/-- The date of a day, counted from the beginning of 1970. -/
def Day.ofNumber (number : Nat) : Day :=
  let shifted := number + daysBefore1970
  let inEra := shifted % daysInEra
  let yearOfEra := (inEra - inEra / 1460 + inEra / 36524 - inEra / 146096) / 365
  let inYear := inEra - (365 * yearOfEra + yearOfEra / 4 - yearOfEra / 100)
  let fifth := (5 * inYear + 2) / 153
  let month := if fifth < 10 then fifth + 3 else fifth - 9
  let year := yearOfEra + 400 * (shifted / daysInEra) + (if month ≤ 2 then 1 else 0)
  ⟨year, month, inYear - (153 * fifth + 2) / 5 + 1⟩

namespace Instant

/-- The date of an instant. -/
def day (instant : Instant) : Day := Day.ofNumber (instant.seconds / 86400)

/-- The time of day of an instant. -/
def clock (instant : Instant) : Clock :=
  let inDay := instant.seconds % 86400
  ⟨inDay / 3600, inDay / 60 % 60, inDay % 60, instant.micros⟩

/-- The instant as log lines show it, to the millisecond. -/
def logText (instant : Instant) : String :=
  instant.day.text ++ " " ++ { instant.clock with micros := 0 }.text ++ "," ++
    padded 3 (instant.micros / 1000)

/-- The instant as reports show it. -/
def reportText (instant : Instant) : String :=
  instant.day.text ++ "T" ++ instant.clock.text ++ offsetText 0

end Instant

end ComLayout
