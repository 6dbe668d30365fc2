/-!
# Dates and times

A calendar date, a time of day, or both with an optional offset in minutes. Each has a plain text and a
descriptive text, which is used where the moment stands inside a list or a table.
-/

namespace ComLayout

/-- A calendar date. -/
structure Day where
  year : Nat
  month : Nat
  day : Nat
deriving DecidableEq, Repr

/-- A time of day, to the microsecond. -/
structure Clock where
  hour : Nat
  minute : Nat
  second : Nat
  micros : Nat
deriving DecidableEq, Repr

/-- A date, a time, or both; the offset from universal time is in minutes. -/
inductive Moment where
  | day (day : Day)
  | clock (clock : Clock)
  | both (day : Day) (clock : Clock) (offset : Option Int)
deriving DecidableEq, Repr

/-- A natural number with leading zeros. -/
def padded (width n : Nat) : String :=
  let digits := Nat.toDigits 10 n
  String.ofList (List.replicate (width - digits.length) '0' ++ digits)

/-- A leap year. -/
def isLeapYear (year : Nat) : Bool := year % 4 = 0 && (year % 100 ≠ 0 || year % 400 = 0)

/-- The length of a month. -/
def daysInMonth (year month : Nat) : Nat :=
  if month = 2 then (if isLeapYear year then 29 else 28)
  else if month = 4 ∨ month = 6 ∨ month = 9 ∨ month = 11 then 30 else 31

/-- The dates that the calendar has. -/
def Day.valid (d : Day) : Bool :=
  1 ≤ d.year && 1 ≤ d.month && d.month ≤ 12 && 1 ≤ d.day && d.day ≤ daysInMonth d.year d.month

/-- The plain text of a date. -/
def Day.text (d : Day) : String := padded 4 d.year ++ "-" ++ padded 2 d.month ++ "-" ++ padded 2 d.day

/-- The plain text of a time. -/
def Clock.text (c : Clock) : String :=
  padded 2 c.hour ++ ":" ++ padded 2 c.minute ++ ":" ++ padded 2 c.second ++
    (if c.micros = 0 then "" else "." ++ padded 6 c.micros)

/-- The plain text of an offset. -/
def offsetText (minutes : Int) : String :=
  (if minutes < 0 then "-" else "+") ++ padded 2 (minutes.natAbs / 60) ++ ":" ++
    padded 2 (minutes.natAbs % 60)

/-- The plain text of a moment. -/
def Moment.text : Moment → String
  | .day d => d.text
  | .clock c => c.text
  | .both d c offset => d.text ++ " " ++ c.text ++ (offset.map offsetText).getD ""

/-- Numbers with commas between them. -/
def listed (numbers : List Nat) : String := String.intercalate ", " (numbers.map toString)

/-- The fields of a time, without zero seconds and microseconds at the end. -/
def Clock.fields (c : Clock) : List Nat :=
  if c.micros ≠ 0 then [c.hour, c.minute, c.second, c.micros]
  else if c.second ≠ 0 then [c.hour, c.minute, c.second]
  else [c.hour, c.minute]

/-- The descriptive text of an offset. -/
def offsetDescription (minutes : Int) : String :=
  if minutes = 0 then "datetime.timezone.utc"
  else if minutes < 0 then
    "datetime.timezone(datetime.timedelta(days=-1, seconds=" ++ toString (86400 + minutes * 60) ++ "))"
  else "datetime.timezone(datetime.timedelta(seconds=" ++ toString (minutes * 60) ++ "))"

/-- The descriptive text of a moment. -/
def Moment.description : Moment → String
  | .day d => "datetime.date(" ++ listed [d.year, d.month, d.day] ++ ")"
  | .clock c => "datetime.time(" ++ listed c.fields ++ ")"
  | .both d c offset =>
    "datetime.datetime(" ++ listed ([d.year, d.month, d.day] ++ c.fields) ++
      ((offset.map fun minutes => ", tzinfo=" ++ offsetDescription minutes).getD "") ++ ")"

end ComLayout
