import ComLayout.Toml.Reading
import ComLayout.Value.Moment

/-!
# Dates and times in TOML

A date is written by year, month and day between hyphens, a time by hours, minutes and seconds between
colons, with an optional fraction of which six digits count. A time may follow a date behind the letter
T or a space, and an offset may follow the time.
-/

namespace ComLayout.Toml

/-- Read the given number of ASCII digits. -/
def digits? (width : Nat) (cs : List Char) : Option (Nat × List Char) :=
  let digits := cs.take width
  if digits.length = width ∧ digits.all Char.isDigit then
    some (digits.foldl (fun n c => 10 * n + (c.toNat - 48)) 0, cs.drop width)
  else none

/-- Read two digits whose value lies between bounds. -/
def pair? (low high : Nat) (cs : List Char) : Option (Nat × List Char) := do
  let (n, rest) ← digits? 2 cs
  if low ≤ n ∧ n ≤ high then some (n, rest) else none

/-- Take a mark, which has to stand here. -/
def mark? (admits : Char → Bool) : List Char → Option (List Char)
  | c :: rest => if admits c then some rest else none
  | [] => none

/-- The fraction of a second in microseconds, zero if there is none. -/
def micros (cs : List Char) : Nat × List Char :=
  match cs with
  | '.' :: rest =>
    let digits := rest.takeWhile Char.isDigit
    if digits.isEmpty then (0, cs)
    else
      let six := digits.take 6 ++ List.replicate (6 - digits.length) '0'
      (six.foldl (fun n c => 10 * n + (c.toNat - 48)) 0, rest.dropWhile Char.isDigit)
  | _ => (0, cs)

/-- Read a time of day. -/
def clock? (cs : List Char) : Option (Clock × List Char) := do
  let (hour, rest) ← pair? 0 23 cs
  let (minute, rest) ← pair? 0 59 (← mark? (· == ':') rest)
  let (second, rest) ← pair? 0 59 (← mark? (· == ':') rest)
  let (micros, rest) := micros rest
  some (⟨hour, minute, second, micros⟩, rest)

/-- Read a date whose month and day are in bounds; the calendar need not have it. -/
def day? (cs : List Char) : Option (Day × List Char) := do
  let (year, rest) ← digits? 4 cs
  let (month, rest) ← pair? 1 12 (← mark? (· == '-') rest)
  let (day, rest) ← pair? 1 31 (← mark? (· == '-') rest)
  some (⟨year, month, day⟩, rest)

/-- Read an offset behind its sign. -/
def signedOffset? (negative : Bool) (cs : List Char) : Option (Int × List Char) := do
  let (hours, rest) ← pair? 0 23 cs
  let (minutes, rest) ← pair? 0 59 (← mark? (· == ':') rest)
  let total : Int := (60 * hours + minutes : Nat)
  some (if negative then -total else total, rest)

/-- Read an offset. -/
def offset? : List Char → Option (Int × List Char)
  | 'Z' :: rest => some (0, rest)
  | 'z' :: rest => some (0, rest)
  | '+' :: rest => signedOffset? false rest
  | '-' :: rest => signedOffset? true rest
  | _ => none

/-- A time behind a date, with its offset if there is one. -/
def clockBehind? (cs : List Char) : Option ((Clock × Option Int) × List Char) := do
  let (clock, rest) ← clock? (← mark? (fun c => c == 'T' || c == 't' || c == ' ') cs)
  match offset? rest with
  | some (offset, rest) => some ((clock, some offset), rest)
  | none => some ((clock, none), rest)

/-- Read a date, with the time behind it if there is one. -/
def dated? (cs : List Char) : Option ((Day × Moment) × List Char) := do
  let (day, rest) ← day? cs
  match clockBehind? rest with
  | some ((clock, offset), rest) => some ((day, .both day clock offset), rest)
  | none => some ((day, .day day), rest)

/-- Read a date or time if one stands here; a date has to be one that the calendar has. -/
def moment? (cs : List Char) : Option (Except Fault (Taken Moment)) :=
  match dated? cs with
  | some ((day, moment), rest) => some (if day.valid then .ok (moment, rest) else malformed)
  | none => (clock? cs).map fun (clock, rest) => .ok (.clock clock, rest)

end ComLayout.Toml
