import ComLayout.Number.Reader
import ComLayout.Toml.Quoted
import ComLayout.Value.Basic

/-!
# Numbers in TOML

An integer is decimal with an optional sign and no leading zero, or hexadecimal, octal or binary behind
its mark. A decimal number with a fraction or an exponent is a real, as are `inf` and `nan`. Single
underscores may stand between digits. A reader takes the longest number that stands at the front.
-/

namespace ComLayout.Toml

open ComLayout.Number

/-- Digits with single underscores between them, and what follows the last digit; the flag tells
whether a digit stands before. -/
def digitRunFrom (isDigit : Char → Bool) : (afterDigit : Bool) → List Char → List Char × List Char
  | _, [] => ([], [])
  | afterDigit, c :: rest =>
    if isDigit c then
      let (digits, behind) := digitRunFrom isDigit true rest
      (c :: digits, behind)
    else if afterDigit && c == '_' && rest.head?.any isDigit then digitRunFrom isDigit false rest
    else ([], c :: rest)

/-- Digits with single underscores between them, and what follows the last digit. -/
def digitRun (isDigit : Char → Bool) (cs : List Char) : List Char × List Char :=
  digitRunFrom isDigit false cs

/-- The value of digits in a base. -/
def valueIn (base : Nat) (digits : List Char) : Nat :=
  digits.foldl (fun n c => base * n + (hexValue? c).getD 0) 0

/-- The base for the mark behind a zero. -/
def baseOf? : Char → Option Nat
  | 'x' => some 16
  | 'o' => some 8
  | 'b' => some 2
  | _ => none

/-- Whether a character is a digit in a base. -/
def isDigitIn (base : Nat) (c : Char) : Bool := (hexValue? c).any (· < base)

/-- An integer behind the mark of its base. -/
def based? : List Char → Option (Value × List Char)
  | '0' :: mark :: rest => do
    let base ← baseOf? mark
    let (digits, rest) := digitRun (isDigitIn base) rest
    if digits.isEmpty then none else some (.int (valueIn base digits), rest)
  | _ => none

/-- The whole part of a decimal number: a zero, or digits that begin with another one. -/
def wholePart : List Char → List Char × List Char
  | '0' :: rest => (['0'], rest)
  | cs => digitRun Char.isDigit cs

/-- The fraction of a decimal number, if there is one, with its point. -/
def fractionPart : List Char → List Char × List Char
  | '.' :: rest =>
    let (digits, more) := digitRun Char.isDigit rest
    if digits.isEmpty then ([], '.' :: rest) else ('.' :: digits, more)
  | cs => ([], cs)

/-- A sign, as it stands. -/
def signPart : List Char → List Char × List Char
  | '+' :: rest => (['+'], rest)
  | '-' :: rest => (['-'], rest)
  | cs => ([], cs)

/-- The exponent of a decimal number, if there is one, with its mark. -/
def exponentPart : List Char → List Char × List Char
  | [] => ([], [])
  | mark :: rest =>
    let (sign, behind) := signPart rest
    let (digits, more) := digitRun Char.isDigit behind
    if (mark == 'e' || mark == 'E') && !digits.isEmpty then (mark :: sign ++ digits, more)
    else ([], mark :: rest)

/-- A decimal integer or real. -/
def decimal (cs : List Char) : Except Fault (Taken Value) :=
  let (sign, body) := signPart cs
  let (whole, rest) := wholePart body
  let (fraction, rest) := fractionPart rest
  let (exponent, rest) := exponentPart rest
  if whole.isEmpty then malformed
  else if fraction.isEmpty && exponent.isEmpty then
    if maxDigits < whole.length then .error (.tooManyDigits whole.length)
    else .ok (.int (signed (sign == ['-']) (digitsValue whole)), rest)
  else match realOfPlain? (sign ++ whole ++ fraction ++ exponent) with
    | some x => .ok (.real x, rest)
    | none => malformed

/-- Infinity or no number, with an optional sign. -/
def special? (cs : List Char) : Option (Value × List Char) :=
  let (sign, body) := signPart cs
  match body with
  | 'i' :: 'n' :: 'f' :: rest => some (.real (.infinite (sign == ['-'])), rest)
  | 'n' :: 'a' :: 'n' :: rest => some (.real .nan, rest)
  | _ => none

/-- Read a number. -/
def readNumber (cs : List Char) : Except Fault (Taken Value) :=
  match based? cs <|> special? cs with
  | some found => .ok found
  | none => decimal cs

end ComLayout.Toml
