import ComLayout.Number.Binary64
import ComLayout.Text.Blank
import ComLayout.Text.DecimalDigit

/-!
# Reading numbers

An integer is an optional sign and digits; a real has digits on at least one side of an optional point,
and an optional exponent. Digits of any script count, single underscores may stand between two
digits, and white space may surround the whole. Of the ASCII characters only the six usual blanks are
white space here. An integer may have at most 4300 digits.
-/

namespace ComLayout.Number

open Text

/-- The ASCII form of a character of a number: digits of all scripts become digits, white space a
space, and what cannot stand in a number a question mark. -/
def plainChar (c : Char) : Char :=
  if c.toNat < 128 then c
  else if isBlank c then ' '
  else match digitValue? c with
    | some d => Char.ofNat (48 + d)
    | none => '?'

/-- The ASCII form of a number without the white space around it. -/
def plainForm (cs : List Char) : List Char :=
  dropTail isAsciiBlank ((cs.map plainChar).dropWhile isAsciiBlank)

/-- Leave out the underscores, each of which has to stand between two digits. -/
def joinDigits : (afterDigit : Bool) → List Char → Option (List Char)
  | _, [] => some []
  | afterDigit, c :: rest =>
    if c == '_' then
      if afterDigit && rest.head?.any Char.isDigit then joinDigits false rest else none
    else (joinDigits c.isDigit rest).map (c :: ·)

/-- The value of ASCII digits. -/
def digitsValue (digits : List Char) : Nat := digits.foldl (fun n c => 10 * n + (c.toNat - 48)) 0

/-- A sign, if there is one, and what follows; the sign is true for minus. -/
def splitSign : List Char → Bool × List Char
  | '+' :: rest => (false, rest)
  | '-' :: rest => (true, rest)
  | cs => (false, cs)

/-- The most digits that an integer may have. -/
def maxDigits : Nat := 4300

/-- An integer with a sign. -/
def signed (negative : Bool) (n : Nat) : Int := if negative then -n else n

/-- Read an integer. -/
def readInt? (cs : List Char) : Option Int := do
  let (negative, body) := splitSign (plainForm cs)
  let digits ← joinDigits false body
  if !digits.isEmpty && digits.all Char.isDigit && digits.length ≤ maxDigits then
    some (signed negative (digitsValue digits))
  else none

/-- Read the exponent of a real, zero if there is none. -/
def readExponent? : List Char → Option Int
  | [] => some 0
  | mark :: rest =>
    let (negative, digits) := splitSign rest
    if (mark == 'e' || mark == 'E') && !digits.isEmpty && digits.all Char.isDigit then
      some (signed negative (digitsValue digits))
    else none

/-- The digits behind a point, and what follows them. -/
def splitFraction : List Char → List Char × List Char
  | '.' :: rest => (rest.takeWhile Char.isDigit, rest.dropWhile Char.isDigit)
  | cs => ([], cs)

/-- Read a real from ASCII digits, a point and an exponent. -/
def realOfPlain? (cs : List Char) : Option Binary64 := do
  let (negative, body) := splitSign cs
  let whole := body.takeWhile Char.isDigit
  let (fraction, rest) := splitFraction (body.dropWhile Char.isDigit)
  let exponent ← readExponent? rest
  if whole.isEmpty && fraction.isEmpty then none
  else some (Binary64.ofDecimal negative (digitsValue (whole ++ fraction))
    (exponent - fraction.length))

/-- Read a real. -/
def readReal? (cs : List Char) : Option Binary64 := joinDigits false (plainForm cs) >>= realOfPlain?

end ComLayout.Number
