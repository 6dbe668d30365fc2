import ComLayout.Number.Binary64

/-!
# The shortest decimal of a number

A number is written with the fewest digits that identify it: the decimal lies among the reals that
round to the number, no decimal with fewer digits does, and of those with as many digits it is the
nearest. It is written positionally if its leading digit stands between the fourth place behind the
point and the sixteenth before it, and with an exponent of at least two digits otherwise.
-/

namespace ComLayout.Number

/-- The value digits · 10^exponent. -/
structure Decimal where
  digits : Nat
  exponent : Int
deriving DecidableEq, Repr

/-- Compare a · 10^i with n · 2^j. -/
def compareScaled (a : Nat) (i : Int) (n : Nat) (j : Int) : Ordering :=
  compare (a * tenTo i.toNat * twoTo (-j).toNat) (n * twoTo j.toNat * tenTo (-i).toNat)

/-- Whether a decimal rounds to the number m · 2^q. Its neighbours are half a gap away on both sides;
below a power of two the gap is half as wide. The ends belong to an even mantissa. -/
def readsBack (m : Nat) (q : Int) (d : Decimal) : Bool :=
  let narrow := m = twoTo 52 ∧ Binary64.leastExponent < q
  let low := if narrow then 4 * m - 1 else 4 * m - 2
  let toLow := compareScaled d.digits d.exponent low (q - 2)
  let toHigh := compareScaled d.digits d.exponent (4 * m + 2) (q - 2)
  (toLow == .gt || (m % 2 == 0 && toLow == .eq)) && (toHigh == .lt || (m % 2 == 0 && toHigh == .eq))

/-- The least k with m · 2^q below 10^k. -/
def scaleOf (m : Nat) (q : Int) : Int :=
  let guess := ((m.log2 : Int) + q) * 30103 / 100000
  match [guess - 1, guess, guess + 1, guess + 2].find? fun k => compareScaled 1 k m q == .gt with
  | some k => k
  | none => guess + 3

/-- The decimals with a given last place on both sides of m · 2^q. -/
def gridNeighbours (m : Nat) (q : Int) (place : Int) : Decimal × Decimal :=
  let below := m * twoTo q.toNat * tenTo (-place).toNat / (twoTo (-q).toNat * tenTo place.toNat)
  (⟨below, place⟩, ⟨below + 1, place⟩)

/-- Of two decimals that read back the nearer, of equally near ones the even. -/
def nearer (m : Nat) (q : Int) (lower upper : Decimal) : Decimal :=
  match compareScaled (lower.digits + upper.digits) lower.exponent (2 * m) q with
  | .gt => lower
  | .lt => upper
  | .eq => if lower.digits % 2 = 0 then lower else upper

/-- The decimal with the last place `place` that reads back as m · 2^q, if there is one. -/
def onGrid (m : Nat) (q : Int) (place : Int) : Option Decimal :=
  let (lower, upper) := gridNeighbours m q place
  match readsBack m q lower, readsBack m q upper with
  | true, true => some (nearer m q lower upper)
  | true, false => some lower
  | false, true => some upper
  | false, false => none

/-- The shortest decimal of a positive number. -/
def shortest (m : Nat) (q : Int) : Decimal :=
  let scale := scaleOf m q
  ((List.range 17).findSome? fun (n : Nat) => onGrid m q (scale - (n + 1))).getD
    ⟨m * twoTo q.toNat * Nat.pow 5 (-q).toNat, min q 0⟩

/-- Drop the zeros at the end of the digits, at most `fuel` of them. -/
def dropZeros : (fuel : Nat) → Decimal → Decimal
  | 0, d => d
  | fuel + 1, d =>
    if d.digits % 10 = 0 then dropZeros fuel ⟨d.digits / 10, d.exponent + 1⟩ else d

/-- The digits of a natural number. -/
def digitsOf (n : Nat) : List Char := Nat.toDigits 10 n

/-- The exponent behind its mark: a sign and at least two digits. -/
def exponentText (e : Int) : List Char :=
  let digits := digitsOf e.natAbs
  'e' :: (if e < 0 then '-' else '+') :: (if digits.length < 2 then '0' :: digits else digits)

/-- Lay out a positive decimal. -/
def Decimal.layout (d : Decimal) : List Char :=
  let digits := digitsOf d.digits
  let leading : Int := digits.length - 1 + d.exponent
  if -4 ≤ leading ∧ leading < 16 then
    if 0 ≤ d.exponent then digits ++ List.replicate d.exponent.toNat '0' ++ ['.', '0']
    else if 0 ≤ leading then
      digits.take (leading.toNat + 1) ++ '.' :: digits.drop (leading.toNat + 1)
    else '0' :: '.' :: List.replicate (-leading - 1).toNat '0' ++ digits
  else
    let fraction := digits.drop 1
    digits.take 1 ++ (if fraction.isEmpty then [] else '.' :: fraction) ++ exponentText leading

namespace Binary64

/-- The text of a number. -/
def toText : Binary64 → String
  | .nan => "nan"
  | .infinite negative => if negative then "-inf" else "inf"
  | .finite negative mantissa exponent =>
    let layout :=
      if mantissa = 0 then ['0', '.', '0'] else (dropZeros 400 (shortest mantissa exponent)).layout
    String.ofList (if negative then '-' :: layout else layout)

end Binary64

end ComLayout.Number
