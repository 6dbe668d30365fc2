/-!
# Binary floating point numbers

The numbers of the binary64 format: zero and the finite numbers ± m · 2^q with m below 2^53 and q at
least -1074, two infinities, and one value that is not a number. A decimal is read as the nearest of
them, ties to the even mantissa. All arithmetic is exact, on integers.
-/

namespace ComLayout.Number

/-- A number of the binary64 format. -/
inductive Binary64 where
  | nan
  | infinite (negative : Bool)
  | finite (negative : Bool) (mantissa : Nat) (exponent : Int)
deriving DecidableEq, Repr

/-- A power of two. -/
def twoTo (k : Nat) : Nat := Nat.pow 2 k

/-- A power of ten. -/
def tenTo (k : Nat) : Nat := Nat.pow 10 k

/-- Divide and round to the nearest integer, ties to even. -/
def roundQuotient (num den : Nat) : Nat :=
  let quotient := num / den
  match compare (2 * (num % den)) den with
  | .lt => quotient
  | .gt => quotient + 1
  | .eq => quotient + quotient % 2

namespace Binary64

/-- The exponents of the format end here. -/
def leastExponent : Int := -1074

/-- The greatest exponent of a finite number. -/
def greatestExponent : Int := 971

/-- The largest k with 2^k at most num / den, for positive num and den. -/
def floorLog (num den : Nat) : Int :=
  let guess : Int := (num.log2 : Int) - den.log2
  if den * twoTo guess.toNat ≤ num * twoTo (-guess).toNat then guess else guess - 1

/-- The nearest number to the positive quotient num / den. -/
def ofQuotient (negative : Bool) (num den : Nat) : Binary64 :=
  let exponent := max leastExponent (floorLog num den - 52)
  let mantissa := roundQuotient (num * twoTo (-exponent).toNat) (den * twoTo exponent.toNat)
  let (mantissa, exponent) :=
    if mantissa = twoTo 53 then (twoTo 52, exponent + 1) else (mantissa, exponent)
  if greatestExponent < exponent then .infinite negative else .finite negative mantissa exponent

/-- The nearest number to digits · 10^exponent. Decimals far outside the range of the format are
infinite or zero without further calculation. -/
def ofDecimal (negative : Bool) (digits : Nat) (exponent : Int) : Binary64 :=
  if digits = 0 then .finite negative 0 0
  else
    let magnitude : Int := (Nat.log2 digits : Int) * 30103 / 100000 + exponent
    if 320 < magnitude then .infinite negative
    else if magnitude < -340 then .finite negative 0 0
    else ofQuotient negative (digits * tenTo exponent.toNat) (tenTo (-exponent).toNat)

/-- Zero of either sign. -/
def isZero : Binary64 → Bool
  | .finite _ mantissa _ => mantissa == 0
  | _ => false

/-- The comparison of a number with an integer, exact; none if it is not a number. -/
def compareInt (x : Binary64) (n : Int) : Option Ordering :=
  match x with
  | .nan => none
  | .infinite negative => some (if negative then .lt else .gt)
  | .finite negative mantissa exponent =>
    let signed : Int := if negative then -mantissa else mantissa
    some (compare (signed * twoTo exponent.toNat) (n * twoTo (-exponent).toNat))

end Binary64

end ComLayout.Number
