/-!
# Binary floating point numbers

A number of the double precision format: finite with a significand below `2 ^ 53` and a power of
two, or infinite, or not a number.  Nothing here computes with machine floats, so every value and
every rounding is exact.

`ofDecimal` rounds a written decimal to the nearest number of the format, a tie to the even
significand; `toRat?` gives the exact value back.
-/

namespace GrammarConflict

/-- A number of the double precision format. -/
inductive Binary64 where
  /-- The number `± significand * 2 ^ exponent`. -/
  | finite (negative : Bool) (significand : Nat) (exponent : Int)
  | infinite (negative : Bool)
  | nan
deriving DecidableEq, Repr, Inhabited

namespace Binary64

/-! ### The format -/

/-- The number of binary digits of a significand. -/
def precision : Nat := 53

/-- The exponent of the smallest numbers. -/
def minExponent : Int := -1074

/-- The exponent of the largest numbers. -/
def maxExponent : Int := 971

/-- The exact value of a finite number. -/
def toRat? : Binary64 → Option Rat
  | .finite negative significand exponent =>
    let magnitude : Rat := significand * (2 : Rat) ^ exponent
    some (if negative then -magnitude else magnitude)
  | .infinite _ => none
  | .nan => none

/-! ### Rounding -/

/-- The quotient rounded to the nearest whole number, a tie to the even one. -/
def roundDiv (numerator denominator : Nat) : Nat :=
  let quotient := numerator / denominator
  let twice := 2 * (numerator % denominator)
  if twice < denominator then quotient
  else if denominator < twice then quotient + 1
  else quotient + quotient % 2

/-- The exponent at which the positive quotient has a significand of full precision, or the least
exponent of the format if it is too small for that. -/
def exponentOf (numerator denominator : Nat) : Int :=
  let estimate : Int := (numerator.log2 : Int) - denominator.log2 - precision + 1
  -- The quotient is at least `2 ^ (precision - 1)` units of `2 ^ exponent`, or half of that.
  let reached :=
    if 0 ≤ estimate then denominator * Nat.pow 2 (estimate.toNat + precision - 1) ≤ numerator
    else denominator * Nat.pow 2 (precision - 1) ≤ numerator * Nat.pow 2 (-estimate).toNat
  max minExponent (if reached then estimate else estimate - 1)

/-- The number of the format nearest to a positive quotient. -/
def ofQuotient (negative : Bool) (numerator denominator : Nat) : Binary64 :=
  let exponent := exponentOf numerator denominator
  let significand :=
    if 0 ≤ exponent then roundDiv numerator (denominator * Nat.pow 2 exponent.toNat)
    else roundDiv (numerator * Nat.pow 2 (-exponent).toNat) denominator
  -- Rounding up may have carried into one more binary digit.
  let (significand, exponent) :=
    if significand = Nat.pow 2 precision then (Nat.pow 2 (precision - 1), exponent + 1)
    else (significand, exponent)
  if maxExponent < exponent then .infinite negative else .finite negative significand exponent

/-- The number of decimal digits. -/
def digitCount (n : Nat) : Nat :=
  (Nat.toDigits 10 n).length

/-- The number of the format nearest to `± digits * 10 ^ power`. -/
def ofDecimal (negative : Bool) (digits : Nat) (power : Int) : Binary64 :=
  let magnitude : Int := digitCount digits + power
  if digits = 0 ∨ magnitude < -400 then .finite negative 0 minExponent
  else if 400 < magnitude then .infinite negative
  else if 0 ≤ power then ofQuotient negative (digits * Nat.pow 10 power.toNat) 1
  else ofQuotient negative digits (Nat.pow 10 (-power).toNat)

end Binary64

end GrammarConflict
