import GrammarConflict.Binary64

/-!
# The shortest decimal of a binary number

Of the decimals that round to a given number, `shortest` picks one with the fewest digits, of those
the nearest, and of two equally near the one whose last digit is even.  The decimals that round to
`m * 2 ^ q` form an interval around it, its ends included if and only if `m` is even; so it is
enough to look, for one digit, two digits and so on, at the two points of that decimal grid next to
the number.  Seventeen digits always suffice.

`text` writes the decimal out: positionally for powers of ten from -4 to 15, and with an exponent of
at least two digits otherwise.
-/

namespace GrammarConflict.Binary64

/-! ### Candidates -/

/-- A positive number with the interval that rounds to it, all over one denominator. -/
structure Neighbourhood where
  low : Nat
  value : Nat
  high : Nat
  denominator : Nat
  /-- Whether the two ends round to the number, too. -/
  closed : Bool

/-- The interval that rounds to `significand * 2 ^ exponent`.  Below a power of two the numbers lie
twice as dense. -/
def neighbourhood (significand : Nat) (exponent : Int) : Neighbourhood :=
  let scale := Nat.pow 2 exponent.toNat
  let below := if significand = Nat.pow 2 (precision - 1) ∧ minExponent < exponent then 1 else 2
  { low := (4 * significand - below) * scale
    value := 4 * significand * scale
    high := (4 * significand + 2) * scale
    denominator := 4 * Nat.pow 2 (-exponent).toNat
    closed := significand % 2 = 0 }

/-- Whether `k * 10 ^ power` lies in the interval. -/
def Neighbourhood.contains (n : Neighbourhood) (k : Nat) (power : Int) : Bool :=
  let point := k * Nat.pow 10 power.toNat * n.denominator
  let unit := Nat.pow 10 (-power).toNat
  if n.closed then n.low * unit ≤ point && point ≤ n.high * unit
  else n.low * unit < point && point < n.high * unit

/-- The point next to the number on the grid of `10 ^ power`, if one lies in the interval. -/
def Neighbourhood.onGrid? (n : Neighbourhood) (power : Int) : Option (Nat × Int) :=
  let numerator := n.value * Nat.pow 10 (-power).toNat
  let unit := n.denominator * Nat.pow 10 power.toNat
  let lower := numerator / unit
  let twice := 2 * (numerator % unit)
  let upperIsNearer := unit < twice || (unit == twice && lower % 2 == 1)
  match n.contains lower power, n.contains (lower + 1) power with
  | true, true => some (if upperIsNearer then lower + 1 else lower, power)
  | true, false => some (lower, power)
  | false, true => some (lower + 1, power)
  | false, false => none

/-- The power of ten of the leading digit. -/
def Neighbourhood.leadingPower (n : Neighbourhood) : Int :=
  if n.denominator ≤ n.value then (digitCount (n.value / n.denominator) : Int) - 1
  else
    let steps := ((List.range 400).find? fun k => n.denominator ≤ n.value * Nat.pow 10 k).getD 0
    (0 : Int) - steps

/-- Digits `k` and a power `p` with `k * 10 ^ p` the shortest decimal of the positive number. -/
def shortest (significand : Nat) (exponent : Int) : Nat × Int :=
  let n := neighbourhood significand exponent
  let leading := n.leadingPower
  let found := (List.range 17).findSome? fun (k : Nat) => n.onGrid? (leading - k)
  found.getD (significand, 0)

/-! ### Text -/

/-- The digits with the zeros at the end left out. -/
def significantDigits (k : Nat) : List Char :=
  ((Nat.toDigits 10 k).reverse.dropWhile (· == '0')).reverse

/-- Decimal digits written with a point: positionally if the leading digit stands for a power of ten
from -4 to 15, with an exponent otherwise.  `power` is that of the leading digit. -/
def writeDigits (digits : List Char) (power : Int) : List Char :=
  if -4 ≤ power ∧ power < 0 then
    '0' :: '.' :: (List.replicate ((-power).toNat - 1) '0' ++ digits)
  else if 0 ≤ power ∧ power < 16 then
    let whole := power.toNat + 1
    let after := digits.drop whole
    digits.take whole ++ List.replicate (whole - digits.length) '0' ++
      '.' :: (if after.isEmpty then ['0'] else after)
  else
    let exponent := Nat.toDigits 10 power.natAbs
    digits.take 1 ++ (if digits.length ≤ 1 then [] else '.' :: digits.drop 1) ++
      'e' :: (if power < 0 then '-' else '+') ::
        (List.replicate (2 - exponent.length) '0' ++ exponent)

/-- The text of a number: its shortest decimal, always with a point or an exponent. -/
def text : Binary64 → String
  | .nan => "nan"
  | .infinite negative => if negative then "-inf" else "inf"
  | .finite negative significand exponent =>
    let digits :=
      if significand = 0 then ['0', '.', '0']
      else
        let (k, power) := shortest significand exponent
        writeDigits (significantDigits k) (power + digitCount k - 1)
    String.ofList (if negative then '-' :: digits else digits)

end GrammarConflict.Binary64
