import GrammarConflict.Text.Blank

/-!
# Decimal digits and written integers

Each script has its own ten decimal digits, which stand one after another from its zero.
`integer?` reads an integer in any of them: blanks around it, a sign, and single underscores between
digits are allowed.  A written integer has at most `mostDigits` digits, wherever it is read.
-/

namespace GrammarConflict.Text

/-- The zeros of the scripts, by version 14 of the Unicode standard. -/
def scriptZeros : List Nat :=
  [0x30, 0x660, 0x6f0, 0x7c0, 0x966, 0x9e6, 0xa66, 0xae6, 0xb66, 0xbe6, 0xc66, 0xce6, 0xd66,
    0xde6, 0xe50, 0xed0, 0xf20, 0x1040, 0x1090, 0x17e0, 0x1810, 0x1946, 0x19d0, 0x1a80, 0x1a90,
    0x1b50, 0x1bb0, 0x1c40, 0x1c50, 0xa620, 0xa8d0, 0xa900, 0xa9d0, 0xa9f0, 0xaa50, 0xabf0,
    0xff10, 0x104a0, 0x10d30, 0x11066, 0x110f0, 0x11136, 0x111d0, 0x112f0, 0x11450, 0x114d0,
    0x11650, 0x116c0, 0x11730, 0x118e0, 0x11950, 0x11c50, 0x11d50, 0x11da0, 0x16a60, 0x16ac0,
    0x16b50, 0x1d7ce, 0x1d7d8, 0x1d7e2, 0x1d7ec, 0x1d7f6, 0x1e140, 0x1e2f0, 0x1e950, 0x1fbf0]

/-- The value of a decimal digit of any script. -/
def digitValue? (c : Char) : Option Nat :=
  (scriptZeros.find? fun first => first ≤ c.toNat && c.toNat < first + 10).map fun first =>
    c.toNat - first

/-- A decimal digit of any script. -/
def isDecimalDigit (c : Char) : Bool :=
  (digitValue? c).isSome

/-- Reads on after a digit, with `value` for the digits so far: an underscore has to be followed by
one more digit. -/
def digitsAfter? (value : Nat) : List Char → Option Nat
  | [] => some value
  | '_' :: c :: rest => do digitsAfter? (10 * value + (← digitValue? c)) rest
  | c :: rest => do digitsAfter? (10 * value + (← digitValue? c)) rest

/-- The value of a nonempty run of digits with single underscores between them. -/
def natural? : List Char → Option Nat
  | [] => none
  | c :: rest => do digitsAfter? (← digitValue? c) rest

/-- The blanks that may surround a written integer: all but the separators U+001C to U+001F. -/
def surroundsInteger (c : Char) : Bool :=
  isBlank c && !inRanges [(0x1c, 0x1f)] c

/-- The most digits that a written integer may have, leading zeros among them. -/
def mostDigits : Nat :=
  4300

/-- The words for an integer with too many digits. -/
def tooManyDigits (count : Nat) : String :=
  "Exceeds the limit (" ++ toString mostDigits ++ " digits) for integer string conversion: " ++
    "value has " ++ toString count ++
    " digits; use sys.set_int_max_str_digits() to increase the limit"

/-- The integer that the characters write, if they write one. -/
def integer? (cs : List Char) : Option Int :=
  if mostDigits < cs.countP isDecimalDigit then none
  else
    match trimBoth surroundsInteger cs with
    | '-' :: digits => (natural? digits).map fun n => -(n : Int)
    | '+' :: digits => (natural? digits).map Int.ofNat
    | digits => (natural? digits).map Int.ofNat

end GrammarConflict.Text
