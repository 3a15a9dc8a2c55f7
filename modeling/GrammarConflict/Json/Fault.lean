import GrammarConflict.Text.Digit

/-!
# What can be wrong with a text in the data format

A fault has a cause and a place.  The place is a count of characters from the start of the text,
which messages also give as a line and a column, both counted from one.  Only the message for a
number with too many digits leaves the place out.
-/

namespace GrammarConflict.Json

/-- Why a text cannot be read. -/
inductive Cause where
  | expectedValue
  | expectedComma
  | expectedColon
  | expectedName
  | extraData
  | unterminatedText
  | controlCharacter
  | unknownEscape
  | malformedCode
  | byteOrderMark
  /-- A whole number is too long. -/
  | tooManyDigits (count : Nat)
deriving DecidableEq, Repr

/-- The words for a cause. -/
def Cause.message : Cause → String
  | .expectedValue => "Expecting value"
  | .expectedComma => "Expecting ',' delimiter"
  | .expectedColon => "Expecting ':' delimiter"
  | .expectedName => "Expecting property name enclosed in double quotes"
  | .extraData => "Extra data"
  | .unterminatedText => "Unterminated string starting at"
  | .controlCharacter => "Invalid control character at"
  | .unknownEscape => "Invalid \\escape"
  | .malformedCode => "Invalid \\uXXXX escape"
  | .byteOrderMark => "Unexpected UTF-8 BOM (decode using utf-8-sig)"
  | .tooManyDigits count => Text.tooManyDigits count

/-- Whether a message tells the place of the cause. -/
def Cause.hasPlace : Cause → Bool
  | .tooManyDigits _ => false
  | _ => true

/-- A cause with its place in the text. -/
structure Fault where
  cause : Cause
  /-- The number of characters before the place. -/
  offset : Nat
  line : Nat
  column : Nat
deriving DecidableEq, Repr

/-- The fault at the place before which `before` stands. -/
def Fault.after (before : List Char) (cause : Cause) : Fault :=
  { cause
    offset := before.length
    line := before.count '\n' + 1
    column := (before.reverse.takeWhile (· != '\n')).length + 1 }

/-- The words for a fault. -/
def Fault.message (fault : Fault) : String :=
  let place := ": line " ++ toString fault.line ++ " column " ++ toString fault.column ++
    " (char " ++ toString fault.offset ++ ")"
  fault.cause.message ++ if fault.cause.hasPlace then place else ""

end GrammarConflict.Json
