import GrammarConflict.Text.Printable

/-!
# Quoted text

Text is quoted with apostrophes, or with quotation marks if it holds an apostrophe and no quotation
mark.  Inside, the backslash and the mark in use are written after a backslash, and characters that
are not printable by a code: `\n`, `\r`, `\t`, or two, four or eight hexadecimal digits.
-/

namespace GrammarConflict.Text

/-- The number in lower case hexadecimal digits, at least `width` of them. -/
def hexadecimal (width n : Nat) : List Char :=
  let digits := Nat.toDigits 16 n
  List.replicate (width - digits.length) '0' ++ digits

/-- The shortest code that names the character by its number. -/
def numericEscape (c : Char) : List Char :=
  if c.toNat < 0x100 then '\\' :: 'x' :: hexadecimal 2 c.toNat
  else if c.toNat < 0x10000 then '\\' :: 'u' :: hexadecimal 4 c.toNat
  else '\\' :: 'U' :: hexadecimal 8 c.toNat

/-- One character as it stands between two marks. -/
def escape (mark c : Char) : List Char :=
  if c = mark ∨ c = '\\' then ['\\', c]
  else if c = '\n' then ['\\', 'n']
  else if c = '\r' then ['\\', 'r']
  else if c = '\t' then ['\\', 't']
  else if isPrintable c then [c]
  else numericEscape c

/-- The mark that quotes the text: the one that saves a backslash, and the apostrophe if neither
does. -/
def quotationMark (cs : List Char) : Char :=
  if cs.contains '\'' && !cs.contains '"' then '"' else '\''

/-- The text between marks. -/
def quote (text : String) : String :=
  let cs := text.toList
  let mark := quotationMark cs
  String.ofList (mark :: cs.flatMap (escape mark) ++ [mark])

end GrammarConflict.Text
