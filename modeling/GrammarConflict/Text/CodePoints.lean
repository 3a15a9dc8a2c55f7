/-!
# Tables of code points

A character class whose members a standard lists is held as a table of ranges, first and last
code point of each, in ascending order.  The classes themselves are in the modules that use the
table: `Text.Blank` and `Text.Printable`.
-/

namespace GrammarConflict.Text

/-- Whether the character lies in one of the ranges, both ends included. -/
def inRanges (table : List (Nat × Nat)) (c : Char) : Bool :=
  table.any fun range => range.1 ≤ c.toNat && c.toNat ≤ range.2

end GrammarConflict.Text
