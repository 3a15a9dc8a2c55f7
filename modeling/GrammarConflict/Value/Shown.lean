import GrammarConflict.Value
import GrammarConflict.Binary64.Shortest
import GrammarConflict.Text.Quoted

/-!
# How values are shown

A value is shown in two ways.  `quoted` tells values of different kinds apart: text stands between
marks.  `shown` is for the reader of a diagram: text stands for itself, and any other value is
shown as if quoted.

Whole numbers are shown with all their digits.  None in a trace file has too many of them, since the
reader refuses those that have.
-/

namespace GrammarConflict.Value

mutual

/-- The unambiguous text of a value. -/
def quoted : Value → String
  | .null => "None"
  | .bool true => "True"
  | .bool false => "False"
  | .int n => toString n
  | .float x => x.text
  | .text s => Text.quote s
  | .list items => "[" ++ ", ".intercalate (quotedItems items) ++ "]"
  | .object fields => "\x7b" ++ ", ".intercalate (quotedFields fields) ++ "\x7d"

/-- The texts of the members of a list. -/
def quotedItems : List Value → List String
  | [] => []
  | v :: rest => v.quoted :: quotedItems rest

/-- The texts of the fields of an object: key, colon, value. -/
def quotedFields : List (String × Value) → List String
  | [] => []
  | (key, v) :: rest => (Text.quote key ++ ": " ++ v.quoted) :: quotedFields rest

end

/-- The text of a value in a rule or a diagram. -/
def shown : Value → String
  | .text s => s
  | v => v.quoted

end GrammarConflict.Value
