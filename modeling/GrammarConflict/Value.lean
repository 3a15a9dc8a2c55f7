import GrammarConflict.Binary64

/-!
# Values

What a trace file may hold wherever a symbol, a nonterminal or a field is expected: any value of the
data format.  A whole number and a floating point number are different values even when they are
equal, and the fields of an object keep their order.
-/

namespace GrammarConflict

/-- A value of the data format. -/
inductive Value where
  | null
  | bool (b : Bool)
  | int (n : Int)
  | float (x : Binary64)
  | text (s : String)
  | list (items : List Value)
  | object (fields : List (String × Value))
deriving Inhabited

namespace Value

/-- The name of a value's type in messages. -/
def typeName : Value → String
  | .null => "NoneType"
  | .bool _ => "bool"
  | .int _ => "int"
  | .float _ => "float"
  | .text _ => "str"
  | .list _ => "list"
  | .object _ => "dict"

/-- The field of an object; no other value has fields. -/
def field? (key : String) : Value → Option Value
  | .object fields => fields.lookup key
  | _ => none

/-- The members of a list. -/
def list? : Value → Option (List Value)
  | .list items => some items
  | _ => none

/-- A whole number.  A truth value is none. -/
def int? : Value → Option Int
  | .int n => some n
  | _ => none

end Value

end GrammarConflict
