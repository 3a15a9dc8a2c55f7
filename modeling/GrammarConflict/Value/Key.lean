import GrammarConflict.Value

/-!
# Values as keys

Rules are told apart by their symbols, so a symbol has to be comparable.  The key of a value says
when two values count as the same: numbers by their exact value, whatever their kind, and a truth
value as the number one or zero; text by its characters.  Lists and objects have no key.
-/

namespace GrammarConflict

/-- What two equal values have in common. -/
inductive Key where
  | null
  | number (value : Rat)
  | infinite (negative : Bool)
  | nan
  | text (s : String)
deriving DecidableEq

/-- A kind of value that has no key. -/
inductive Keyless where
  | list
  | object
deriving DecidableEq, Repr

/-- The words for a value without a key. -/
def Keyless.message : Keyless → String
  | .list => "unhashable type: 'list'"
  | .object => "unhashable type: 'dict'"

/-- The key of a floating point number. -/
def Binary64.key (x : Binary64) : Key :=
  match x.toRat?, x with
  | some value, _ => .number value
  | none, .infinite negative => .infinite negative
  | none, _ => .nan

/-- The key of a value. -/
def Value.key : Value → Except Keyless Key
  | .null => .ok .null
  | .bool b => .ok (.number (if b then 1 else 0))
  | .int n => .ok (.number n)
  | .float x => .ok x.key
  | .text s => .ok (.text s)
  | .list _ => .error .list
  | .object _ => .error .object

end GrammarConflict
