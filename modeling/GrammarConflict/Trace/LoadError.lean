import GrammarConflict.ErrorKind
import GrammarConflict.Item

/-!
# What can be wrong with a trace file

A trace file is an object with a list of rules, a list of nodes and the number of a root.  An error
that refuses a value names the place where it was met.  The other errors are those that asking a
value for a key may end with.
-/

namespace GrammarConflict

/-- A place in a trace file. -/
inductive Place where
  | file
  | rule (i : Nat)
  | node (i : Nat)
  | root

/-- The name of a place in messages. -/
def Place.name : Place → String
  | .file => "Backtrace"
  | .rule i => "Production " ++ toString i
  | .node i => "Node " ++ toString i
  | .root => "Backtrace root"

/-- Why a trace file is refused. -/
inductive LoadError where
  | missingField (place : Place) (key : String)
  | notAList (place : Place) (key : String) (found : Value)
  | noSuchIndex (place : Place) (found : Value) (count : Nat)
  | notAPosition (node : Nat) (found : Value)
  | outOfRange (node : Nat) (error : OutOfRange)
  /-- Following parents leads back to the node. -/
  | ownAncestor (node : Nat)
  /-- The object does not have the key. -/
  | noSuchKey (key : String)
  /-- What is no object has no keys. -/
  | notSubscriptable (found : Value)
  /-- What is no object cannot be asked for a key that it may lack. -/
  | noDefaults (found : Value)

/-- The kind of an error: a value is refused, or it cannot be asked for a key. -/
def LoadError.kind : LoadError → ErrorKind
  | .missingField .. | .notAList .. | .noSuchIndex .. | .notAPosition .. | .outOfRange ..
  | .ownAncestor _ => .value
  | .noSuchKey _ => .key
  | .notSubscriptable _ => .type
  | .noDefaults _ => .attribute

/-- The words for an error. -/
def LoadError.message : LoadError → String
  | .missingField place key => place.name ++ " is missing the '" ++ key ++ "' field"
  | .notAList place key found =>
    place.name ++ " has " ++ key ++ " " ++ found.quoted ++ ", which is not a list"
  | .noSuchIndex place found count =>
    place.name ++ " refers to " ++ found.quoted ++ ", which is not an index below " ++
      toString count
  | .notAPosition node found =>
    (Place.node node).name ++ " has a non-integer position " ++ found.quoted
  | .outOfRange node error => (Place.node node).name ++ ": " ++ error.message
  | .ownAncestor node => (Place.node node).name ++ " is its own ancestor"
  | .noSuchKey key => Text.quote key
  | .notSubscriptable (.text _) => "string indices must be integers, not 'str'"
  | .notSubscriptable (.list _) => "list indices must be integers or slices, not str"
  | .notSubscriptable found => "'" ++ found.typeName ++ "' object is not subscriptable"
  | .noDefaults found => "'" ++ found.typeName ++ "' object has no attribute 'get'"

end GrammarConflict
