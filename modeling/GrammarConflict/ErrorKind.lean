/-!
# Kinds of errors

Every error is of a kind, which says what went wrong in general.  A reader may catch the errors of
some kinds and give others instead, and the command reports the errors of two kinds; those of any
other kind break it off.
-/

namespace GrammarConflict

/-- The kind of an error. -/
inductive ErrorKind where
  /-- A value that is of the right type, and not one that will do. -/
  | value
  /-- What the system refuses. -/
  | system
  | type
  | key
  | attribute
  | index
  | overflow
  | memory
  | assertion
deriving DecidableEq, Repr

/-- The name of a kind. -/
def ErrorKind.name : ErrorKind → String
  | .value => "ValueError"
  | .system => "OSError"
  | .type => "TypeError"
  | .key => "KeyError"
  | .attribute => "AttributeError"
  | .index => "IndexError"
  | .overflow => "OverflowError"
  | .memory => "MemoryError"
  | .assertion => "AssertionError"

end GrammarConflict
