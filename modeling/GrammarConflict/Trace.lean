import GrammarConflict.Item

/-!
# Traces

A trace says how a conflict came about: an item, and as its parents the traces of the items that it
may have come from.  Parents are alternatives; an item without parents is where a history begins.

One trace may be a parent of several others.  Its tag, which no other trace of the same file bears,
tells whether two references mean one trace.  `nodes` lists the traces that can be reached, each
once.
-/

namespace GrammarConflict

/-- An item with the alternative traces that lead to it. -/
structure Trace where
  /-- Distinguishes the trace from the others of one file, even from those that look the same. -/
  tag : Nat
  item : Item
  parents : List Trace

namespace Trace

/-- A trace on one line: its item and the number of its parents. -/
def summary (t : Trace) : String :=
  "<BacktraceNode " ++ t.item.text ++ " parents:" ++ toString t.parents.length ++ ">"

/-- The trace reached by choosing one parent after another. -/
def follow? : List Int → Trace → Option Trace
  | [], t => some t
  | i :: path, t => (SignedIndex.get? t.parents i).bind (follow? path)

/-! ### The traces that can be reached -/

mutual

/-- Appends the traces that can be reached from this one, itself first, to those already seen. -/
def visit : Trace → List Trace → List Trace
  | ⟨tag, item, parents⟩, seen =>
    if seen.any (·.tag == tag) then seen else visitAll parents (seen ++ [⟨tag, item, parents⟩])

/-- Visits one trace after another. -/
def visitAll : List Trace → List Trace → List Trace
  | [], seen => seen
  | t :: rest, seen => visitAll rest (t.visit seen)

end

/-- The traces that can be reached, each once, in the order of a first visit: a trace comes before
its parents, and one parent with all that it leads to before the next. -/
def nodes (t : Trace) : List Trace :=
  t.visit []

/-- The number of a trace in a list of traces. -/
def numberIn (order : List Trace) (t : Trace) : Nat :=
  order.findIdx (·.tag == t.tag)

end Trace

end GrammarConflict
