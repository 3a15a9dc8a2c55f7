import GrammarConflict.Trace
import GrammarConflict.Trace.Arena

/-!
# From an arena to a trace

`Arena.build` walks the arena from its root, parents first, and makes one trace of every node it
meets: a node that is met again stands for the trace made before.  A node that is met while its own
parents are still being built is its own ancestor, and there is no trace then.
-/

namespace GrammarConflict

namespace Arena

/-- The traces made so far with the nodes they stand for, the last one first. -/
abbrev Built (size : Nat) :=
  List (Fin size × Trace)

/-- Builds one node after another. -/
def buildAll {size : Nat}
    (build : Fin size → Built size → Except LoadError (Trace × Built size)) :
    List (Fin size) → Built size → Except LoadError (List Trace × Built size)
  | [], built => .ok ([], built)
  | i :: rest, built => do
    let (t, built) ← build i built
    let (ts, built) ← buildAll build rest built
    return (t :: ts, built)

/-- Builds a node.  The nodes in `opened` are waiting for it, each for the one before it, and `room`
is the number of nodes that are not among them: with no room left this node is one of them. -/
def buildNode (arena : Arena) : (room : Nat) → (opened : List (Fin arena.size)) →
    Fin arena.size → Built arena.size → Except LoadError (Trace × Built arena.size)
  | 0, _, i, _ => .error (.ownAncestor i)
  | room + 1, opened, i, built =>
    match built.lookup i with
    | some t => .ok (t, built)
    | none =>
      if i ∈ opened then .error (.ownAncestor i)
      else do
        let node := arena.node i
        let (parents, built) ← buildAll (arena.buildNode room (i :: opened)) node.parents built
        let t : Trace := ⟨built.length, node.item, parents⟩
        return (t, (i, t) :: built)

/-- The trace that ends at the root. -/
def build (arena : Arena) : Except LoadError Trace := do
  let (t, _) ← arena.buildNode arena.size [] arena.root []
  return t

end Arena

/-- The trace in a trace file. -/
def Trace.load (data : Value) : Except LoadError Trace := do
  (← Arena.ofValue data).build

end GrammarConflict
