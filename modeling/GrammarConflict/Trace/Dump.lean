import GrammarConflict.Trace.Build

/-!
# Writing a trace down

`Trace.dump` numbers the traces that can be reached in the order of a first visit, and their rules
in the order of first use, equal rules once.  Rules are compared by their keys and written by their
texts; a rule with a symbol that has no key cannot be written.
-/

namespace GrammarConflict

/-- The record of a node: the number of its rule, its position, and the numbers of its parents. -/
structure Dump.Node where
  rule : Nat
  position : Int
  parents : List Nat
deriving DecidableEq, Repr

/-- A trace written down. -/
structure Dump where
  rules : List Rule.Face
  nodes : List Dump.Node
  root : Nat
deriving DecidableEq, Repr

namespace Dump

/-- The record of a rule. -/
def ruleValue (rule : Rule.Face) : Value :=
  .object [("nonterminal", .text rule.nonterminal), ("symbols", .list (rule.symbols.map .text))]

/-- The record of a node. -/
def nodeValue (node : Node) : Value :=
  .object [("production", .int node.rule), ("position", .int node.position),
    ("parents", .list (node.parents.map fun (i : Nat) => .int i))]

/-- The trace file. -/
def toValue (dump : Dump) : Value :=
  .object [("productions", .list (dump.rules.map ruleValue)),
    ("nodes", .list (dump.nodes.map nodeValue)), ("root", .int dump.root)]

end Dump

/-- A rule beside its key. -/
structure KeyedRule where
  key : Key × List Key
  rule : Rule

namespace KeyedRule

/-- A rule with its key, if it has one. -/
def ofRule (rule : Rule) : Except Keyless KeyedRule := do
  return ⟨← rule.key, rule⟩

/-- The rules without those that equal an earlier one. -/
def distinct : List KeyedRule → List KeyedRule
  | [] => []
  | r :: rest => r :: (distinct rest).filter (·.key != r.key)

/-- The number of a rule in a list of rules. -/
def numberIn (rules : List KeyedRule) (r : KeyedRule) : Nat :=
  rules.findIdx (·.key == r.key)

end KeyedRule

namespace Trace

/-- Writes the trace down. -/
def dump (t : Trace) : Except Keyless Dump := do
  let order := t.nodes
  let used ← order.mapM fun node => KeyedRule.ofRule node.item.rule
  let rules := KeyedRule.distinct used
  let record (node : Trace) (rule : KeyedRule) : Dump.Node :=
    ⟨rule.numberIn rules, node.item.position, node.parents.map (numberIn order)⟩
  return ⟨rules.map (·.rule.face), order.zipWith record used, t.numberIn order⟩

end Trace

/-- Whether reading a dump back and writing it down again gives the same dump. -/
def Dump.isStable (dump : Dump) : Bool :=
  match Trace.load dump.toValue with
  | .error _ => false
  | .ok t =>
    match t.dump with
    | .error _ => false
    | .ok again => again = dump

end GrammarConflict
