import GrammarConflict.Trace.LoadError

/-!
# Arenas

An arena is a trace file that has passed the checks on each record: nodes that refer to one another
by number, every number below the number of nodes.  What is left to check, and only for nodes that
the root leads to, is that no node leads back to itself (`Trace.Build`).
-/

namespace GrammarConflict

/-- One node of an arena of `size` nodes. -/
structure Arena.Node (size : Nat) where
  item : Item
  parents : List (Fin size)

/-- Nodes that refer to one another, and the one where the trace ends. -/
structure Arena where
  size : Nat
  nodes : List (Arena.Node size)
  root : Fin size
  length_nodes : nodes.length = size

namespace Arena

/-- The node of a number. -/
def node (arena : Arena) (i : Fin arena.size) : Node arena.size :=
  arena.nodes.get (i.cast arena.length_nodes.symm)

/-! ### Fields -/

/-- What a value has under a key. -/
def subscript (key : String) : Value → Except LoadError Value
  | .object fields =>
    match fields.lookup key with
    | some found => .ok found
    | none => .error (.noSuchKey key)
  | v => .error (.notSubscriptable v)

/-- What an object has under a key, or what stands for it if it lacks the key. -/
def subscriptOr (key : String) (absent : Value) : Value → Except LoadError Value
  | .object fields => .ok ((fields.lookup key).getD absent)
  | v => .error (.noDefaults v)

/-- The field that has to be there: an object without the key and a value that is no object both
count as missing it. -/
def fieldOf (place : Place) (key : String) (v : Value) : Except LoadError Value :=
  tryCatch (subscript key v) fun e =>
    if e.kind = .key ∨ e.kind = .type then throw (.missingField place key) else throw e

/-- The members of a field that has to hold a list. -/
def membersOf (place : Place) (key : String) (found : Value) : Except LoadError (List Value) :=
  match found.list? with
  | some members => .ok members
  | none => .error (.notAList place key found)

/-- The number below `count` that a value gives. -/
def indexOf (place : Place) (count : Nat) (found : Value) : Except LoadError (Fin count) :=
  match found.int? with
  | none => .error (.noSuchIndex place found count)
  | some i =>
    if h : 0 ≤ i ∧ i < count then .ok ⟨i.toNat, by omega⟩
    else .error (.noSuchIndex place found count)

/-! ### Records -/

/-- The rule in a record. -/
def ruleOf (i : Nat) (record : Value) : Except LoadError Rule := do
  let symbols ← membersOf (.rule i) "symbols" (← fieldOf (.rule i) "symbols" record)
  let nonterminal ← fieldOf (.rule i) "nonterminal" record
  return ⟨nonterminal, symbols⟩

/-- The rules in records that are numbered from `i` on. -/
def rulesOf (i : Nat) : List Value → Except LoadError (List Rule)
  | [] => .ok []
  | record :: rest => do
    let rule ← ruleOf i record
    let rules ← rulesOf (i + 1) rest
    return rule :: rules

/-- The item in the record of a node. -/
def itemOf (rules : List Rule) (i : Nat) (record : Value) : Except LoadError Item := do
  let number ← indexOf (.node i) rules.length (← fieldOf (.node i) "production" record)
  let found ← fieldOf (.node i) "position" record
  match found.int? with
  | none => throw (.notAPosition i found)
  | some position => (rules[number].itemAt position).mapError (.outOfRange i)

/-- The parents in the record of a node; no field stands for no parents. -/
def parentsOf (count i : Nat) (record : Value) : Except LoadError (List (Fin count)) := do
  let found ← subscriptOr "parents" (.list []) record
  (← membersOf (.node i) "parents" found).mapM (indexOf (.node i) count)

/-- The nodes in records that are numbered from `i` on. -/
def nodesOf (rules : List Rule) (count : Nat) :
    Nat → (records : List Value) →
      Except LoadError { nodes : List (Node count) // nodes.length = records.length }
  | _, [] => .ok ⟨[], rfl⟩
  | i, record :: rest => do
    let item ← itemOf rules i record
    let parents ← parentsOf count i record
    let ⟨nodes, h⟩ ← nodesOf rules count (i + 1) rest
    return ⟨⟨item, parents⟩ :: nodes, by simp [h]⟩

/-- The arena in a trace file. -/
def ofValue (data : Value) : Except LoadError Arena := do
  let ruleRecords ← membersOf .file "productions" (← fieldOf .file "productions" data)
  let rules ← rulesOf 0 ruleRecords
  let records ← membersOf .file "nodes" (← fieldOf .file "nodes" data)
  let ⟨nodes, h⟩ ← nodesOf rules records.length 0 records
  let root ← indexOf .root records.length (← fieldOf .file "root" data)
  return ⟨records.length, nodes, root, h⟩

end Arena

end GrammarConflict
