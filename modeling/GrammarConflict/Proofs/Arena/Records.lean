import GrammarConflict.Proofs.Attempt
import GrammarConflict.Trace.Build

/-!
# The records of a trace file

What a trace file has to hold, said on the value alone: `RuleRecord` and `NodeRecord` say which rule
and which node a record stands for, and `TraceFile` that all the records of a file stand for one.

Reading agrees with this.  Each reader of `Arena` has its `_eq_ok_iff`, from a single field up to
the lists of records, and together they give `ofRecords_of_ofValue` (what is read are the items and
the parents that the records stand for) and `exists_ofValue` (every trace file is read).
-/

namespace GrammarConflict

/-! ### What the records stand for -/

/-- The record holds the symbols and the nonterminal of the rule. -/
structure RuleRecord (record : Value) (rule : Rule) : Prop where
  symbols : record.field? "symbols" = some (.list rule.symbols)
  nonterminal : record.field? "nonterminal" = some rule.nonterminal

/-- The record, of one of `count` nodes, holds the item and the numbers of the parents: the item's
rule by its number among the records of rules, and its position, which lies within the rule. -/
structure NodeRecord (ruleRecords : List Value) (count : Nat) (record : Value) (item : Item)
    (parents : List Nat) : Prop where
  production : ∃ k : Nat, record.field? "production" = some (.int k) ∧
    ∃ ruleRecord, ruleRecords[k]? = some ruleRecord ∧ RuleRecord ruleRecord item.rule
  position : record.field? "position" = some (.int item.position)
  valid : item.Valid
  /-- Without a list of parents there are none. -/
  parents_eq : (record.field? "parents" = none ∧ parents = []) ∨
    record.field? "parents" = some (.list (parents.map fun p : Nat => .int p))
  parents_lt : ∀ p ∈ parents, p < count

/-- The value is an object with records of rules, records of nodes and the number of a node. -/
structure TraceFile (data : Value) (ruleRecords nodeRecords : List Value) (root : Nat) : Prop where
  productions : data.field? "productions" = some (.list ruleRecords)
  rules : ∀ record ∈ ruleRecords, ∃ rule, RuleRecord record rule
  nodes : data.field? "nodes" = some (.list nodeRecords)
  items : ∀ record ∈ nodeRecords,
    ∃ item parents, NodeRecord ruleRecords nodeRecords.length record item parents
  root_eq : data.field? "root" = some (.int root)
  root_lt : root < nodeRecords.length

/-- A record of a rule stands for no other rule. -/
theorem RuleRecord.unique {record : Value} {rule rule' : Rule} (h : RuleRecord record rule)
    (h' : RuleRecord record rule') : rule = rule' := by
  obtain ⟨nonterminal, symbols⟩ := rule
  obtain ⟨nonterminal', symbols'⟩ := rule'
  obtain rfl := Value.list.inj (Option.some.inj (h.symbols.symm.trans h'.symbols))
  obtain rfl : nonterminal = nonterminal' :=
    Option.some.inj (h.nonterminal.symm.trans h'.nonterminal)
  rfl

/-- A trace file has no other records and no other root. -/
theorem TraceFile.unique {data : Value}
    {ruleRecords nodeRecords ruleRecords' nodeRecords' : List Value} {root root' : Nat}
    (h : TraceFile data ruleRecords nodeRecords root)
    (h' : TraceFile data ruleRecords' nodeRecords' root') :
    ruleRecords = ruleRecords' ∧ nodeRecords = nodeRecords' ∧ root = root' := by
  have hproductions := h.productions.symm.trans h'.productions
  have hnodes := h.nodes.symm.trans h'.nodes
  have hroot := h.root_eq.symm.trans h'.root_eq
  simp only [Option.some.injEq, Value.list.injEq, Value.int.injEq, Int.ofNat_inj] at *
  exact ⟨hproductions, hnodes, hroot⟩

namespace Arena

/-! ### Reading fields -/

theorem subscript_eq_ok_iff {key : String} {v found : Value} :
    subscript key v = .ok found ↔ v.field? key = some found := by
  cases v with
  | object fields =>
    simp only [subscript, Value.field?]
    cases fields.lookup key <;> simp
  | _ => simp [subscript, Value.field?]

/-- Asking for a key fails with no other kinds of errors. -/
theorem kind_of_subscript {key : String} {v : Value} {e : LoadError}
    (h : subscript key v = .error e) : e.kind = .key ∨ e.kind = .type := by
  cases v with
  | object fields =>
    simp only [subscript] at h
    split at h <;> cases h
    exact .inl rfl
  | _ =>
    cases h
    exact .inr rfl

/-- Of a field that has to be there, an error only says that it is missing. -/
theorem fieldOf_eq (place : Place) (key : String) (v : Value) :
    fieldOf place key v = (subscript key v).mapError fun _ => .missingField place key := by
  cases h : subscript key v with
  | ok found =>
    rw [fieldOf, h]
    rfl
  | error e =>
    rw [fieldOf, h]
    exact if_pos (kind_of_subscript h)

theorem fieldOf_eq_ok_iff {place : Place} {key : String} {v found : Value} :
    fieldOf place key v = .ok found ↔ v.field? key = some found := by
  rw [fieldOf_eq, mapError_eq_ok_iff, subscript_eq_ok_iff]

/-- Only an object has fields. -/
theorem exists_object_of_field? {key : String} {v found : Value} (h : v.field? key = some found) :
    ∃ fields, v = .object fields := by
  cases v with
  | object fields => exact ⟨fields, rfl⟩
  | _ => cases h

theorem subscriptOr_eq_ok_iff {key : String} {absent v found : Value} :
    subscriptOr key absent v = .ok found ↔
      (∃ fields, v = .object fields) ∧ (v.field? key).getD absent = found := by
  cases v <;> simp [subscriptOr, Value.field?]

theorem membersOf_eq_ok_iff {place : Place} {key : String} {found : Value} {members : List Value} :
    membersOf place key found = .ok members ↔ found = .list members := by
  cases found <;> simp [membersOf, Value.list?]

theorem indexOf_eq_ok_iff {place : Place} {count : Nat} {found : Value} {i : Fin count} :
    indexOf place count found = .ok i ↔ found = .int (i.val : Nat) := by
  cases found with
  | int n =>
    simp only [indexOf, Value.int?, Value.int.injEq]
    split
    · next h =>
      rw [Except.ok.injEq, Fin.ext_iff]
      change n.toNat = i.val ↔ n = (i.val : Int)
      omega
    · next h =>
      refine ⟨nofun, fun hn => absurd ?_ h⟩
      have := i.isLt
      omega
  | _ => simp [indexOf, Value.int?]

/-- A list of indices is read number by number. -/
theorem mapM_indexOf_eq_ok_iff {place : Place} {count : Nat} {members : List Value}
    {indices : List (Fin count)} :
    members.mapM (indexOf place count) = .ok indices ↔
      members = indices.map fun i => .int (i.val : Nat) := by
  simp only [mapM_eq_ok_iff, indexOf_eq_ok_iff]
  rw [← List.forall₂_map_right_iff (R := (· = ·)), List.forall₂_eq_eq_eq]

/-! ### Reading the records of rules -/

theorem ruleOf_eq_ok_iff {i : Nat} {record : Value} {rule : Rule} :
    ruleOf i record = .ok rule ↔ RuleRecord record rule := by
  simp only [ruleOf, bind_eq_ok_iff, pure_eq_ok_iff, fieldOf_eq_ok_iff, membersOf_eq_ok_iff]
  constructor
  · rintro ⟨_, hsymbols, symbols, rfl, nonterminal, hnonterminal, rfl⟩
    exact ⟨hsymbols, hnonterminal⟩
  · intro h
    exact ⟨_, h.symbols, _, rfl, _, h.nonterminal, rfl⟩

theorem rulesOf_eq_ok_iff {i : Nat} {records : List Value} {rules : List Rule} :
    rulesOf i records = .ok rules ↔ List.Forall₂ RuleRecord records rules := by
  induction records generalizing i rules with
  | nil => simp [rulesOf, eq_comm]
  | cons record records ih =>
    simp only [rulesOf, bind_eq_ok_iff, pure_eq_ok_iff, ruleOf_eq_ok_iff, ih,
      List.forall₂_cons_left_iff]
    constructor
    · rintro ⟨rule, hrule, rules, hrules, rfl⟩
      exact ⟨rule, rules, hrule, hrules, rfl⟩
    · rintro ⟨rule, rules, hrule, hrules, rfl⟩
      exact ⟨rule, hrule, rules, hrules, rfl⟩

/-! ### Reading the records of nodes -/

section

variable {ruleRecords : List Value} {rules : List Rule}

theorem itemOf_eq_ok_iff (hrules : List.Forall₂ RuleRecord ruleRecords rules) {i : Nat}
    {record : Value} {item : Item} :
    itemOf rules i record = .ok item ↔
      (∃ k : Nat, record.field? "production" = some (.int k) ∧
        ∃ ruleRecord, ruleRecords[k]? = some ruleRecord ∧ RuleRecord ruleRecord item.rule) ∧
      record.field? "position" = some (.int item.position) ∧ item.Valid := by
  have hlength : ruleRecords.length = rules.length := hrules.length_eq
  simp only [itemOf, bind_eq_ok_iff, fieldOf_eq_ok_iff, indexOf_eq_ok_iff]
  constructor
  · rintro ⟨_, hproduction, number, rfl, found, hposition, h⟩
    cases found with
    | int position =>
      obtain ⟨rfl, hvalid⟩ := Item.itemAt_eq_ok_iff.mp (mapError_eq_ok_iff.mp h)
      have hlt : number.val < ruleRecords.length := by omega
      exact ⟨⟨number, hproduction, ruleRecords[number.val], List.getElem?_eq_getElem hlt,
        hrules.get hlt number.isLt⟩, hposition, hvalid⟩
    | _ => exact nomatch h
  · rintro ⟨⟨k, hproduction, ruleRecord, hk, hrule⟩, hposition, hvalid⟩
    obtain ⟨hlt, rfl⟩ := List.getElem?_eq_some_iff.mp hk
    have hrules_k : item.rule = rules[k] := hrule.unique (hrules.get hlt (hlength ▸ hlt))
    refine ⟨_, hproduction, ⟨k, hlength ▸ hlt⟩, rfl, _, hposition, ?_⟩
    refine mapError_eq_ok_iff.mpr (Item.itemAt_eq_ok_iff.mpr ⟨?_, hvalid⟩)
    rw [Fin.getElem_fin, ← hrules_k]

/-- The parents are read from a record that is an object at all. -/
theorem parentsOf_eq_ok_iff {count i : Nat} {record : Value} {parents : List (Fin count)}
    (hobject : ∃ fields, record = .object fields) :
    parentsOf count i record = .ok parents ↔
      (record.field? "parents" = none ∧ parents = []) ∨
        record.field? "parents" = some (.list (parents.map fun p => .int (p.val : Nat))) := by
  simp only [parentsOf, bind_eq_ok_iff, subscriptOr_eq_ok_iff, and_iff_right hobject,
    membersOf_eq_ok_iff, mapM_indexOf_eq_ok_iff, exists_eq_right]
  cases record.field? "parents" with
  | none =>
    rw [Option.getD_none, Value.list.injEq, List.nil_eq, List.map_eq_nil_iff]
    simp
  | some found => simp

/-- A node is read just when its record stands for it. -/
theorem itemOf_parentsOf_eq_ok_iff (hrules : List.Forall₂ RuleRecord ruleRecords rules)
    {count i : Nat} {record : Value} {node : Node count} :
    (itemOf rules i record = .ok node.item ∧ parentsOf count i record = .ok node.parents) ↔
      NodeRecord ruleRecords count record node.item (node.parents.map Fin.val) := by
  have hparents (hobject : ∃ fields, record = .object fields) :
      parentsOf count i record = .ok node.parents ↔
        (record.field? "parents" = none ∧ node.parents.map Fin.val = []) ∨
          record.field? "parents" =
            some (.list ((node.parents.map Fin.val).map fun p : Nat => .int p)) := by
    rw [parentsOf_eq_ok_iff hobject, List.map_eq_nil_iff, List.map_map]
    rfl
  rw [itemOf_eq_ok_iff hrules]
  constructor
  · rintro ⟨⟨hproduction, hposition, hvalid⟩, h⟩
    exact ⟨hproduction, hposition, hvalid, (hparents (exists_object_of_field? hposition)).mp h,
      List.forall_mem_map.mpr fun p _ => p.isLt⟩
  · intro h
    exact ⟨⟨h.production, h.position, h.valid⟩,
      (hparents (exists_object_of_field? h.position)).mpr h.parents_eq⟩

theorem nodesOf_eq_ok_iff (hrules : List.Forall₂ RuleRecord ruleRecords rules) {count i : Nat}
    {records : List Value} {nodes : List (Node count)} :
    (∃ h, nodesOf rules count i records = .ok ⟨nodes, h⟩) ↔
      List.Forall₂ (fun record node => NodeRecord ruleRecords count record node.item
        (node.parents.map Fin.val)) records nodes := by
  induction records generalizing i nodes with
  | nil =>
    rw [List.forall₂_nil_left_iff]
    constructor
    · rintro ⟨h, -⟩
      exact List.eq_nil_of_length_eq_zero h
    · rintro rfl
      exact ⟨rfl, rfl⟩
  | cons record records ih =>
    simp only [nodesOf, bind_eq_ok_iff]
    constructor
    · rintro ⟨_, item, hitem, parents, hparents, ⟨rest, hlength⟩, hrest, h⟩
      obtain rfl := congrArg Subtype.val (pure_eq_ok_iff.mp h)
      exact .cons ((itemOf_parentsOf_eq_ok_iff hrules).mp ⟨hitem, hparents⟩)
        (ih.mp ⟨hlength, hrest⟩)
    · intro h
      obtain _ | ⟨hnode, hrest⟩ := h
      obtain ⟨hitem, hparents⟩ := (itemOf_parentsOf_eq_ok_iff hrules (i := i)).mpr hnode
      obtain ⟨hlength, hread⟩ := ih.mpr hrest
      exact ⟨congrArg Nat.succ hlength, _, hitem, _, hparents, _, hread, rfl⟩

end

/-! ### Reading the file -/

/-- The nodes of the arena are what the records stand for. -/
structure OfRecords (arena : Arena) (ruleRecords nodeRecords : List Value) : Prop where
  length_eq : nodeRecords.length = arena.size
  node : ∀ i : Fin arena.size, ∃ record, nodeRecords[i.val]? = some record ∧
    NodeRecord ruleRecords nodeRecords.length record (arena.node i).item
      ((arena.node i).parents.map Fin.val)

/-- **What is read** are the items and the parents that the records stand for. -/
theorem ofRecords_of_ofValue {data : Value} {arena : Arena} (h : ofValue data = .ok arena) :
    ∃ ruleRecords nodeRecords, TraceFile data ruleRecords nodeRecords arena.root ∧
      arena.OfRecords ruleRecords nodeRecords := by
  simp only [ofValue, bind_eq_ok_iff, fieldOf_eq_ok_iff, membersOf_eq_ok_iff, rulesOf_eq_ok_iff,
    indexOf_eq_ok_iff] at h
  obtain ⟨_, hproductions, ruleRecords, rfl, rules, hrules, _, hnodes, nodeRecords, rfl,
    ⟨nodes, hlength⟩, hread, _, hroot, root, rfl, h⟩ := h
  obtain rfl := pure_eq_ok_iff.mp h
  have hnodes₂ := (nodesOf_eq_ok_iff hrules).mp ⟨hlength, hread⟩
  refine ⟨ruleRecords, nodeRecords, ⟨hproductions, exists_forall₂_iff.mp ⟨rules, hrules⟩, hnodes,
    fun record hrecord => ?_, hroot, root.isLt⟩, ⟨rfl, fun i => ?_⟩⟩
  · obtain ⟨node, hnode⟩ := exists_forall₂_iff.mp ⟨nodes, hnodes₂⟩ record hrecord
    exact ⟨node.item, _, hnode⟩
  · exact ⟨nodeRecords[i], List.getElem?_eq_getElem i.isLt,
      hnodes₂.get i.isLt (hlength.symm ▸ i.isLt)⟩

/-- **Every trace file is read.** -/
theorem exists_ofValue {data : Value} {ruleRecords nodeRecords : List Value} {root : Nat}
    (h : TraceFile data ruleRecords nodeRecords root) : ∃ arena, ofValue data = .ok arena := by
  obtain ⟨rules, hrules⟩ := exists_forall₂_iff.mpr h.rules
  have hnode : ∀ record ∈ nodeRecords, ∃ node : Node nodeRecords.length,
      NodeRecord ruleRecords nodeRecords.length record node.item (node.parents.map Fin.val) := by
    intro record hrecord
    obtain ⟨item, parents, hnode⟩ := h.items record hrecord
    refine ⟨⟨item, parents.pmap Fin.mk hnode.parents_lt⟩, ?_⟩
    rwa [List.map_pmap, List.pmap_eq_map, List.map_id']
  obtain ⟨nodes, hnodes⟩ := exists_forall₂_iff.mpr hnode
  obtain ⟨hlength, hread⟩ := (nodesOf_eq_ok_iff hrules (i := 0)).mpr hnodes
  refine ⟨⟨nodeRecords.length, nodes, ⟨root, h.root_lt⟩, hlength⟩, ?_⟩
  simp only [ofValue, bind_eq_ok_iff, fieldOf_eq_ok_iff, membersOf_eq_ok_iff, rulesOf_eq_ok_iff,
    indexOf_eq_ok_iff]
  exact ⟨_, h.productions, ruleRecords, rfl, rules, hrules, _, h.nodes, nodeRecords, rfl,
    ⟨nodes, hlength⟩, hread, _, h.root_eq, ⟨root, h.root_lt⟩, rfl, rfl⟩

end Arena

end GrammarConflict
