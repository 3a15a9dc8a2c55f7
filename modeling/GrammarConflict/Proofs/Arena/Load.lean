import GrammarConflict.Proofs.Arena.Refusal
import Mathlib.Data.Set.Function

/-!
# Loading a trace file

Two questions are settled here for any value at all, in terms of its records and of the relation
`ListsParent` between the numbers of nodes:

* which values are loaded (`Trace.load_ok_iff_loadable`): the trace files in which no node that the
  root leads to is its own ancestor, and every other value is refused, which is the only kind of
  error that loading ends with;
* what is loaded (`Trace.load_isomorphic`): the records that the root leads to, one trace for each,
  with the shape of the records, sharing included.

The nodes of an arena are numbers with a bound, those of the records plain numbers;
`reflTransGen_listsParent_iff` carries paths from one to the other.
-/

namespace GrammarConflict

/-- The second number is listed among the parents in the record of the first. -/
def ListsParent (nodeRecords : List Value) (i p : Nat) : Prop :=
  ∃ record parents, nodeRecords[i]? = some record ∧
    record.field? "parents" = some (.list parents) ∧ .int p ∈ parents

/-- Following listed parents leads from the first number to the second. -/
abbrev LeadsTo (nodeRecords : List Value) : Nat → Nat → Prop :=
  Relation.ReflTransGen (ListsParent nodeRecords)

/-- A trace file in which nothing that the root leads to is its own ancestor. -/
def Loadable (data : Value) : Prop :=
  ∃ ruleRecords nodeRecords root, TraceFile data ruleRecords nodeRecords root ∧
    ∀ i, LeadsTo nodeRecords root i → ¬ Relation.TransGen (ListsParent nodeRecords) i i

/-- The trace reaches one trace for each node that the root leads to, made like the record of the
node, and nothing else.  Tags tell which of them are one. -/
structure Represents (ruleRecords nodeRecords : List Value) (root : Nat) (t : Trace)
    (node : Nat → Trace) : Prop where
  root_eq : node root = t
  bijOn : Set.BijOn node {i | LeadsTo nodeRecords root i} {s | t.Reaches s}
  record : ∀ i, LeadsTo nodeRecords root i → ∃ record parents, nodeRecords[i]? = some record ∧
    NodeRecord ruleRecords nodeRecords.length record (node i).item parents ∧
    (node i).parents = parents.map node
  tag_eq_iff : ∀ i j, LeadsTo nodeRecords root i → LeadsTo nodeRecords root j →
    ((node i).tag = (node j).tag ↔ i = j)

/-- A record of a node stands for no other parents, and lists those that it stands for. -/
theorem NodeRecord.int_mem_iff {ruleRecords : List Value} {count : Nat} {record : Value}
    {item : Item} {parents : List Nat} (h : NodeRecord ruleRecords count record item parents)
    {p : Nat} :
    (∃ members, record.field? "parents" = some (.list members) ∧ .int p ∈ members) ↔
      p ∈ parents := by
  obtain ⟨hnone, rfl⟩ | hsome := h.parents_eq
  · simp [hnone]
  · simp only [hsome, Option.some.injEq, Value.list.injEq, exists_eq_left', List.mem_map,
      Value.int.injEq, Int.ofNat_inj, exists_eq_right]

namespace Arena.OfRecords

variable {arena : Arena} {ruleRecords nodeRecords : List Value}

theorem listsParent_iff (h : arena.OfRecords ruleRecords nodeRecords) {i : Fin arena.size}
    {p : Nat} : ListsParent nodeRecords i p ↔ ∃ hp : p < arena.size, arena.HasParent i ⟨p, hp⟩ := by
  obtain ⟨record, hrecord, hnode⟩ := h.node i
  have hmem : p ∈ (arena.node i).parents.map Fin.val ↔
      ∃ hp : p < arena.size, arena.HasParent i ⟨p, hp⟩ := by
    rw [List.mem_map]
    constructor
    · rintro ⟨q, hq, rfl⟩
      exact ⟨q.isLt, hq⟩
    · rintro ⟨hp, hq⟩
      exact ⟨_, hq, rfl⟩
  rw [← hmem, ← hnode.int_mem_iff, ListsParent]
  simp only [hrecord, Option.some.injEq]
  constructor
  · rintro ⟨_, members, rfl, hfield, hp⟩
    exact ⟨members, hfield, hp⟩
  · rintro ⟨members, hfield, hp⟩
    exact ⟨_, members, rfl, hfield, hp⟩

theorem listsParent_of_hasParent (h : arena.OfRecords ruleRecords nodeRecords)
    (i p : Fin arena.size) (hp : arena.HasParent i p) : ListsParent nodeRecords i p :=
  h.listsParent_iff.mpr ⟨p.isLt, hp⟩

/-- Paths over the records are paths in the arena. -/
theorem reflTransGen_listsParent_iff (h : arena.OfRecords ruleRecords nodeRecords)
    {i : Fin arena.size} {j : Nat} :
    LeadsTo nodeRecords i j ↔
      ∃ hj : j < arena.size, arena.Reaches i ⟨j, hj⟩ := by
  constructor
  · intro hpath
    induction hpath with
    | refl => exact ⟨i.isLt, .refl⟩
    | tail _ hstep ih =>
      obtain ⟨hj, hreach⟩ := ih
      obtain ⟨hk, hparent⟩ := (h.listsParent_iff (i := ⟨_, hj⟩)).mp hstep
      exact ⟨hk, hreach.tail hparent⟩
  · rintro ⟨hj, hreach⟩
    exact Relation.ReflTransGen.lift Fin.val h.listsParent_of_hasParent i ⟨j, hj⟩ hreach

theorem transGen_listsParent_iff (h : arena.OfRecords ruleRecords nodeRecords)
    {i j : Fin arena.size} :
    Relation.TransGen (ListsParent nodeRecords) i j ↔ arena.Ancestor i j := by
  constructor
  · intro hpath
    obtain ⟨k, hreach, hstep⟩ := Relation.TransGen.tail'_iff.mp hpath
    obtain ⟨hk, hreach⟩ := h.reflTransGen_listsParent_iff.mp hreach
    obtain ⟨hj, hparent⟩ := (h.listsParent_iff (i := ⟨k, hk⟩)).mp hstep
    exact .tail' hreach hparent
  · exact Relation.TransGen.lift Fin.val h.listsParent_of_hasParent i j

/-- A sound table with the root in it represents the records. -/
theorem represents (h : arena.OfRecords ruleRecords nodeRecords) {built : Arena.Built arena.size}
    {t : Trace} (sound : Arena.Sound arena built) (hroot : built.lookup arena.root = some t) :
    Represents ruleRecords nodeRecords arena.root t (Arena.traceAt built t) := by
  have lookup_eq {i : Nat} (hi : LeadsTo nodeRecords arena.root i) :
      ∃ hlt : i < arena.size, built.lookup ⟨i, hlt⟩ = some (Arena.traceAt built t i) ∧
        t.Reaches (Arena.traceAt built t i) := by
    obtain ⟨hlt, hreach⟩ := h.reflTransGen_listsParent_iff.mp hi
    obtain ⟨s, hs, hlookup⟩ := sound.exists_lookup_of_reaches hroot hreach
    obtain rfl := Arena.traceAt_of_lookup_eq hlookup t
    exact ⟨hlt, hlookup, hs⟩
  have tag_eq_iff : ∀ i j, LeadsTo nodeRecords arena.root i → LeadsTo nodeRecords arena.root j →
      ((Arena.traceAt built t i).tag = (Arena.traceAt built t j).tag ↔ i = j) := by
    intro i j hi hj
    obtain ⟨hlt, hi, -⟩ := lookup_eq hi
    obtain ⟨hlt', hj, -⟩ := lookup_eq hj
    exact ⟨fun htag => congrArg Fin.val (sound.eq_of_tag_eq hi hj htag), fun heq => heq ▸ rfl⟩
  refine ⟨Arena.traceAt_of_lookup_eq hroot t,
    ⟨fun i hi => ?_, fun i hi j hj heq => ?_, fun s hs => ?_⟩, fun i hi => ?_, tag_eq_iff⟩
  · obtain ⟨-, -, hreach⟩ := lookup_eq hi
    exact hreach
  · exact (tag_eq_iff i j hi hj).mp (congrArg Trace.tag heq)
  · obtain ⟨j, hj, hlookup⟩ := sound.exists_lookup_of_trace_reaches hroot hs
    exact ⟨j, h.reflTransGen_listsParent_iff.mpr ⟨j.isLt, hj⟩, Arena.traceAt_of_lookup_eq hlookup t⟩
  · obtain ⟨hlt, hlookup, -⟩ := lookup_eq hi
    obtain ⟨record, hrecord, hnode⟩ := h.node ⟨i, hlt⟩
    exact ⟨record, _, hrecord, by rwa [sound.item_eq hlookup], sound.parents_eq hlookup t⟩

end Arena.OfRecords

namespace Trace

/-! ### Which values are loaded -/

theorem load_eq_ok_iff {data : Value} {t : Trace} :
    load data = .ok t ↔ ∃ arena, Arena.ofValue data = .ok arena ∧ arena.build = .ok t :=
  bind_eq_ok_iff

/-- **What loading refuses.**  A value is loaded just when it is a trace file in which nothing that
the root leads to is its own ancestor.  Every other value is refused: the error is of the kind that
a value may be, and not one of those that asking a value for a key may end with. -/
theorem load_ok_iff_loadable (data : Value) :
    ((∃ t, load data = .ok t) ↔ Loadable data) ∧
      (¬ Loadable data → ∃ e, load data = .error e ∧ e.kind = .value) := by
  have hok : (∃ t, load data = .ok t) ↔ Loadable data := by
    simp only [load_eq_ok_iff]
    constructor
    · rintro ⟨t, arena, hread, hbuild⟩
      obtain ⟨ruleRecords, nodeRecords, file, records⟩ := Arena.ofRecords_of_ofValue hread
      refine ⟨ruleRecords, nodeRecords, arena.root, file, fun i hi hcycle => ?_⟩
      obtain ⟨hlt, hreach⟩ := records.reflTransGen_listsParent_iff.mp hi
      exact Arena.exists_build_iff.mp ⟨t, hbuild⟩ ⟨i, hlt⟩ hreach
        (records.transGen_listsParent_iff.mp hcycle)
    · rintro ⟨ruleRecords, nodeRecords, root, file, hacyclic⟩
      -- What was read has records of its own; they are the ones of the file.
      obtain ⟨arena, hread⟩ := Arena.exists_ofValue file
      obtain ⟨_, _, file', records⟩ := Arena.ofRecords_of_ofValue hread
      obtain ⟨rfl, rfl, rfl⟩ := file.unique file'
      obtain ⟨t, hbuild⟩ := Arena.exists_build_iff.mpr fun i hreach hcycle =>
        hacyclic i (records.reflTransGen_listsParent_iff.mpr ⟨i.isLt, hreach⟩)
          (records.transGen_listsParent_iff.mpr hcycle)
      exact ⟨t, arena, hread, hbuild⟩
  refine ⟨hok, fun hnot => ?_⟩
  cases h : load data with
  | ok t => exact absurd (hok.mp ⟨t, h⟩) hnot
  | error e => exact ⟨e, rfl, load_refuses data e h⟩

/-! ### What is loaded -/

/-- **Loading keeps the shape of the records.**  The nodes that the root leads to and the traces
that the loaded one reaches correspond one to one, the root to the loaded trace.  The trace of a
node has the item and the parents of its record; two references bear one tag just when they mean one
node; no trace is its own ancestor; and tags, which count the traces as they are made, are given to
no trace but these. -/
theorem load_isomorphic {data : Value} {t : Trace} (h : load data = .ok t) :
    ∃ ruleRecords nodeRecords root node, TraceFile data ruleRecords nodeRecords root ∧
      Represents ruleRecords nodeRecords root t node ∧
      (∀ s s', t.Reaches s → s.Ancestor s' → s.tag ≠ s'.tag) ∧
      ∀ k ≤ t.tag, ∃ i, LeadsTo nodeRecords root i ∧ (node i).tag = k := by
  obtain ⟨arena, hread, hbuild⟩ := load_eq_ok_iff.mp h
  obtain ⟨ruleRecords, nodeRecords, file, records⟩ := Arena.ofRecords_of_ofValue hread
  obtain ⟨built, sound, hroot, hreached⟩ := Arena.lookup_root_of_build hbuild
  refine ⟨ruleRecords, nodeRecords, arena.root, _, file, records.represents sound hroot, ?_, ?_⟩
  · intro s s' hs hancestor htag
    obtain ⟨j, -, hj⟩ := sound.exists_lookup_of_trace_reaches hroot hs
    exact Nat.ne_of_gt (sound.tag_lt_of_ancestor hj hancestor) htag
  · intro k hk
    obtain ⟨i, s, hi, rfl⟩ :=
      sound.exists_lookup_of_lt (Nat.lt_of_le_of_lt hk (sound.tag_lt_length hroot))
    refine ⟨i, records.reflTransGen_listsParent_iff.mpr ⟨i.isLt, hreached i s hi⟩, ?_⟩
    rw [Arena.traceAt_of_lookup_eq hi]

/-- A rule with a symbol and one without. -/
def diamondRules : List Value :=
  [.object [("nonterminal", .text "S"), ("symbols", .list [.text "S"])],
    .object [("nonterminal", .text "S"), ("symbols", .list [])]]

/-- Nodes 1 and 2 have equal records and a parent in common.  Node 4 is its own parent, but none of
the others leads to it. -/
def diamondNodes : List Value :=
  let record (rule : Int) (parents : List Int) : Value := .object
    [("production", .int rule), ("position", .int 0), ("parents", .list (parents.map .int))]
  [record 1 [1, 2, 1], record 0 [3], record 0 [3], record 0 [], record 1 [4]]

/-- The file with these rules and nodes, ending at the first node. -/
def diamondSample : Value :=
  .object [("productions", .list diamondRules), ("nodes", .list diamondNodes), ("root", .int 0)]

theorem load_isomorphic_diamond :
    ∃ t node, load diamondSample = .ok t ∧ Represents diamondRules diamondNodes 0 t node ∧
      t.parents = [node 1, node 2, node 1] ∧ (node 1).tag ≠ (node 2).tag := by
  obtain ⟨t, ht⟩ : ∃ t, load diamondSample = .ok t := ⟨_, rfl⟩
  obtain ⟨ruleRecords, nodeRecords, root, node, file, represents, -, -⟩ := load_isomorphic ht
  obtain rfl : diamondRules = ruleRecords := Value.list.inj (Option.some.inj file.productions)
  obtain rfl : diamondNodes = nodeRecords := Value.list.inj (Option.some.inj file.nodes)
  obtain rfl : 0 = root := Int.ofNat.inj (Value.int.inj (Option.some.inj file.root_eq))
  have leadsTo (p : Nat) (hp : p = 1 ∨ p = 2) : LeadsTo diamondNodes 0 p := by
    refine .single ⟨_, _, rfl, rfl, ?_⟩
    obtain rfl | rfl := hp <;> simp
  refine ⟨t, node, ht, represents, ?_, fun htag => ?_⟩
  · obtain ⟨record, parents, hrecord, hnode, hparents⟩ := represents.record 0 .refl
    obtain rfl := Option.some.inj hrecord
    obtain rfl : [1, 2, 1] = parents := by
      obtain ⟨hnone, -⟩ | hsome := hnode.parents_eq
      · cases hnone
      · exact List.map_injective_iff.mpr (fun i j h => Int.ofNat.inj (Value.int.inj h))
          (Value.list.inj (Option.some.inj hsome))
    rwa [represents.root_eq] at hparents
  · have := (represents.tag_eq_iff 1 2 (leadsTo 1 (.inl rfl)) (leadsTo 2 (.inr rfl))).mp htag
    omega

end Trace

end GrammarConflict
