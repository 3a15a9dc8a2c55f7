import GrammarConflict.Proofs.Arena.Load
import GrammarConflict.Proofs.Dump.Written
import GrammarConflict.Proofs.Trace.Correspond

/-!
# Reading a dump back

What is written down is a trace file: its records stand for the traces that are reached
(`Written.exists_nodeRecord`), list the parents that the traces have (`Written.listsParent_iff`),
and lead from the root to all of them (`Written.leadsTo_iff`).  So a dump is loaded, and the trace
that is loaded has the shape of the one written down and the items of the dump
(`Written.exists_load_itemAt`), each rule made of the texts of a rule with its key
(`Written.exists_load`).
-/

namespace GrammarConflict

/-- The rule whose nonterminal and symbols are the texts. -/
def Rule.Face.rule (face : Rule.Face) : Rule :=
  ⟨.text face.nonterminal, face.symbols.map .text⟩

theorem Rule.Face.ruleRecord (face : Rule.Face) : RuleRecord (Dump.ruleValue face) face.rule :=
  ⟨rfl, rfl⟩

/-- The item of a node in a dump: a rule of the texts that its number stands for, and its
position. -/
def Dump.ItemAt (d : Dump) (i : Nat) (item : Item) : Prop :=
  ∃ node face, d.nodes[i]? = some node ∧ d.rules[node.rule]? = some face ∧
    item = ⟨face.rule, node.position⟩

/-- A record of a node stands for no other item and for no other parents. -/
theorem NodeRecord.unique {ruleRecords : List Value} {count : Nat} {record : Value}
    {item item' : Item} {parents parents' : List Nat}
    (h : NodeRecord ruleRecords count record item parents)
    (h' : NodeRecord ruleRecords count record item' parents') :
    item = item' ∧ parents = parents' := by
  constructor
  · obtain ⟨rule, position⟩ := item
    obtain ⟨rule', position'⟩ := item'
    obtain ⟨k, hk, ruleRecord, hget, hrule⟩ := h.production
    obtain ⟨k', hk', ruleRecord', hget', hrule'⟩ := h'.production
    have hposition := h.position.symm.trans h'.position
    have hnumber := hk.symm.trans hk'
    simp only [Option.some.injEq, Value.int.injEq, Int.ofNat_inj] at hposition hnumber
    subst hposition hnumber
    obtain rfl := Option.some.inj (hget.symm.trans hget')
    obtain rfl := hrule.unique hrule'
    rfl
  -- Whether the record has a field of parents is the same both times.
  · obtain ⟨hnone, rfl⟩ | hsome := h.parents_eq <;>
      obtain ⟨hnone', rfl⟩ | hsome' := h'.parents_eq
    · rfl
    · rw [hnone] at hsome'
      cases hsome'
    · rw [hnone'] at hsome
      cases hsome
    · have hmembers := Value.list.inj (Option.some.inj (hsome.symm.trans hsome'))
      refine List.map_injective_iff.mpr (fun p q hpq => ?_) hmembers
      exact Int.ofNat_inj.mp (Value.int.inj hpq)

namespace Trace

/-- A trace file is loaded if nothing that its root leads to is its own ancestor. -/
theorem exists_load_represents {data : Value} {ruleRecords nodeRecords : List Value} {root : Nat}
    (file : TraceFile data ruleRecords nodeRecords root)
    (hacyclic : ∀ i, ¬ Relation.TransGen (ListsParent nodeRecords) i i) :
    ∃ t node, load data = .ok t ∧ Represents ruleRecords nodeRecords root t node := by
  obtain ⟨arena, hread⟩ := Arena.exists_ofValue file
  obtain ⟨_, _, file', records⟩ := Arena.ofRecords_of_ofValue hread
  obtain ⟨rfl, rfl, rfl⟩ := file.unique file'
  obtain ⟨t, hbuild⟩ := Arena.exists_build_iff.mpr fun i _ hcycle =>
    hacyclic i (records.transGen_listsParent_iff.mpr hcycle)
  obtain ⟨built, sound, hroot, -⟩ := Arena.lookup_root_of_build hbuild
  exact ⟨t, _, load_eq_ok_iff.mpr ⟨arena, hread, hbuild⟩, records.represents sound hroot⟩

/-- A trace is loaded from a trace file that it represents. -/
theorem exists_represents_of_load {data : Value} {t : Trace} (h : load data = .ok t) :
    ∃ ruleRecords nodeRecords root node, TraceFile data ruleRecords nodeRecords root ∧
      Represents ruleRecords nodeRecords root t node := by
  obtain ⟨arena, hread, hbuild⟩ := load_eq_ok_iff.mp h
  obtain ⟨ruleRecords, nodeRecords, file, records⟩ := Arena.ofRecords_of_ofValue hread
  obtain ⟨built, sound, hroot, -⟩ := Arena.lookup_root_of_build hbuild
  exact ⟨ruleRecords, nodeRecords, arena.root, _, file, records.represents sound hroot⟩

end Trace

namespace Represents

variable {ruleRecords nodeRecords : List Value} {root : Nat} {t : Trace} {node : Nat → Trace}

theorem tagged (h : Represents ruleRecords nodeRecords root t node) : t.Tagged := by
  intro s s' hs hs' htag
  obtain ⟨i, hi, rfl⟩ := h.bijOn.surjOn hs
  obtain ⟨j, hj, rfl⟩ := h.bijOn.surjOn hs'
  rw [(h.tag_eq_iff i j hi hj).mp htag]

/-- What is reached has a record. -/
theorem exists_record (h : Represents ruleRecords nodeRecords root t node) {s : Trace}
    (hs : t.Reaches s) : ∃ record ∈ nodeRecords, ∃ parents,
      NodeRecord ruleRecords nodeRecords.length record s.item parents := by
  obtain ⟨i, hi, rfl⟩ := h.bijOn.surjOn hs
  obtain ⟨record, parents, hget, hrecord, -⟩ := h.record i hi
  exact ⟨record, List.mem_of_getElem? hget, parents, hrecord⟩

end Represents

namespace Trace

/-- Tags tell the traces of a loaded one apart. -/
theorem tagged_of_load {data : Value} {t : Trace} (h : load data = .ok t) : t.Tagged := by
  obtain ⟨_, _, _, _, -, represents⟩ := exists_represents_of_load h
  exact represents.tagged

/-- The items of a loaded trace are valid. -/
theorem valid_of_load {data : Value} {t s : Trace} (h : load data = .ok t) (hs : t.Reaches s) :
    s.item.Valid := by
  obtain ⟨_, _, _, _, -, represents⟩ := exists_represents_of_load h
  obtain ⟨record, -, parents, hnode⟩ := represents.exists_record hs
  exact hnode.valid

/-- The item that is read back for an item: the position is kept, and the rule is made of the texts
of a rule that is reached and has the same key. -/
def ReadBack (t : Trace) (item item' : Item) : Prop :=
  item'.position = item.position ∧ ∃ s key, t.Reaches s ∧ item.rule.key = .ok key ∧
    s.item.rule.key = .ok key ∧ item'.rule = s.item.rule.face.rule

namespace Written

variable {t : Trace} {d : Dump}

/-! ### The records of a dump -/

theorem readBack_of_itemAt (written : Written t d) {i : Nat} {s : Trace} {item : Item}
    (h : t.nodes[i]? = some s) (hitem : d.ItemAt i item) : t.ReadBack s.item item := by
  obtain ⟨node, s', hnode, hs', ⟨key, hkey, hkey'⟩, hrule, hposition, -⟩ := written.record i s h
  obtain ⟨node', face, hnode', hface, rfl⟩ := hitem
  obtain rfl := Option.some.inj (hnode.symm.trans hnode')
  obtain rfl := Option.some.inj (hrule.symm.trans hface)
  exact ⟨hposition, s', key, hs', hkey, hkey', rfl⟩

/-- **The record of a trace** stands for the item of the dump and the numbers of the parents. -/
theorem exists_nodeRecord (written : Written t d) (tagged : t.Tagged)
    (valid : ∀ s, t.Reaches s → s.item.Valid) {i : Nat} {s : Trace} (h : t.nodes[i]? = some s) :
    ∃ record item, (d.nodes.map Dump.nodeValue)[i]? = some record ∧ d.ItemAt i item ∧
      NodeRecord (d.rules.map Dump.ruleValue) (d.nodes.map Dump.nodeValue).length record item
        (s.parents.map (numberIn t.nodes)) := by
  obtain ⟨node, s', hnode, hs', ⟨key, hkey, hkey'⟩, hrule, hposition, hparents⟩ :=
    written.record i s h
  have hs : t.Reaches s := reaches_of_mem_nodes (List.mem_of_getElem? h)
  refine ⟨Dump.nodeValue node, ⟨s'.item.rule.face.rule, node.position⟩, ?_,
    ⟨node, _, hnode, hrule, rfl⟩, ?_, rfl, ?_, .inr ?_, ?_⟩
  · rw [List.getElem?_map, hnode, Option.map_some]
  · refine ⟨node.rule, rfl, _, ?_, Rule.Face.ruleRecord _⟩
    rw [List.getElem?_map, hrule, Option.map_some]
  -- Rules with one key are equally long, so the position is valid in either.
  · have hlength := Rule.length_symbols_eq hkey hkey'
    obtain ⟨hlo, hhi⟩ := valid s hs
    simp only [Item.Valid, hposition, Rule.Face.rule, Rule.face, List.length_map]
    omega
  · rw [← hparents]
    rfl
  · rw [List.length_map, written.length_eq]
    refine List.forall_mem_map.mpr fun p hp => ?_
    exact tagged.bijOn_numberIn_nodes.mapsTo (hs.tail hp)

/-- **A dump is a trace file.** -/
theorem traceFile (written : Written t d) (tagged : t.Tagged)
    (valid : ∀ s, t.Reaches s → s.item.Valid) :
    TraceFile d.toValue (d.rules.map Dump.ruleValue) (d.nodes.map Dump.nodeValue) d.root where
  productions := rfl
  rules := List.forall_mem_map.mpr fun face _ => ⟨face.rule, face.ruleRecord⟩
  nodes := rfl
  items := by
    intro record hrecord
    obtain ⟨i, hi, rfl⟩ := List.getElem_of_mem hrecord
    have hi' : i < t.nodes.length := by rwa [← written.length_eq, ← List.length_map]
    obtain ⟨record, item, hget, -, hnode⟩ :=
      written.exists_nodeRecord tagged valid (List.getElem?_eq_getElem hi')
    obtain ⟨_, rfl⟩ := List.getElem?_eq_some_iff.mp hget
    exact ⟨item, _, hnode⟩
  root_eq := rfl
  root_lt := by
    rw [List.length_map, written.length_eq, written.root_eq]
    exact tagged.bijOn_numberIn_nodes.mapsTo .refl

/-- The parents listed are those of the traces. -/
theorem listsParent_iff (written : Written t d) (tagged : t.Tagged)
    (valid : ∀ s, t.Reaches s → s.item.Valid) {i p : Nat} :
    ListsParent (d.nodes.map Dump.nodeValue) i p ↔
      ∃ s q, t.nodes[i]? = some s ∧ s.HasParent q ∧ t.nodes[p]? = some q := by
  constructor
  · rintro ⟨record, members, hget, hfield, hp⟩
    have hi : i < t.nodes.length := by
      rw [← written.length_eq, ← List.length_map Dump.nodeValue]
      exact (List.getElem?_eq_some_iff.mp hget).1
    obtain ⟨record', item, hget', -, hnode⟩ :=
      written.exists_nodeRecord tagged valid (List.getElem?_eq_getElem hi)
    obtain rfl := Option.some.inj (hget.symm.trans hget')
    obtain ⟨q, hq, rfl⟩ := List.mem_map.mp (hnode.int_mem_iff.mp ⟨members, hfield, hp⟩)
    have hs : t.Reaches t.nodes[i] := reaches_of_mem_nodes (List.getElem_mem hi)
    exact ⟨t.nodes[i], q, List.getElem?_eq_getElem hi, hq, tagged.getElem?_numberIn (hs.tail hq)⟩
  · rintro ⟨s, q, hs, hq, hp⟩
    obtain ⟨record, item, hget, -, hnode⟩ := written.exists_nodeRecord tagged valid hs
    have hmem : p ∈ s.parents.map (numberIn t.nodes) :=
      List.mem_map.mpr ⟨q, hq, numberIn_nodes_of_getElem? hp⟩
    obtain ⟨members, hfield, hp⟩ := hnode.int_mem_iff.mpr hmem
    exact ⟨record, members, hget, hfield, hp⟩

/-- No record is its own ancestor. -/
theorem not_listsParent_self (written : Written t d) (tagged : t.Tagged)
    (valid : ∀ s, t.Reaches s → s.item.Valid) (i : Nat) :
    ¬ Relation.TransGen (ListsParent (d.nodes.map Dump.nodeValue)) i i := by
  have ancestor {i j : Nat} (h : Relation.TransGen (ListsParent (d.nodes.map Dump.nodeValue)) i j) :
      ∃ s q, t.nodes[i]? = some s ∧ t.nodes[j]? = some q ∧ s.Ancestor q := by
    induction h with
    | single h =>
      obtain ⟨s, q, hs, hq, hp⟩ := (written.listsParent_iff tagged valid).mp h
      exact ⟨s, q, hs, hp, .single hq⟩
    | tail _ h ih =>
      obtain ⟨s, q, hs, hp, hreach⟩ := ih
      obtain ⟨q', r, hq', hr, hget⟩ := (written.listsParent_iff tagged valid).mp h
      obtain rfl := Option.some.inj (hp.symm.trans hq')
      exact ⟨s, r, hs, hget, hreach.tail hr⟩
  -- A cycle of records would be one of traces.
  intro hcycle
  obtain ⟨s, q, hs, hq, h⟩ := ancestor hcycle
  obtain rfl := Option.some.inj (hs.symm.trans hq)
  exact not_ancestor_self s h

/-- **The root leads to every record.** -/
theorem leadsTo_iff (written : Written t d) (tagged : t.Tagged)
    (valid : ∀ s, t.Reaches s → s.item.Valid) {i : Nat} :
    LeadsTo (d.nodes.map Dump.nodeValue) d.root i ↔ i < t.nodes.length := by
  have leadsTo {s : Trace} (hs : t.Reaches s) :
      LeadsTo (d.nodes.map Dump.nodeValue) d.root (numberIn t.nodes s) := by
    induction hs with
    | refl => rw [written.root_eq]
    | tail hreach hstep ih =>
      exact ih.tail ((written.listsParent_iff tagged valid).mpr ⟨_, _,
        tagged.getElem?_numberIn hreach, hstep, tagged.getElem?_numberIn (hreach.tail hstep)⟩)
  constructor
  · intro h
    obtain rfl | ⟨j, -, hstep⟩ := h.cases_tail
    · rw [written.root_eq]
      exact tagged.bijOn_numberIn_nodes.mapsTo .refl
    · obtain ⟨-, q, -, -, hget⟩ := (written.listsParent_iff tagged valid).mp hstep
      exact (List.getElem?_eq_some_iff.mp hget).1
  · intro hi
    obtain ⟨s, hs, rfl⟩ := tagged.bijOn_numberIn_nodes.surjOn hi
    exact leadsTo hs

/-! ### The trace that is read back -/

/-- **A dump is loaded**, as a trace of the same shape with the items of the dump. -/
theorem exists_load_itemAt (written : Written t d) (tagged : t.Tagged)
    (valid : ∀ s, t.Reaches s → s.item.Valid) :
    ∃ u f, load d.toValue = .ok u ∧ u.Tagged ∧ Corresponds t.ReadBack t u f ∧
      ∀ s, t.Reaches s → d.ItemAt (numberIn t.nodes s) (f s).item := by
  obtain ⟨u, node, hload, represents⟩ := exists_load_represents (written.traceFile tagged valid)
    (written.not_listsParent_self tagged valid)
  have hleadsTo : {i | LeadsTo (d.nodes.map Dump.nodeValue) d.root i} =
      {i | i < t.nodes.length} := Set.ext fun i => written.leadsTo_iff tagged valid
  -- One record is written for a trace and read for the node at its number.  As it stands for one
  -- item, what is read is what was written.
  have hrecord (s : Trace) (hs : t.Reaches s) :
      d.ItemAt (numberIn t.nodes s) (node (numberIn t.nodes s)).item ∧
      (node (numberIn t.nodes s)).parents = (s.parents.map (numberIn t.nodes)).map node := by
    have hlt := tagged.bijOn_numberIn_nodes.mapsTo hs
    obtain ⟨record, parents, hget, hnode, hparents⟩ :=
      represents.record _ ((written.leadsTo_iff tagged valid).mpr hlt)
    obtain ⟨record', item, hget', hitem, hnode'⟩ :=
      written.exists_nodeRecord tagged valid (tagged.getElem?_numberIn hs)
    obtain rfl := Option.some.inj (hget.symm.trans hget')
    obtain ⟨rfl, rfl⟩ := hnode.unique hnode'
    exact ⟨hitem, hparents⟩
  refine ⟨u, node ∘ numberIn t.nodes, hload, represents.tagged, ⟨?_, ?_, fun s hs => ?_,
    fun s hs => ?_⟩, fun s hs => (hrecord s hs).1⟩
  · rw [Function.comp_apply, ← written.root_eq, represents.root_eq]
  · have hbijOn := represents.bijOn
    rw [hleadsTo] at hbijOn
    exact hbijOn.comp tagged.bijOn_numberIn_nodes
  · exact written.readBack_of_itemAt (tagged.getElem?_numberIn hs) (hrecord s hs).1
  · rw [Function.comp_apply, (hrecord s hs).2, List.map_map]

/-- A dump is loaded, as a trace of the same shape with rules of the texts of equal rules. -/
theorem exists_load (written : Written t d) (tagged : t.Tagged)
    (valid : ∀ s, t.Reaches s → s.item.Valid) :
    ∃ u f, load d.toValue = .ok u ∧ u.Tagged ∧ Corresponds t.ReadBack t u f := by
  obtain ⟨u, f, hload, tagged', hf, -⟩ := written.exists_load_itemAt tagged valid
  exact ⟨u, f, hload, tagged', hf⟩

end Written

end Trace

end GrammarConflict
