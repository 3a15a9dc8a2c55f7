import GrammarConflict.Proofs.Attempt
import GrammarConflict.Proofs.Trace.Nodes
import GrammarConflict.Trace.Dump

/-!
# What is written down

A trace is written down just when every rule that is reached has a key (`Trace.exists_dump_iff`).
Of the rules with one key the first stands for all (`KeyedRule.find?_distinct`), so the record of a
trace names a rule with the key of its own, and has its position and the numbers of its parents:
`Trace.Written` says this of every trace that is reached.
-/

namespace GrammarConflict

/-! ### Keys of rules -/

theorem Rule.key_eq_ok_iff {rule : Rule} {key : Key × List Key} :
    rule.key = .ok key ↔ rule.nonterminal.key = .ok key.1 ∧
      List.Forall₂ (fun v k => v.key = .ok k) rule.symbols key.2 := by
  obtain ⟨nonterminal, symbols⟩ := key
  simp only [Rule.key, bind_eq_ok_iff, pure_eq_ok_iff, mapM_eq_ok_iff, Prod.mk.injEq]
  constructor
  · rintro ⟨_, hnonterminal, _, hsymbols, rfl, rfl⟩
    exact ⟨hnonterminal, hsymbols⟩
  · rintro ⟨hnonterminal, hsymbols⟩
    exact ⟨_, hnonterminal, _, hsymbols, rfl, rfl⟩

/-- Rules with one key have equally many symbols. -/
theorem Rule.length_symbols_eq {rule rule' : Rule} {key : Key × List Key}
    (h : rule.key = .ok key) (h' : rule'.key = .ok key) :
    rule.symbols.length = rule'.symbols.length :=
  (Rule.key_eq_ok_iff.mp h).2.length_eq.trans (Rule.key_eq_ok_iff.mp h').2.length_eq.symm

namespace KeyedRule

theorem ofRule_eq_ok_iff {rule : Rule} {r : KeyedRule} :
    ofRule rule = .ok r ↔ rule.key = .ok r.key ∧ r.rule = rule := by
  obtain ⟨key, rule'⟩ := r
  simp only [ofRule, bind_eq_ok_iff, pure_eq_ok_iff, KeyedRule.mk.injEq]
  constructor
  · rintro ⟨_, hkey, rfl, rfl⟩
    exact ⟨hkey, rfl⟩
  · rintro ⟨hkey, rfl⟩
    exact ⟨key, hkey, rfl, rfl⟩

theorem ofRule_eq_error_iff {rule : Rule} {e : Keyless} :
    ofRule rule = .error e ↔ rule.key = .error e := by
  simp only [ofRule, bind_eq_error_iff, pure, Except.pure, reduceCtorEq, and_false, exists_false,
    or_false]

/-- **The first rule with a key** is the one that is kept. -/
theorem find?_distinct (rules : List KeyedRule) (key : Key × List Key) :
    (distinct rules).find? (·.key == key) = rules.find? (·.key == key) := by
  induction rules with
  | nil => rfl
  | cons r rest ih =>
    rw [distinct, List.find?_cons, List.find?_cons]
    by_cases hkey : r.key = key
    · rw [beq_iff_eq.mpr hkey]
    · rw [beq_eq_false_iff_ne.mpr hkey]
      show ((distinct rest).filter (·.key != r.key)).find? (·.key == key) = rest.find? _
      rw [← ih, List.find?_filter]
      -- What the filter drops has the key of `r`, which is not looked for.
      refine congrArg (List.find? · (distinct rest)) (funext fun x => ?_)
      by_cases hx : x.key = key
      · simp [hx, Ne.symm hkey]
      · simp [hx]

/-- At the number of a rule is the first one with its key. -/
theorem getElem?_numberIn_distinct (rules : List KeyedRule) (r : KeyedRule) :
    (distinct rules)[r.numberIn (distinct rules)]? = rules.find? (·.key == r.key) := by
  rw [numberIn, ← List.find?_eq_getElem?_findIdx, find?_distinct]

/-- The rule at the number of a rule has the same key. -/
theorem exists_getElem?_numberIn {rules : List KeyedRule} {r : KeyedRule} (hr : r ∈ rules) :
    ∃ r' ∈ rules, r'.key = r.key ∧
      (distinct rules)[r.numberIn (distinct rules)]? = some r' := by
  obtain ⟨r', hfind⟩ : ∃ r', rules.find? (·.key == r.key) = some r' :=
    Option.isSome_iff_exists.mp (List.find?_isSome.mpr ⟨r, hr, beq_self_eq_true _⟩)
  refine ⟨r', List.mem_of_find?_eq_some hfind, ?_, ?_⟩
  · exact beq_iff_eq.mp (List.find?_some (p := fun x : KeyedRule => x.key == r.key) hfind)
  · rw [getElem?_numberIn_distinct, hfind]

end KeyedRule

namespace Trace

/-! ### Records -/

/-- The rules of the traces that are reached, with their keys. -/
theorem mapM_ofRule_eq_ok_iff {order : List Trace} {used : List KeyedRule} :
    (order.mapM fun s => KeyedRule.ofRule s.item.rule) = .ok used ↔
      List.Forall₂ (fun s r => s.item.rule.key = .ok r.key ∧ r.rule = s.item.rule) order used := by
  simp only [mapM_eq_ok_iff, KeyedRule.ofRule_eq_ok_iff]

/-- A trace is written down when each rule that is reached has a key. -/
theorem exists_dump {t : Trace} (h : ∀ s, t.Reaches s → ∃ key, s.item.rule.key = .ok key) :
    ∃ d, t.dump = .ok d := by
  have hkeyed : ∀ s ∈ t.nodes, ∃ r : KeyedRule,
      s.item.rule.key = .ok r.key ∧ r.rule = s.item.rule := by
    intro s hs
    obtain ⟨key, hkey⟩ := h s (reaches_of_mem_nodes hs)
    exact ⟨⟨key, s.item.rule⟩, hkey, rfl⟩
  obtain ⟨used, hused⟩ := exists_forall₂_iff.mpr hkeyed
  unfold dump
  simp only [bind_eq_ok_iff]
  exact ⟨_, used, mapM_ofRule_eq_ok_iff.mpr hused, rfl⟩

/-- Each trace that is reached has a record: the number of a rule with the same key, the position,
and the numbers of the parents. -/
structure Written (t : Trace) (d : Dump) : Prop where
  length_eq : d.nodes.length = t.nodes.length
  record : ∀ (i : Nat) (s : Trace), t.nodes[i]? = some s →
    ∃ (node : Dump.Node) (s' : Trace), d.nodes[i]? = some node ∧
    t.Reaches s' ∧ (∃ key, s.item.rule.key = .ok key ∧ s'.item.rule.key = .ok key) ∧
    d.rules[node.rule]? = some s'.item.rule.face ∧
    node.position = s.item.position ∧ node.parents = s.parents.map (numberIn t.nodes)
  root_eq : d.root = numberIn t.nodes t

theorem written_of_dump {t : Trace} {d : Dump} (h : t.dump = .ok d) : Written t d := by
  unfold dump at h
  simp only [bind_eq_ok_iff, pure_eq_ok_iff] at h
  obtain ⟨used, hmapM, rfl⟩ := h
  have hused := mapM_ofRule_eq_ok_iff.mp hmapM
  refine ⟨?_, fun i s hs => ?_, rfl⟩
  · rw [List.length_zipWith, ← hused.length_eq, Nat.min_self]
  · obtain ⟨hi, rfl⟩ := List.getElem?_eq_some_iff.mp hs
    have hi' : i < used.length := hused.length_eq ▸ hi
    obtain ⟨hkey, -⟩ := hused.get hi hi'
    obtain ⟨r, hr, hrkey, hget⟩ := KeyedRule.exists_getElem?_numberIn (List.getElem_mem hi')
    -- The rule with the same key is the rule of some other trace that is reached.
    obtain ⟨j, hj, rfl⟩ := List.getElem_of_mem hr
    have hj' : j < t.nodes.length := hused.length_eq ▸ hj
    obtain ⟨hkey', hrule'⟩ := hused.get hj' hj
    rw [List.get_eq_getElem, List.get_eq_getElem] at hkey hkey' hrule'
    have hnode : ∀ record : Trace → KeyedRule → Dump.Node,
        (t.nodes.zipWith record used)[i]? = some (record t.nodes[i] used[i]) := by
      intro record
      rw [List.getElem?_zipWith, hs, List.getElem?_eq_getElem hi']
    refine ⟨_, t.nodes[j], hnode _, reaches_of_mem_nodes (List.getElem_mem hj'),
      ⟨_, hkey, hrkey ▸ hkey'⟩, ?_, rfl, rfl⟩
    rw [List.getElem?_map, hget, Option.map_some, hrule']

/-- A trace is written down just when each rule that is reached has a key. -/
theorem exists_dump_iff {t : Trace} (tagged : t.Tagged) :
    (∃ d, t.dump = .ok d) ↔ ∀ s, t.Reaches s → ∃ key, s.item.rule.key = .ok key := by
  constructor
  · rintro ⟨d, hd⟩ s hs
    obtain ⟨_, _, _, _, ⟨key, hkey, _⟩, _⟩ :=
      (written_of_dump hd).record _ s (tagged.getElem?_numberIn hs)
    exact ⟨key, hkey⟩
  · exact exists_dump

end Trace

end GrammarConflict
