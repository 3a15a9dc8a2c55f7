import GrammarConflict.Proofs.Dump.Canonical
import GrammarConflict.Proofs.Trace.Preorder

/-!
# The numbers in a dump

A dump has its nodes in the order of a first visit and its rules in the order of a first use, equal
rules once (`Trace.Lists`).  The numbers of the rules depend on nothing but the keys, from which
`Trace.dump_eq_ok` gives the whole dump.

Lists and objects have no key (`Value.IsCompound`).  If the rules have any, writing down fails on
the first of them (`Trace.exists_firstCompound`).  This is the first in the unfolded trace too,
though the pass over the nodes unfolds nothing: up to the first visit of a node the unfolded trace
has no other nodes than those listed before (`Trace.Tagged.exists_preorder_eq`).
-/

namespace GrammarConflict

/-! ### Values without a key -/

/-- A list or an object, and the word for which of the two. -/
inductive Value.IsCompound : Value → String → Prop
  | list (items : List Value) : IsCompound (.list items) "list"
  | object (fields : List (String × Value)) : IsCompound (.object fields) "dict"

/-- A value has a key just when it is not compound. -/
theorem Value.exists_key_eq_ok_iff {v : Value} :
    (∃ key, v.key = .ok key) ↔ ∀ kind, ¬ v.IsCompound kind := by
  constructor
  · rintro ⟨key, hkey⟩ _ (_ | _) <;> cases hkey
  · intro h
    cases v with
    | list items => exact absurd (.list items) (h "list")
    | object fields => exact absurd (.object fields) (h "dict")
    | _ => exact ⟨_, rfl⟩

/-- The error names the kind of the value. -/
theorem Value.exists_isCompound_of_key {v : Value} {e : Keyless} (h : v.key = .error e) :
    ∃ kind, v.IsCompound kind ∧ e.message = "unhashable type: '" ++ kind ++ "'" := by
  cases v with
  | list items =>
    obtain rfl := Except.error.inj h
    exact ⟨"list", .list items, by decide⟩
  | object fields =>
    obtain rfl := Except.error.inj h
    exact ⟨"dict", .object fields, by decide⟩
  | _ => cases h

/-- The values in a rule, the nonterminal first. -/
def Rule.values (rule : Rule) : List Value :=
  rule.nonterminal :: rule.symbols

theorem Rule.key_eq_error_iff {rule : Rule} {e : Keyless} :
    rule.key = .error e ↔ rule.values.mapM Value.key = .error e := by
  simp only [Rule.key, Rule.values, List.mapM_cons, bind_eq_error_iff, pure, Except.pure,
    reduceCtorEq, and_false, exists_false, or_false]

theorem Rule.exists_key_eq_ok_iff {rule : Rule} :
    (∃ key, rule.key = .ok key) ↔ ∀ v ∈ rule.values, ∀ kind, ¬ v.IsCompound kind := by
  rw [Rule.values, List.forall_mem_cons, ← Value.exists_key_eq_ok_iff]
  simp only [Rule.key_eq_ok_iff, ← Value.exists_key_eq_ok_iff, ← exists_forall₂_iff, Prod.exists,
    exists_and_left, exists_and_right]

/-! ### Distinct rules -/

namespace KeyedRule

theorem numberIn_eq_idxOf (rules : List KeyedRule) (r : KeyedRule) :
    r.numberIn rules = (rules.map key).idxOf r.key := by
  unfold numberIn List.idxOf
  rw [List.findIdx_map]
  rfl

/-- The keys of the rules that are kept. -/
theorem map_key_distinct (rules : List KeyedRule) :
    (distinct rules).map key = (rules.map key).eraseDups := by
  induction rules with
  | nil => rfl
  | cons r rest ih =>
    rw [distinct, List.map_cons, List.map_cons, List.eraseDups_cons, eraseDups_filter, ← ih,
      List.filter_map]
    rfl

end KeyedRule

namespace Trace

variable {t : Trace} {d : Dump} {key : Trace → Key × List Key}

/-! ### The dump from the keys -/

/-- The rules of the traces that are reached, each with its key. -/
def used (t : Trace) (key : Trace → Key × List Key) : List KeyedRule :=
  t.nodes.map fun s => ⟨key s, s.item.rule⟩

theorem map_key_distinct_used (t : Trace) (key : Trace → Key × List Key) :
    (KeyedRule.distinct (t.used key)).map KeyedRule.key = (t.nodes.map key).eraseDups := by
  rw [KeyedRule.map_key_distinct, used, List.map_map]
  rfl

/-- The number of the rule is the place of its key among the keys. -/
theorem numberIn_distinct_used (t : Trace) (key : Trace → Key × List Key) (r : KeyedRule) :
    r.numberIn (KeyedRule.distinct (t.used key)) = (t.nodes.map key).eraseDups.idxOf r.key := by
  rw [KeyedRule.numberIn_eq_idxOf, map_key_distinct_used]

/-- The dump from the keys of the rules. -/
theorem dump_eq_ok (tagged : t.Tagged) (hkey : ∀ s, t.Reaches s → s.item.rule.key = .ok (key s)) :
    t.dump = .ok
      { rules := (KeyedRule.distinct (t.used key)).map (·.rule.face)
        nodes := t.nodes.map fun s =>
          ⟨(t.nodes.map key).eraseDups.idxOf (key s), s.item.position,
            s.parents.map (numberIn t.nodes)⟩
        root := 0 } := by
  have hused : (t.nodes.mapM fun s => KeyedRule.ofRule s.item.rule) = .ok (t.used key) := by
    rw [mapM_ofRule_eq_ok_iff, used, List.forall₂_map_right_iff, List.forall₂_same]
    exact fun s hs => ⟨hkey s (reaches_of_mem_nodes hs), rfl⟩
  unfold dump
  simp only [bind_eq_ok_iff, pure_eq_ok_iff]
  refine ⟨_, hused, ?_⟩
  simp only [numberIn_distinct_used, tagged.numberIn_nodes_self]
  rw [used, List.zipWith_map_right, List.zipWith_self]

/-- A rule that no trace listed before has the key of is kept. -/
theorem getElem?_distinct_used {s : Trace} (tagged : t.Tagged) (hs : t.Reaches s)
    (hfirst : ∀ s', t.Reaches s' → key s' = key s → numberIn t.nodes s ≤ numberIn t.nodes s') :
    (KeyedRule.distinct (t.used key))[(t.nodes.map key).eraseDups.idxOf (key s)]? =
      some ⟨key s, s.item.rule⟩ := by
  obtain ⟨hlt, hget⟩ := List.getElem?_eq_some_iff.mp (tagged.getElem?_numberIn hs)
  have hfind : t.nodes.find? (fun x => key x == key s) = some s := by
    refine List.find?_eq_some_iff_getElem.mpr ⟨beq_self_eq_true _, _, hlt, hget, fun j hj => ?_⟩
    rw [Bool.not_eq_true', beq_eq_false_iff_ne]
    intro hkey
    have hj' : j < t.nodes.length := Nat.lt_trans hj hlt
    have hle := hfirst t.nodes[j] (reaches_of_mem_nodes (List.getElem_mem hj')) hkey
    rw [numberIn_nodes_of_getElem? (List.getElem?_eq_getElem hj')] at hle
    exact Nat.not_lt.mpr hle hj
  have hnumber := KeyedRule.getElem?_numberIn_distinct (t.used key) ⟨key s, s.item.rule⟩
  rw [numberIn_distinct_used] at hnumber
  rw [hnumber, used, List.find?_map]
  exact congrArg _ hfind

/-! ### Where writing down fails -/

/-- Some rule that is reached has a list or an object in it. -/
def HasCompound (t : Trace) : Prop :=
  ∃ s, t.Reaches s ∧ ∃ v ∈ s.item.rule.values, ∃ kind, v.IsCompound kind

/-- The first list or object in the rules of the unfolded trace is of the kind. -/
def FirstCompound (t : Trace) (kind : String) : Prop :=
  ∃ before v after, t.preorder.flatMap (·.item.rule.values) = before ++ v :: after ∧
    (∀ w ∈ before, ∀ kind', ¬ w.IsCompound kind') ∧ v.IsCompound kind

/-- A trace that has no list and no object in a rule is written down. -/
theorem exists_dump_iff_not_hasCompound (tagged : t.Tagged) :
    (∃ d, t.dump = .ok d) ↔ ¬ t.HasCompound := by
  rw [exists_dump_iff tagged]
  constructor
  · rintro h ⟨s, hs, v, hv, kind, hkind⟩
    exact Rule.exists_key_eq_ok_iff.mp (h s hs) v hv kind hkind
  · intro h s hs
    exact Rule.exists_key_eq_ok_iff.mpr fun v hv kind hkind => h ⟨s, hs, v, hv, kind, hkind⟩

/-- **The first list or object** is what the attempt to write the trace down fails on. -/
theorem exists_firstCompound (tagged : t.Tagged) {e : Keyless} (h : t.dump = .error e) :
    ∃ kind, t.FirstCompound kind ∧ e.message = "unhashable type: '" ++ kind ++ "'" := by
  simp only [dump, bind_eq_error_iff, mapM_eq_error_iff, KeyedRule.ofRule_eq_error_iff, pure,
    Except.pure, reduceCtorEq, and_false, exists_false, or_false] at h
  obtain ⟨before, s, after, hnodes, hbefore, hs⟩ := h
  obtain ⟨visits, rest, hpreorder, hvisits⟩ := tagged.exists_preorder_eq hnodes
  obtain ⟨first, v, last, hvalues, hfirst, hv⟩ :=
    mapM_eq_error_iff.mp (Rule.key_eq_error_iff.mp hs)
  obtain ⟨kind, hkind, hmessage⟩ := Value.exists_isCompound_of_key hv
  refine ⟨kind, ⟨visits.flatMap (·.item.rule.values) ++ first, v,
    last ++ rest.flatMap (·.item.rule.values), ?_, ?_, hkind⟩, hmessage⟩
  · simp [hpreorder, hvalues]
  · intro w hw
    obtain hw | hw := List.mem_append.mp hw
    · obtain ⟨x, hx, hw⟩ := List.mem_flatMap.mp hw
      obtain ⟨r, hr⟩ := hbefore x (hvisits x hx)
      exact Rule.exists_key_eq_ok_iff.mp ⟨_, (KeyedRule.ofRule_eq_ok_iff.mp hr).1⟩ w hw
    · exact Value.exists_key_eq_ok_iff.mp (hfirst w hw)

/-! ### The numbers -/

/-- The dump lists what the trace reaches: the nodes in the order of a first visit, each with the
number of its rule, its position and the numbers of its parents in their order, and the rules in the
order of a first use, equal ones once and with the texts of the one that is met first. -/
structure Lists (t : Trace) (d : Dump) (number rule : Trace → Nat) : Prop where
  root_eq : d.root = 0
  number_self : number t = 0
  /-- What is reached is numbered, each trace once. -/
  bijOn : Set.BijOn number {s | t.Reaches s} {i | i < d.nodes.length}
  ordered : ∀ s s', t.Reaches s → t.Reaches s' →
    (number s < number s' ↔ t.firstVisit s < t.firstVisit s')
  record : ∀ s, t.Reaches s →
    d.nodes[number s]? = some ⟨rule s, s.item.position, s.parents.map number⟩
  /-- The numbers of the rules occur in order, and every rule there is has a node. -/
  rules_used : (d.nodes.map Dump.Node.rule).eraseDups = List.range d.rules.length
  rule_eq_iff : ∀ s s', t.Reaches s → t.Reaches s' →
    (rule s = rule s' ↔ s.item.rule.key = s'.item.rule.key)
  rule_face : ∀ s, t.Reaches s → (∀ s', t.Reaches s' → rule s' = rule s → number s ≤ number s') →
    d.rules[rule s]? = some s.item.rule.face

theorem exists_lists (tagged : t.Tagged) (hd : t.dump = .ok d) :
    ∃ number rule, Lists t d number rule := by
  -- Every rule that is reached has a key, from which the dump is known.
  have hkeys (s : Trace) : ∃ key, t.Reaches s → s.item.rule.key = .ok key := by
    by_cases hs : t.Reaches s
    · obtain ⟨key, hkey⟩ := (exists_dump_iff tagged).mp ⟨d, hd⟩ s hs
      exact ⟨key, fun _ => hkey⟩
    · exact ⟨(.null, []), fun h => absurd h hs⟩
  obtain ⟨key, hkey⟩ := Classical.skolem.mp hkeys
  obtain rfl := Except.ok.inj (hd.symm.trans (dump_eq_ok tagged hkey))
  have hmem {s : Trace} (hs : t.Reaches s) : key s ∈ t.nodes.map key :=
    List.mem_map_of_mem (tagged.mem_nodes_iff.mpr hs)
  refine ⟨numberIn t.nodes, fun s => (t.nodes.map key).eraseDups.idxOf (key s), rfl,
    tagged.numberIn_nodes_self, ?_, fun s s' => tagged.numberIn_nodes_lt_iff, fun s hs => ?_,
    ?_, fun s s' hs hs' => ?_, fun s hs hfirst => ?_⟩
  · rw [List.length_map]
    exact tagged.bijOn_numberIn_nodes
  · rw [List.getElem?_map, tagged.getElem?_numberIn hs, Option.map_some]
  · rw [List.length_map, ← List.length_map KeyedRule.key, map_key_distinct_used,
      ← eraseDups_map_idxOf, List.map_map, List.map_map]
    rfl
  · rw [List.idxOf_inj (List.mem_eraseDups.mpr (hmem hs)), hkey s hs, hkey s' hs', Except.ok.injEq]
  · rw [List.getElem?_map, getElem?_distinct_used tagged hs fun s' hs' heq => ?_, Option.map_some]
    exact hfirst s' hs' (congrArg ((t.nodes.map key).eraseDups.idxOf ·) heq)

/-- **What a dump has.**  A trace from a file is not written down just when a rule that is reached
has a list or an object in it, and the first of them is named then.  Else it is written down with
its nodes in the order of a first visit and its rules in the order of a first use, equal ones once,
and the dump is loaded. -/
theorem dump_lists_of_load {data : Value} (h : load data = .ok t) :
    ((∃ e, t.dump = .error e) ↔ t.HasCompound) ∧
    (∀ e, t.dump = .error e →
      ∃ kind, t.FirstCompound kind ∧ e.message = "unhashable type: '" ++ kind ++ "'") ∧
    (¬ t.HasCompound → ∃ d, t.dump = .ok d ∧ (∃ number rule, Lists t d number rule) ∧
      ∃ u, load d.toValue = .ok u) := by
  have tagged : t.Tagged := tagged_of_load h
  refine ⟨?_, fun e => exists_firstCompound tagged, fun hnot => ?_⟩
  · rw [← not_iff_not, ← exists_dump_iff_not_hasCompound tagged]
    cases t.dump with
    | ok d => exact iff_of_true (by simp) ⟨d, rfl⟩
    | error e => exact iff_of_false (by simp) (by simp)
  · obtain ⟨d, hd⟩ := (exists_dump_iff_not_hasCompound tagged).mpr hnot
    obtain ⟨u, _, hload, -⟩ :=
      (written_of_dump hd).exists_load tagged fun s hs => valid_of_load h hs
    exact ⟨d, hd, exists_lists tagged hd, u, hload⟩

/-- Three nodes with different rules that are equal, one of them met again. -/
def equalSample : Value :=
  let rule (symbol : Value) : Value :=
    .object [("nonterminal", .text "S"), ("symbols", .list [symbol])]
  .object [("productions", .list [rule (.int 1), rule (.bool true)]),
    ("nodes", .list [nodeSample 0 [], nodeSample 1 [0], nodeSample 0 [1, 0, 1]]), ("root", .int 2)]

/-- Of two parents, the first has an object in its rule and the second a list. -/
def compoundSample : Value :=
  let rule (symbol : Value) : Value :=
    .object [("nonterminal", .text "S"), ("symbols", .list [symbol])]
  .object [("productions", .list [rule (.list []), rule (.object []), rule .null]),
    ("nodes", .list [nodeSample 0 [], nodeSample 1 [], nodeSample 2 [1, 0]]), ("root", .int 2)]

theorem dump_lists_of_load_equalSample :
    (∃ t d number rule, load equalSample = .ok t ∧ t.dump = .ok d ∧ d.rules = [⟨"S", ["1"]⟩] ∧
      Lists t d number rule) ∧
    ∃ t kind, load compoundSample = .ok t ∧ t.dump = .error .object ∧ t.HasCompound ∧
      t.FirstCompound kind := by
  let node (tag : Nat) (symbol : Value) (parents : List Trace) : Trace :=
    ⟨tag, ⟨⟨.text "S", [symbol]⟩, 0⟩, parents⟩
  let first : Trace := node 0 (.int 1) []
  let second : Trace := node 1 (.bool true) [first]
  let equal : Trace := node 2 (.int 1) [second, first, second]
  let compound : Trace := node 2 .null [node 0 (.object []) [], node 1 (.list []) []]
  have hequal : load equalSample = .ok equal := by rfl
  have hcompound : load compoundSample = .ok compound := by rfl
  have hdump : equal.dump =
      .ok ⟨[⟨"S", ["1"]⟩], [⟨0, 0, [1, 2, 1]⟩, ⟨0, 0, [2]⟩, ⟨0, 0, []⟩], 0⟩ := by rfl
  have herror : compound.dump = .error .object := by rfl
  obtain ⟨hfails, -, hlists⟩ := dump_lists_of_load hequal
  obtain ⟨hfails', hfirst, -⟩ := dump_lists_of_load hcompound
  obtain ⟨d, hd, ⟨number, rule, lists⟩, -⟩ := hlists fun hhas => by
    obtain ⟨e, he⟩ := hfails.mpr hhas
    exact nomatch hdump.symm.trans he
  obtain ⟨kind, hkind, -⟩ := hfirst .object herror
  refine ⟨⟨equal, d, number, rule, hequal, hd, ?_, lists⟩,
    compound, kind, hcompound, herror, hfails'.mp ⟨_, herror⟩, hkind⟩
  obtain rfl := Except.ok.inj (hdump.symm.trans hd)
  rfl

end Trace

end GrammarConflict
