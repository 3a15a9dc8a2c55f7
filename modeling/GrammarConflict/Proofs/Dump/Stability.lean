import GrammarConflict.Proofs.Dump.Numbering
import Mathlib.Order.WellFounded

/-!
# Dumping again

A dump has rules once that are equal, but it writes them as texts, and rules that differ can show
the same.  What is loaded from a dump is made of texts, which are told apart by what they show; when
it is written down, rules that show the same become one.  So dumping again gives the dump with its
rules listed without repetitions and the nodes as before, but for the numbers of their rules
(`Dump.merged`, `exists_reload_merged`).

So a dump is stable when it lists no texts twice.  As it lists the first of all rules that are
equal, no two of these may show the same (`dump_stable_iff`).  The dump of the reloaded trace is
always stable.
-/

namespace GrammarConflict

/-! ### A dump as a file -/

namespace Dump

theorem ruleValue_injective : Function.Injective ruleValue := by
  rintro ⟨nonterminal, symbols⟩ ⟨nonterminal', symbols'⟩ h
  simp only [ruleValue, Value.object.injEq, List.cons.injEq, Prod.mk.injEq, true_and, and_true,
    Value.text.injEq, Value.list.injEq] at h
  obtain ⟨rfl, hsymbols⟩ := h
  rw [List.map_injective_iff.mpr (fun _ _ => Value.text.inj) hsymbols]

theorem nodeValue_injective : Function.Injective nodeValue := by
  rintro ⟨rule, position, parents⟩ ⟨rule', position', parents'⟩ h
  simp only [nodeValue, Value.object.injEq, List.cons.injEq, Prod.mk.injEq, true_and, and_true,
    Value.int.injEq, Int.natCast_inj, Value.list.injEq] at h
  obtain ⟨rfl, rfl, hparents⟩ := h
  have hinj : Function.Injective fun (i : Nat) => Value.int i := fun _ _ heq =>
    Int.natCast_inj.mp (Value.int.inj heq)
  rw [List.map_injective_iff.mpr hinj hparents]

/-- A trace file is written for one dump only. -/
theorem toValue_injective : Function.Injective toValue := by
  rintro ⟨rules, nodes, root⟩ ⟨rules', nodes', root'⟩ h
  simp only [toValue, Value.object.injEq, List.cons.injEq, Prod.mk.injEq, true_and, and_true,
    Value.int.injEq, Int.natCast_inj, Value.list.injEq] at h
  obtain ⟨hrules, hnodes, rfl⟩ := h
  rw [List.map_injective_iff.mpr ruleValue_injective hrules,
    List.map_injective_iff.mpr nodeValue_injective hnodes]

/-! ### A dump without repetitions -/

/-- The number that a rule has in the list without repetitions. -/
def mergedNumber (d : Dump) (i : Nat) : Nat :=
  d.rules.eraseDups.idxOf (d.rules.getD i ⟨"", []⟩)

/-- The dump with its rules listed without repetitions. -/
def merged (d : Dump) : Dump where
  rules := d.rules.eraseDups
  nodes := d.nodes.map fun node => { node with rule := d.mergedNumber node.rule }
  root := d.root

/-- Nothing is merged just when no rule is listed twice. -/
theorem merged_eq_self_iff {d : Dump} (hrule : ∀ node ∈ d.nodes, node.rule < d.rules.length) :
    d.merged = d ↔ d.rules.Nodup := by
  constructor
  · intro h
    have hrules : d.rules.eraseDups = d.rules := congrArg rules h
    exact hrules ▸ nodup_eraseDups d.rules
  · intro hnodup
    have hrules : d.rules.eraseDups = d.rules := eraseDups_eq_self hnodup
    have hnumber (i : Nat) (hi : i < d.rules.length) : d.mergedNumber i = i := by
      rw [mergedNumber, hrules, List.getD_eq_getElem?_getD, List.getElem?_eq_getElem hi,
        Option.getD_some, hnodup.idxOf_getElem]
    have hnodes : (d.nodes.map fun node => { node with rule := d.mergedNumber node.rule }) =
        d.nodes := by
      refine (List.map_congr_left fun node hnode => ?_).trans (List.map_id _)
      rw [hnumber _ (hrule node hnode)]
      rfl
    rw [merged, hrules, hnodes]

end Dump

/-! ### Rules of texts -/

/-- The key of a rule of texts. -/
def Rule.Face.key (face : Rule.Face) : Key × List Key :=
  (.text face.nonterminal, face.symbols.map .text)

/-- Texts that differ have different keys. -/
theorem Rule.Face.key_injective : Function.Injective Rule.Face.key :=
  fun face face' h => eq_of_key_eq (key_rule face) ((key_rule face').trans (congrArg _ h.symm))

namespace KeyedRule

theorem mem_of_mem_distinct {rules : List KeyedRule} {r : KeyedRule} (h : r ∈ distinct rules) :
    r ∈ rules := by
  induction rules with
  | nil => exact h
  | cons r' rest ih =>
    rw [distinct, List.mem_cons, List.mem_filter] at h
    exact List.mem_cons.mpr (h.imp_right fun h => ih h.1)

/-- Rules with the keys of their texts are distinct when their texts are. -/
theorem map_face_distinct {rules : List KeyedRule} (h : ∀ r ∈ rules, r.rule.face.key = r.key) :
    (distinct rules).map (·.rule.face) = (rules.map (·.rule.face)).eraseDups := by
  have hkeys {rs : List KeyedRule} (hrs : ∀ r ∈ rs, r ∈ rules) :
      (rs.map (·.rule.face)).map Rule.Face.key = rs.map key := by
    rw [List.map_map]
    exact List.map_congr_left fun r hr => h r (hrs r hr)
  apply List.map_injective_iff.mpr Rule.Face.key_injective
  rw [hkeys fun r => mem_of_mem_distinct, map_key_distinct, ← hkeys fun _ => id, eraseDups_map]
  exact fun _ _ _ _ heq => Rule.Face.key_injective heq

end KeyedRule

namespace Trace

variable {t u : Trace} {d : Dump}

/-- What the rules of the traces that are reached show. -/
def faces (t : Trace) : List Rule.Face :=
  t.nodes.map (·.item.rule.face)

/-- **A trace of texts** is written down with its rules numbered by what they show. -/
theorem dump_eq_ok_of_faces (tagged : t.Tagged)
    (texts : ∀ s, t.Reaches s → ∃ face : Rule.Face, s.item.rule = face.rule) :
    t.dump = .ok
      { rules := t.faces.eraseDups
        nodes := t.nodes.map fun s =>
          ⟨t.faces.eraseDups.idxOf s.item.rule.face, s.item.position,
            s.parents.map (numberIn t.nodes)⟩
        root := 0 } := by
  let key (s : Trace) : Key × List Key := s.item.rule.face.key
  have hkey (s : Trace) (hs : t.Reaches s) : s.item.rule.key = .ok (key s) := by
    obtain ⟨face, hface⟩ := texts s hs
    simp only [key, hface, Rule.Face.face_rule, Rule.Face.key_rule]
    rfl
  have hkeys : (t.nodes.map key).eraseDups = t.faces.eraseDups.map Rule.Face.key := by
    rw [← eraseDups_map fun _ _ _ _ heq => Rule.Face.key_injective heq, faces, List.map_map]
    rfl
  have hrules : (KeyedRule.distinct (t.used key)).map (·.rule.face) = t.faces.eraseDups := by
    rw [KeyedRule.map_face_distinct, used, List.map_map]
    · rfl
    · exact List.forall_mem_map.mpr fun _ _ => rfl
  simp only [dump_eq_ok tagged hkey, hrules, hkeys, key, idxOf_map Rule.Face.key_injective]

/-! ### What is loaded from a dump -/

/-- The trace is what the node of the dump is read as, among the traces that `u` reaches. -/
structure ReadAs (d : Dump) (u : Trace) (node : Dump.Node) (s : Trace) : Prop where
  rule : ∃ face, d.rules[node.rule]? = some face ∧ s.item.rule = face.rule
  position : s.item.position = node.position
  parents : s.parents.map (numberIn u.nodes) = node.parents

/-- The traces that are loaded are read from the nodes of the dump, one from each in their order. -/
theorem exists_load_readAs (tagged : t.Tagged) (valid : ∀ s, t.Reaches s → s.item.Valid)
    (hd : t.dump = .ok d) :
    ∃ u, load d.toValue = .ok u ∧ u.Tagged ∧ List.Forall₂ (ReadAs d u) d.nodes u.nodes := by
  have written : Written t d := written_of_dump hd
  obtain ⟨u, f, hload, tagged', hf, hitem⟩ := written.exists_load_itemAt tagged valid
  have hnodes : u.nodes = t.nodes.map f := hf.nodes_eq tagged tagged'
  refine ⟨u, hload, tagged', ?_⟩
  rw [hnodes, List.forall₂_map_right_iff, List.forall₂_iff_get]
  refine ⟨written.length_eq, fun i hi hi' => ?_⟩
  rw [List.get_eq_getElem, List.get_eq_getElem]
  generalize hs : t.nodes[i] = s
  have hget : t.nodes[i]? = some s := hs ▸ List.getElem?_eq_getElem hi'
  have hreach : t.Reaches s := reaches_of_mem_nodes (List.mem_of_getElem? hget)
  have hnumber : numberIn t.nodes s = i := numberIn_nodes_of_getElem? hget
  obtain ⟨node, -, hnode, -, -, -, -, hparents⟩ := written.record i s hget
  obtain ⟨node', face, hnode', hface, heq⟩ := hitem s hreach
  rw [hnumber, hnode] at hnode'
  obtain rfl := Option.some.inj hnode'
  obtain rfl := Option.some.inj (hnode.symm.trans (List.getElem?_eq_getElem hi))
  refine ⟨⟨face, hface, by rw [heq]⟩, by rw [heq], ?_⟩
  rw [hf.parents_eq s hreach, List.map_map, hparents, hnodes]
  refine List.map_congr_left fun p hp => ?_
  exact hf.numberIn_map tagged tagged' (hreach.tail hp) fun x => reaches_of_mem_nodes

/-- The rules that are loaded are those of the dump, each with texts once. -/
theorem faces_eq (hused : (d.nodes.map Dump.Node.rule).eraseDups = List.range d.rules.length)
    (h : List.Forall₂ (ReadAs d u) d.nodes u.nodes) : u.faces.eraseDups = d.rules.eraseDups := by
  have hfaces : (d.nodes.map Dump.Node.rule).map (d.rules.getD · ⟨"", []⟩) = u.faces := by
    rw [faces, ← List.forall₂_eq_eq_eq, List.map_map, List.forall₂_map_left_iff,
      List.forall₂_map_right_iff]
    refine h.imp fun node s hread => ?_
    obtain ⟨face, hface, hrule⟩ := hread.rule
    rw [Function.comp_apply, List.getD_eq_getElem?_getD, hface, hrule, Rule.Face.face_rule]
    rfl
  have hall : (List.range d.rules.length).map (d.rules.getD · ⟨"", []⟩) = d.rules := by
    refine List.ext_getElem (by simp) fun i hi hi' => ?_
    rw [List.getElem_map, List.getElem_range, List.getD_eq_getElem?_getD,
      List.getElem?_eq_getElem hi', Option.getD_some]
  rw [← hfaces, ← eraseDups_map_eraseDups, hused, hall]

/-- **Dumping again** merges the rules that show the same. -/
theorem exists_reload_merged (tagged : t.Tagged) (valid : ∀ s, t.Reaches s → s.item.Valid)
    (hd : t.dump = .ok d) :
    ∃ u, load d.toValue = .ok u ∧ u.dump = .ok d.merged := by
  obtain ⟨u, hload, tagged', hread⟩ := exists_load_readAs tagged valid hd
  obtain ⟨_, _, lists⟩ := exists_lists tagged hd
  have hfaces := faces_eq lists.rules_used hread
  have texts (s : Trace) (hs : u.Reaches s) : ∃ face : Rule.Face, s.item.rule = face.rule := by
    obtain ⟨i, hi, rfl⟩ := List.getElem_of_mem (tagged'.mem_nodes_iff.mpr hs)
    obtain ⟨face, -, hrule⟩ := (hread.get (hread.length_eq ▸ hi) hi).rule
    exact ⟨face, hrule⟩
  refine ⟨u, hload, ?_⟩
  rw [dump_eq_ok_of_faces tagged' texts, hfaces, Except.ok.injEq, Dump.merged, Dump.mk.injEq]
  refine ⟨rfl, ?_, lists.root_eq.symm⟩
  rw [← List.forall₂_eq_eq_eq, List.forall₂_map_left_iff, List.forall₂_map_right_iff]
  refine hread.flip.imp fun s node hread => ?_
  obtain ⟨face, hface, hrule⟩ := hread.rule
  rw [hread.position, hread.parents, Dump.mergedNumber, List.getD_eq_getElem?_getD, hface, hrule,
    Rule.Face.face_rule]
  rfl

/-! ### The first of equal rules -/

/-- Of the traces that are reached with equal rules, this one is visited first. -/
structure FirstOfKey (t s : Trace) : Prop where
  reaches : t.Reaches s
  first : ∀ s', t.Reaches s' → s'.item.rule.key = s.item.rule.key →
    t.firstVisit s ≤ t.firstVisit s'

/-- The first of equal rules never show the same. -/
def FirstsDiffer (t : Trace) : Prop :=
  ∀ s s', t.FirstOfKey s → t.FirstOfKey s' → s.item.rule.face = s'.item.rule.face → s = s'

namespace Lists

variable {number rule : Trace → Nat}

theorem number_le (lists : Lists t d number rule) {s s' : Trace} (hs : t.Reaches s)
    (hs' : t.Reaches s') (h : t.firstVisit s ≤ t.firstVisit s') : number s ≤ number s' := by
  have hlt := lists.ordered s' s hs' hs
  omega

/-- The first of equal rules is written down. -/
theorem face_of_firstOfKey (lists : Lists t d number rule) {s : Trace} (h : t.FirstOfKey s) :
    d.rules[rule s]? = some s.item.rule.face := by
  refine lists.rule_face s h.reaches fun s' hs' heq => ?_
  have hkey := (lists.rule_eq_iff s' s hs' h.reaches).mp heq
  exact lists.number_le h.reaches hs' (h.first s' hs' hkey)

/-- Only one rule is the first of those that equal it. -/
theorem eq_of_rule_eq (lists : Lists t d number rule) {s s' : Trace} (h : t.FirstOfKey s)
    (h' : t.FirstOfKey s') (heq : rule s = rule s') : s = s' := by
  have hkey := (lists.rule_eq_iff s s' h.reaches h'.reaches).mp heq
  apply lists.bijOn.injOn h.reaches h'.reaches
  apply Nat.le_antisymm
  · exact lists.number_le h.reaches h'.reaches (h.first s' h'.reaches hkey.symm)
  · exact lists.number_le h'.reaches h.reaches (h'.first s h.reaches hkey)

/-- Every number of a rule is that of a first one. -/
theorem exists_firstOfKey (lists : Lists t d number rule) {i : Nat} (hi : i < d.rules.length) :
    ∃ s, t.FirstOfKey s ∧ rule s = i := by
  obtain ⟨node, hnode, rfl⟩ : ∃ node ∈ d.nodes, node.rule = i := by
    rw [← List.mem_map, ← List.mem_eraseDups, lists.rules_used, List.mem_range]
    exact hi
  obtain ⟨j, hj, rfl⟩ := List.getElem_of_mem hnode
  obtain ⟨s, hs, rfl⟩ := lists.bijOn.surjOn hj
  have hrule : d.nodes[number s].rule = rule s := by
    rw [(List.getElem?_eq_some_iff.mp (lists.record s hs)).2]
  obtain ⟨first, ⟨hreach, hkey⟩, hmin⟩ := (measure t.firstVisit).wf.has_min
    {s' | t.Reaches s' ∧ s'.item.rule.key = s.item.rule.key} ⟨s, hs, rfl⟩
  refine ⟨first, ⟨hreach, fun s' hs' hkey' => ?_⟩, ?_⟩
  · exact Nat.le_of_not_lt (hmin s' ⟨hs', hkey'.trans hkey⟩)
  · rw [hrule]
    exact (lists.rule_eq_iff first s hreach hs).mpr hkey

/-- No texts are listed twice just when the first of equal rules show different things. -/
theorem nodup_rules_iff (lists : Lists t d number rule) : d.rules.Nodup ↔ t.FirstsDiffer := by
  constructor
  · intro hnodup s s' h h' hface
    have hs := lists.face_of_firstOfKey h
    have hs' := lists.face_of_firstOfKey h'
    have hlt : rule s < d.rules.length := (List.getElem?_eq_some_iff.mp hs).1
    apply lists.eq_of_rule_eq h h'
    rw [← List.getElem?_inj hlt hnodup, hs, hs', hface]
  · intro differ
    rw [List.nodup_iff_getElem?_ne_getElem?]
    intro i j hij hj heq
    obtain ⟨s, hs, rfl⟩ := lists.exists_firstOfKey (Nat.lt_trans hij hj)
    obtain ⟨s', hs', rfl⟩ := lists.exists_firstOfKey hj
    rw [lists.face_of_firstOfKey hs, lists.face_of_firstOfKey hs', Option.some.injEq] at heq
    obtain rfl := differ s s' hs hs' heq
    exact Nat.lt_irrefl _ hij

end Lists

/-- The rules of the nodes in a dump are listed. -/
theorem rule_lt_of_dump (tagged : t.Tagged) (hd : t.dump = .ok d) :
    ∀ node ∈ d.nodes, node.rule < d.rules.length := by
  intro node hnode
  obtain ⟨_, _, lists⟩ := exists_lists tagged hd
  rw [← List.mem_range, ← lists.rules_used, List.mem_eraseDups]
  exact List.mem_map_of_mem hnode

/-! ### Stability -/

/-- **Dumping again.**  A dump is read and written again unchanged just when, of the rules that are
reached, the first ones of those that are equal never show the same.  In any case the nodes are
written again as they were, but for the numbers of their rules, and from then on nothing changes. -/
theorem dump_stable_iff {data : Value} (h : load data = .ok t) (hd : t.dump = .ok d) :
    ∃ u d₂, load d.toValue = .ok u ∧ u.dump = .ok d₂ ∧
      (d₂ = d ↔ t.FirstsDiffer) ∧ (d₂.toValue = d.toValue ↔ t.FirstsDiffer) ∧
      (d.isStable = true ↔ t.FirstsDiffer) ∧
      (∃ number : Nat → Nat,
        d₂.nodes = d.nodes.map fun node => { node with rule := number node.rule }) ∧
      d₂.root = d.root ∧
      ∃ u₂, load d₂.toValue = .ok u₂ ∧ u₂.dump = .ok d₂ ∧ d₂.isStable = true := by
  have tagged : t.Tagged := tagged_of_load h
  obtain ⟨u, hload, hdump⟩ := exists_reload_merged tagged (fun s hs => valid_of_load h hs) hd
  have tagged' : u.Tagged := tagged_of_load hload
  obtain ⟨u₂, hload₂, hdump₂⟩ :=
    exists_reload_merged tagged' (fun s hs => valid_of_load hload hs) hdump
  obtain ⟨_, _, lists⟩ := exists_lists tagged hd
  have hstable : d.merged = d ↔ t.FirstsDiffer := by
    rw [Dump.merged_eq_self_iff (rule_lt_of_dump tagged hd), lists.nodup_rules_iff]
  have hmerged : d.merged.merged = d.merged :=
    (Dump.merged_eq_self_iff (rule_lt_of_dump tagged' hdump)).mpr (nodup_eraseDups d.rules)
  have isStable_iff {d : Dump} {u : Trace} (hload : load d.toValue = .ok u)
      (hdump : u.dump = .ok d.merged) : d.isStable = true ↔ d.merged = d := by
    simp only [Dump.isStable, hload, hdump, decide_eq_true_eq]
  refine ⟨u, d.merged, hload, hdump, hstable, ?_, ?_, ⟨d.mergedNumber, rfl⟩, rfl,
    u₂, hload₂, ?_, ?_⟩
  · rw [Dump.toValue_injective.eq_iff, hstable]
  · rw [isStable_iff hload hdump, hstable]
  · rw [hdump₂, hmerged]
  · rw [isStable_iff hload₂ hdump₂, hmerged]

/-- A rule with a number, one with the text of that number, and the first again. -/
def sameTextSample : Value :=
  let rule (symbol : Value) : Value :=
    .object [("nonterminal", .text "S"), ("symbols", .list [symbol])]
  .object [("productions", .list [rule (.int 1), rule (.text "1")]),
    ("nodes", .list [nodeSample 0 [], nodeSample 1 [0], nodeSample 0 [1, 0]]), ("root", .int 2)]

theorem dump_stable_iff_sameTextSample :
    (∃ t d u d₂, load sameTextSample = .ok t ∧ t.dump = .ok d ∧ load d.toValue = .ok u ∧
      u.dump = .ok d₂ ∧ d.rules = [⟨"S", ["1"]⟩, ⟨"S", ["1"]⟩] ∧ ¬ t.FirstsDiffer ∧ d₂ ≠ d ∧
      d₂.isStable = true) ∧
    ∃ t d, load equalSample = .ok t ∧ t.dump = .ok d ∧ t.FirstsDiffer ∧ d.isStable = true := by
  let node (tag : Nat) (symbol : Value) (parents : List Trace) : Trace :=
    ⟨tag, ⟨⟨.text "S", [symbol]⟩, 0⟩, parents⟩
  let first : Trace := node 0 (.int 1) []
  let second : Trace := node 1 (.text "1") [first]
  let sameText : Trace := node 2 (.int 1) [second, first]
  let second' : Trace := node 1 (.bool true) [first]
  let equal : Trace := node 2 (.int 1) [second', first, second']
  let d : Dump := ⟨[⟨"S", ["1"]⟩, ⟨"S", ["1"]⟩],
    [⟨0, 0, [1, 2]⟩, ⟨1, 0, [2]⟩, ⟨0, 0, []⟩], 0⟩
  let d' : Dump := ⟨[⟨"S", ["1"]⟩], [⟨0, 0, [1, 2, 1]⟩, ⟨0, 0, [2]⟩, ⟨0, 0, []⟩], 0⟩
  have hsameText : load sameTextSample = .ok sameText := by rfl
  have hequal : load equalSample = .ok equal := by rfl
  have hdump : sameText.dump = .ok d := by rfl
  have hdump' : equal.dump = .ok d' := by rfl
  have hunstable : d.isStable = false := by decide +kernel
  have hstable : d'.isStable = true := by decide +kernel
  obtain ⟨u, d₂, hload, hdump₂, hiff, -, hisStable, -, -, _, -, -, hstable₂⟩ :=
    dump_stable_iff hsameText hdump
  obtain ⟨_, _, -, -, -, -, hisStable', -⟩ := dump_stable_iff hequal hdump'
  have differ : ¬ sameText.FirstsDiffer := fun h => by
    rw [hisStable.mpr h] at hunstable
    cases hunstable
  exact ⟨⟨sameText, d, u, d₂, hsameText, hdump, hload, hdump₂, rfl, differ, mt hiff.mp differ,
    hstable₂⟩, equal, d', hequal, hdump', hisStable'.mp hstable, hstable⟩

end Trace

end GrammarConflict
