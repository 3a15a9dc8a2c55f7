import GrammarConflict.Proofs.Dump.Reload
import Mathlib.Data.List.Zip

/-!
# Dumps as a canonical form

A dump depends on the shape of a trace alone: isomorphic traces have one dump
(`Isomorphic.dump_eq_ok`).  If all rules are made of texts, nothing of the trace is lost either,
for a text is its own key and is written as it is: the trace that is read back from a dump is
isomorphic to the one written down (`exists_reload_isomorphic`).

So two traces from files of texts have one dump just when they are isomorphic, and a dump is read
and written again unchanged (`dump_eq_iff_isomorphic`).
-/

namespace GrammarConflict

/-! ### Rules of texts -/

theorem Rule.Face.face_rule (face : Rule.Face) : face.rule.face = face := by
  obtain ⟨nonterminal, symbols⟩ := face
  simp only [Rule.Face.rule, Rule.face, Value.shown, List.map_map, Rule.Face.mk.injEq, true_and]
  exact List.map_id symbols

theorem Rule.Face.key_rule (face : Rule.Face) :
    face.rule.key = .ok (.text face.nonterminal, face.symbols.map .text) := by
  refine Rule.key_eq_ok_iff.mpr ⟨rfl, ?_⟩
  rw [Rule.Face.rule, List.forall₂_map_left_iff, List.forall₂_map_right_iff, List.forall₂_same]
  exact fun _ _ => rfl

/-- The key of a rule of texts tells all of it. -/
theorem Rule.Face.eq_of_key_eq {face face' : Rule.Face} {key : Key × List Key}
    (h : face.rule.key = .ok key) (h' : face'.rule.key = .ok key) : face = face' := by
  obtain ⟨nonterminal, symbols⟩ := face
  obtain ⟨nonterminal', symbols'⟩ := face'
  rw [key_rule] at h h'
  have heq := h.trans h'.symm
  simp only [Except.ok.injEq, Prod.mk.injEq, Key.text.injEq] at heq
  obtain ⟨rfl, hsymbols⟩ := heq
  rw [List.map_injective_iff.mpr (fun _ _ => Key.text.inj) hsymbols]

/-- All nonterminals and symbols in the records of rules are texts. -/
def TextRules (data : Value) : Prop :=
  ∃ records, data.field? "productions" = some (.list records) ∧
    ∀ record ∈ records, ∃ face : Rule.Face, RuleRecord record face.rule

namespace Trace

variable {t u : Trace} {d : Dump}

/-- The rules that are reached are made of texts. -/
theorem exists_rule_eq_of_textRules {data : Value} (h : load data = .ok t) (texts : TextRules data)
    {s : Trace} (hs : t.Reaches s) : ∃ face : Rule.Face, s.item.rule = face.rule := by
  obtain ⟨ruleRecords, nodeRecords, root, node, file, represents⟩ := exists_represents_of_load h
  obtain ⟨records, hrecords, hfaces⟩ := texts
  obtain rfl := Value.list.inj (Option.some.inj (hrecords.symm.trans file.productions))
  obtain ⟨record, -, parents, hnode⟩ := represents.exists_record hs
  obtain ⟨k, -, ruleRecord, hget, hrule⟩ := hnode.production
  obtain ⟨face, hface⟩ := hfaces ruleRecord (List.mem_of_getElem? hget)
  exact ⟨face, hrule.unique hface⟩

/-! ### Isomorphic traces have one dump -/

theorem Isomorphic.dump_eq_ok (h : Isomorphic t u) (tagged : t.Tagged) (tagged' : u.Tagged)
    (hd : t.dump = .ok d) : u.dump = .ok d := by
  obtain ⟨f, h⟩ := h
  have hreaches (s : Trace) (hs : s ∈ t.nodes) : t.Reaches s := reaches_of_mem_nodes hs
  unfold dump at hd ⊢
  simp only [bind_eq_ok_iff, pure_eq_ok_iff] at hd ⊢
  obtain ⟨used, hmapM, rfl⟩ := hd
  -- Both are written from one list of rules, node by node, as the walks list the nodes alike.
  have hused := (List.forall₂_and_left _ _).mpr ⟨hreaches, mapM_ofRule_eq_ok_iff.mp hmapM⟩
  rw [h.nodes_eq tagged tagged']
  refine ⟨used, ?_, ?_⟩
  · rw [mapM_ofRule_eq_ok_iff, List.forall₂_map_left_iff]
    refine hused.imp fun s r ⟨hs, hrule⟩ => ?_
    rwa [← h.item s hs]
  · rw [Dump.mk.injEq]
    refine ⟨rfl, ?_, ?_⟩
    · rw [List.zipWith_map_left]
      refine List.zipWith_congr _ _ _ _ (hused.imp fun s r ⟨hs, _⟩ => ?_)
      rw [← h.item s hs, h.parents_eq s hs, List.map_map, Dump.Node.mk.injEq]
      refine ⟨rfl, rfl, List.map_congr_left fun p hp => ?_⟩
      exact h.numberIn_map tagged tagged' (hs.tail hp) hreaches
    · rw [← h.root_eq]
      exact h.numberIn_map tagged tagged' .refl hreaches

/-! ### What is read back -/

/-- **A trace of texts is read back** as it was written down, up to isomorphism. -/
theorem exists_reload_isomorphic {data : Value} (h : load data = .ok t) (texts : TextRules data) :
    ∃ d u, t.dump = .ok d ∧ load d.toValue = .ok u ∧ u.Tagged ∧ Isomorphic t u := by
  have tagged : t.Tagged := tagged_of_load h
  have hrule (s : Trace) (hs : t.Reaches s) : ∃ face : Rule.Face, s.item.rule = face.rule :=
    exists_rule_eq_of_textRules h texts hs
  obtain ⟨d, hd⟩ : ∃ d, t.dump = .ok d := exists_dump fun s hs => by
    obtain ⟨face, hface⟩ := hrule s hs
    exact ⟨_, hface ▸ face.key_rule⟩
  obtain ⟨u, f, hload, tagged', hf⟩ :=
    (written_of_dump hd).exists_load tagged fun s hs => valid_of_load h hs
  refine ⟨d, u, hd, hload, tagged', f, hf.mono fun s hs hback => ?_⟩
  -- The rule whose texts are read back has the key of the rule written down, and so is that rule.
  obtain ⟨hposition, s', key, hs', hkey, hkey', hrule'⟩ := hback
  obtain ⟨face, hface⟩ := hrule s hs
  obtain ⟨face', hface'⟩ := hrule s' hs'
  obtain rfl := Rule.Face.eq_of_key_eq (hface ▸ hkey) (hface' ▸ hkey')
  rw [hface', Rule.Face.face_rule, ← hface] at hrule'
  exact (congrArg₂ Item.mk hrule' hposition).symm

/-- **Dumps are a canonical form.**  Two traces from files of texts have one dump just when they are
isomorphic.  What is read back from a dump is isomorphic to what was written down, and is written
down as the same dump again. -/
theorem dump_eq_iff_isomorphic {a b : Value} {t u : Trace} (ha : load a = .ok t)
    (hb : load b = .ok u) (texts : TextRules a) (texts' : TextRules b) :
    ∃ d e, t.dump = .ok d ∧ u.dump = .ok e ∧
      (d = e ↔ Isomorphic t u) ∧ (d.toValue = e.toValue ↔ Isomorphic t u) ∧
      ∃ t', load d.toValue = .ok t' ∧ Isomorphic t t' ∧ t'.dump = .ok d := by
  have tagged : t.Tagged := tagged_of_load ha
  obtain ⟨d, t', hd, hload, tagged', hiso⟩ := exists_reload_isomorphic ha texts
  obtain ⟨e, u', he, hload', -, hiso'⟩ := exists_reload_isomorphic hb texts'
  have eq_of_isomorphic (h : Isomorphic t u) : d = e := by
    have hdump := h.dump_eq_ok tagged (tagged_of_load hb) hd
    exact Except.ok.inj (hdump.symm.trans he)
  -- One dump is read back as one trace, and both traces are isomorphic to that.
  have isomorphic_of_eq (h : d.toValue = e.toValue) : Isomorphic t u := by
    rw [h, hload'] at hload
    obtain rfl := Except.ok.inj hload
    exact hiso.trans hiso'.symm
  refine ⟨d, e, hd, he, ⟨fun h => isomorphic_of_eq (h ▸ rfl), eq_of_isomorphic⟩,
    ⟨isomorphic_of_eq, fun h => eq_of_isomorphic h ▸ rfl⟩, t', hload, hiso, ?_⟩
  exact hiso.dump_eq_ok tagged tagged' hd

/-- A node at the start of its rule. -/
def nodeSample (rule : Int) (parents : List Int) : Value :=
  .object [("production", .int rule), ("position", .int 0), ("parents", .list (parents.map .int))]

/-- The diamond of `diamondSample` with other numbers, and with one rule listed twice.  No node is
out of reach. -/
def renumberedSample : Value :=
  let nodes := [nodeSample 1 [], nodeSample 2 [0], nodeSample 1 [0], nodeSample 0 [1, 2, 1]]
  .object [("productions", .list (diamondRules.reverse ++ diamondRules.take 1)),
    ("nodes", .list nodes), ("root", .int 3)]

/-- The diamond with one node in the place of two that look the same. -/
def mergedSample : Value :=
  let nodes := [nodeSample 1 [1, 1, 1], nodeSample 0 [2], nodeSample 0 []]
  .object [("productions", .list diamondRules), ("nodes", .list nodes), ("root", .int 0)]

theorem dump_eq_iff_isomorphic_diamond :
    ∃ t u v, load diamondSample = .ok t ∧ load renumberedSample = .ok u ∧
      load mergedSample = .ok v ∧ Isomorphic t u ∧ ¬ Isomorphic t v := by
  have hrule : ∃ face : Rule.Face, RuleRecord (Dump.ruleValue ⟨"S", ["S"]⟩) face.rule :=
    ⟨_, Rule.Face.ruleRecord _⟩
  have hempty : ∃ face : Rule.Face, RuleRecord (Dump.ruleValue ⟨"S", []⟩) face.rule :=
    ⟨_, Rule.Face.ruleRecord _⟩
  have texts : TextRules diamondSample :=
    ⟨_, rfl, List.forall_mem_cons.mpr ⟨hrule, List.forall_mem_singleton.mpr hempty⟩⟩
  have texts_renumbered : TextRules renumberedSample :=
    ⟨_, rfl, List.forall_mem_cons.mpr
      ⟨hempty, List.forall_mem_cons.mpr ⟨hrule, List.forall_mem_singleton.mpr hrule⟩⟩⟩
  have texts_merged : TextRules mergedSample :=
    ⟨_, rfl, List.forall_mem_cons.mpr ⟨hrule, List.forall_mem_singleton.mpr hempty⟩⟩
  let node (tag : Nat) (parents : List Trace) : Trace :=
    ⟨tag, ⟨⟨.text "S", [.text "S"]⟩, 0⟩, parents⟩
  let root (tag : Nat) (parents : List Trace) : Trace :=
    ⟨tag, ⟨⟨.text "S", []⟩, 0⟩, parents⟩
  let top : Trace := node 0 []
  let diamond : Trace := root 3 [node 1 [top], node 2 [top], node 1 [top]]
  let merged : Trace := root 2 [node 1 [top], node 1 [top], node 1 [top]]
  have hdiamond : load diamondSample = .ok diamond := by rfl
  have hrenumbered : load renumberedSample = .ok diamond := by rfl
  have hmerged : load mergedSample = .ok merged := by rfl
  obtain ⟨d, e, hd, he, hsame, _⟩ :=
    dump_eq_iff_isomorphic hdiamond hrenumbered texts texts_renumbered
  obtain ⟨d', e', hd', he', hother, _⟩ :=
    dump_eq_iff_isomorphic hdiamond hmerged texts texts_merged
  refine ⟨diamond, diamond, merged, hdiamond, hrenumbered, hmerged, ?_, ?_⟩
  · exact hsame.mp (Except.ok.inj (hd.symm.trans he))
  · intro hiso
    have hnodes : d'.nodes.length = e'.nodes.length := by rw [hother.mpr hiso]
    have hlength : d'.nodes.length = 4 := by
      rw [(written_of_dump hd').length_eq]
      rfl
    have hlength' : e'.nodes.length = 3 := by
      rw [(written_of_dump he').length_eq]
      rfl
    omega

end Trace

end GrammarConflict
