import GrammarConflict.Proofs.Dump.Canonical
import GrammarConflict.Proofs.Explanation.Plain

/-!
# What a dump keeps of an explanation

A dump writes the text of each value down, and an explanation shows no more than that.  But a dump
has one rule for all that have the same key, and the key of a value is not its text: the number `1`
has the key of a truth value, and a list has no key.  So a trace is written down just when each rule
that is reached has a key, what is written down is always loaded again, and it is explained as
before if rules with the same key show the same (`explain_reload`).
-/

namespace GrammarConflict

/-- A plain rule is made of what the rule shows. -/
theorem Rule.rule_face (rule : Rule) : rule.face.rule = rule.plain := by
  rw [face, Face.rule, plain, List.map_map]
  rfl

theorem Rule.plain_eq_of_face_eq {rule rule' : Rule} (h : rule.face = rule'.face) :
    rule.plain = rule'.plain := by
  rw [← rule_face, h, rule_face]

theorem Rule.plain_rule_face (rule : Rule) : rule.face.rule.plain = rule.plain :=
  plain_eq_of_face_eq (Face.face_rule rule.face)

namespace Trace

variable {t u : Trace}

/-- Rules that are reached show the same if they have the same key. -/
def ShowsByKey (t : Trace) : Prop :=
  ∀ s s', t.Reaches s → t.Reaches s' → s.item.rule.key = s'.item.rule.key →
    s.item.rule.face = s'.item.rule.face

/-- An item that is read back looks like the one that was written down. -/
theorem ReadBack.plain_eq (shows : t.ShowsByKey) {s : Trace} (hs : t.Reaches s) {item' : Item}
    (h : t.ReadBack s.item item') : s.item.plain = item'.plain := by
  obtain ⟨hposition, s', key, hs', hkey, hkey', hrule'⟩ := h
  have hface : s.item.rule.face = s'.item.rule.face := shows s s' hs hs' (hkey.trans hkey'.symm)
  rw [Item.plain, Item.plain, hposition, hrule', Rule.plain_rule_face,
    Rule.plain_eq_of_face_eq hface]

/-- The histories of a trace that is read back look like those of the one written down. -/
theorem Corresponds.histories_plain_eq {f : Trace → Trace} (h : Corresponds t.ReadBack t u f)
    (shows : t.ShowsByKey) :
    t.histories.map History.plain = u.histories.map History.plain := by
  -- The trace is followed in the one that is read back along the correspondence.
  let R (s s' : Trace) : Prop := t.Reaches s ∧ s' = f s
  have hitem : ∀ s s', R s s' → s.item.plain = s'.item.plain := by
    rintro s _ ⟨hs, rfl⟩
    exact (h.item s hs).plain_eq shows hs
  have hparents : ∀ s s', R s s' → List.Forall₂ R s.parents s'.parents := by
    rintro s _ ⟨hs, rfl⟩
    rw [h.parents_eq s hs, List.forall₂_map_right_iff, List.forall₂_same]
    exact fun p hp => ⟨hs.tail hp, rfl⟩
  exact Trace.histories_plain_eq hitem hparents t u ⟨.refl, h.root_eq.symm⟩

/-- **What a dump keeps.**  A trace from a file is written down just when each rule that is reached
has a key.  The dump is loaded again, and if rules with the same key show the same, then every
request that the trace can be explained for gives the same text for what is loaded. -/
theorem explain_reload {data : Value} (h : load data = .ok t) :
    ((∃ d, t.dump = .ok d) ↔ ∀ s, t.Reaches s → ∃ key, s.item.rule.key = .ok key) ∧
    ∀ d, t.dump = .ok d → ∃ u, load d.toValue = .ok u ∧
      (t.ShowsByKey → ∀ request,
        (∃ error, t.explain request = .error error ∧ u.explain request = .error error) ∨
        ∃ e e' text, t.explain request = .ok e ∧ u.explain request = .ok e' ∧
          e.text = .ok text ∧ e'.text = .ok text) := by
  have tagged : t.Tagged := tagged_of_load h
  refine ⟨exists_dump_iff tagged, ?_⟩
  intro d hd
  obtain ⟨u, f, hload, _, hf⟩ :=
    (written_of_dump hd).exists_load tagged fun s hs => valid_of_load h hs
  refine ⟨u, hload, ?_⟩
  intro shows request
  rcases explain_alike (hf.histories_plain_eq shows) request with herror | hok
  · exact .inl herror
  · obtain ⟨e, e', he, he', halike, text, htext⟩ := hok
    exact .inr ⟨e, e', text, he, he', htext, halike.text_eq ▸ htext⟩

/-- A rule of a missing value, a number and a truth value, and one of a text and a missing value. -/
def mixedSample : Value :=
  let number : Value := .object [("nonterminal", .null), ("symbols", .list [.int 1, .bool true])]
  let text : Value := .object [("nonterminal", .text "S"), ("symbols", .list [.null])]
  .object [("productions", .list [number, text]),
    ("nodes", .list [nodeSample 1 [], nodeSample 0 [0]]), ("root", .int 1)]

/-- A rule with a list among its symbols. -/
def listSample : Value :=
  let rule : Value := .object [("nonterminal", .text "S"), ("symbols", .list [.list [.text "a"]])]
  .object [("productions", .list [rule]), ("nodes", .list [nodeSample 0 []]), ("root", .int 0)]

theorem explain_reload_mixedSample :
    (∃ t d u e e' text, load mixedSample = .ok t ∧ t.dump = .ok d ∧ load d.toValue = .ok u ∧
      t.explain {} = .ok e ∧ u.explain {} = .ok e' ∧ e.text = .ok text ∧ e'.text = .ok text) ∧
    ∃ t, load listSample = .ok t ∧ ¬ ∃ d, t.dump = .ok d := by
  let leaf : Trace := ⟨0, ⟨⟨.text "S", [.null]⟩, 0⟩, []⟩
  let mixed : Trace := ⟨1, ⟨⟨.null, [.int 1, .bool true]⟩, 0⟩, [leaf]⟩
  let list : Trace := ⟨0, ⟨⟨.text "S", [.list [.text "a"]]⟩, 0⟩, []⟩
  have hmixed : load mixedSample = .ok mixed := by rfl
  have hlist : load listSample = .ok list := by rfl
  have hreaches : ∀ s, mixed.Reaches s → s = mixed ∨ s = leaf := by
    refine forall_reaches_iff.mpr ⟨.inl rfl, List.forall_mem_singleton.mpr ?_⟩
    exact forall_reaches_iff.mpr ⟨.inr rfl, List.forall_mem_nil _⟩
  have hkeys : mixed.item.rule.key ≠ leaf.item.rule.key := by
    intro h
    exact nomatch congrArg Prod.fst (Except.ok.inj h)
  have shows : mixed.ShowsByKey := by
    intro s s' hs hs' hkey
    rcases hreaches s hs with rfl | rfl <;> rcases hreaches s' hs' with rfl | rfl
    · rfl
    · exact absurd hkey hkeys
    · exact absurd hkey.symm hkeys
    · rfl
  have hexplained : mixed.explain {} = .ok _ := explain_of_limit (by decide) (by decide)
  obtain ⟨hdump, hreload⟩ := explain_reload hmixed
  obtain ⟨d, hd⟩ := hdump.mpr fun s hs => by
    rcases hreaches s hs with rfl | rfl
    · exact ⟨_, rfl⟩
    · exact ⟨_, rfl⟩
  obtain ⟨u, hload, hsame⟩ := hreload d hd
  refine ⟨?_, list, hlist, ?_⟩
  · rcases hsame shows {} with ⟨error, herror, _⟩ | ⟨e, e', text, he, he', htext, htext'⟩
    · exact nomatch hexplained.symm.trans herror
    · exact ⟨mixed, d, u, e, e', text, hmixed, hd, hload, he, he', htext, htext'⟩
  · intro hsome
    obtain ⟨key, hkey⟩ := (explain_reload hlist).1.mp hsome list .refl
    exact nomatch hkey

end Trace

end GrammarConflict
