import GrammarConflict.Proofs.Example.Plain
import GrammarConflict.Proofs.Explanation.Limit

/-!
# Explanations that read the same

An explanation is made from the first histories of a trace, and of these only texts are shown.  So
two traces have explanations that read the same as soon as their histories are the same when made
plain (`Trace.explain_alike`), and this is so when one trace can be followed in the other, item by
item and parent by parent (`Trace.histories_plain_eq`).

Nothing goes wrong on the way: every history has a diagram, so every explanation of a trace has a
text.
-/

namespace GrammarConflict

namespace History

theorem exists_laid (h : History) : ∃ P, h.unwind.Laid P :=
  Example.exists_laid h.within_unwind

theorem diagram_plain (h : History) : h.plain.unwind.diagram = h.unwind.diagram := by
  obtain ⟨P, laid⟩ := h.exists_laid
  rw [unwind_plain, laid.diagram_plain]

theorem plain_followedBy (h : History) (items : List Item) :
    (h.followedBy items).plain = h.plain.followedBy (items.map .plain) := by
  rw [followedBy, plain, List.map_append]
  rfl

end History

namespace Explanation

/-! ### The lines for histories -/

theorem exampleLines_plain (number : Nat) (h : History) :
    exampleLines number h.plain.unwind = exampleLines number h.unwind := by
  rw [exampleLines, exampleLines, h.diagram_plain, History.unwind_plain, Example.line_plain]

theorem examplesLines_plain (number : Nat) (hs : List History) :
    examplesLines number ((hs.map History.plain).map History.unwind) =
      examplesLines number (hs.map History.unwind) := by
  induction hs generalizing number with
  | nil => rfl
  | cons h hs ih =>
    simp only [List.map_cons, examplesLines, exampleLines_plain, ih]

theorem exists_examplesLines (number : Nat) (hs : List History) :
    ∃ lines, examplesLines number (hs.map History.unwind) = .ok lines := by
  induction hs generalizing number with
  | nil => exact ⟨[], rfl⟩
  | cons h hs ih =>
    obtain ⟨others, hothers⟩ := ih (number + 1)
    obtain ⟨P, laid⟩ := h.exists_laid
    rw [List.map_cons, examplesLines, exampleLines, laid.diagram_eq_ok, hothers]
    exact ⟨_, rfl⟩

/-! ### Explanations of histories -/

/-- Two explanations read the same. -/
structure Alike (e e' : Explanation) : Prop where
  path_eq : e.path = e'.path
  truncated_eq : e.truncated = e'.truncated
  length_eq : e.examples.length = e'.examples.length
  text_eq : e.text = e'.text

namespace Alike

variable {e e' e'' : Explanation}

theorem symm (h : e.Alike e') : e'.Alike e :=
  ⟨h.path_eq.symm, h.truncated_eq.symm, h.length_eq.symm, h.text_eq.symm⟩

theorem trans (h : e.Alike e') (h' : e'.Alike e'') : e.Alike e'' :=
  ⟨h.path_eq.trans h'.path_eq, h.truncated_eq.trans h'.truncated_eq,
    h.length_eq.trans h'.length_eq, h.text_eq.trans h'.text_eq⟩

end Alike

/-- The text of an explanation depends on its examples through their lines, their number, and what
is read before the conflict. -/
theorem text_congr {e e' : Explanation} (hpath : e.path = e'.path)
    (htruncated : e.truncated = e'.truncated) (hlookahead : e.lookahead = e'.lookahead)
    (hdescription : e.description = e'.description)
    (hlength : e.examples.length = e'.examples.length)
    (hlines : examplesLines 1 e.examples = examplesLines 1 e'.examples) : e.text = e'.text := by
  have hheader : e.header = e'.header := by
    unfold header
    rw [hpath, hlookahead, hdescription]
  rw [text, text, lines, lines, hlines, htruncated, hlength, hheader]

section

variable (hs hs' : List History) (truncated : Bool) (lookahead description : Option String)

theorem exists_text :
    ∃ text, (Explanation.mk (hs.map History.unwind) truncated lookahead description).text =
      .ok text := by
  obtain ⟨lines, hlines⟩ := exists_examplesLines 1 hs
  rw [text, Explanation.lines, hlines]
  exact ⟨_, rfl⟩

theorem alike_plain :
    Alike ⟨hs.map History.unwind, truncated, lookahead, description⟩
      ⟨(hs.map History.plain).map History.unwind, truncated, lookahead, description⟩ := by
  have hpath : (Explanation.mk (hs.map History.unwind) truncated lookahead description).path =
      (Explanation.mk ((hs.map History.plain).map History.unwind) truncated lookahead
        description).path := by
    cases hs with
    | nil => rfl
    | cons h hs =>
      show h.unwind.path = h.plain.unwind.path
      rw [History.unwind_plain, Example.path_plain]
  have hlength : (hs.map History.unwind).length =
      ((hs.map History.plain).map History.unwind).length := by
    simp only [List.length_map]
  exact ⟨hpath, rfl, hlength, text_congr hpath rfl rfl rfl hlength (examplesLines_plain 1 hs).symm⟩

theorem alike_of_plain_eq (h : hs.map History.plain = hs'.map History.plain) :
    Alike ⟨hs.map History.unwind, truncated, lookahead, description⟩
      ⟨hs'.map History.unwind, truncated, lookahead, description⟩ := by
  have hplain := alike_plain hs truncated lookahead description
  rw [h] at hplain
  exact hplain.trans (alike_plain hs' truncated lookahead description).symm

end

end Explanation

namespace Trace

section

variable {R : Trace → Trace → Prop}

mutual

/-- **Following a trace in another.**  If items that look alike come with parents that do, the
histories look alike. -/
theorem histories_plain_eq (hitem : ∀ s s', R s s' → s.item.plain = s'.item.plain)
    (hparents : ∀ s s', R s s' → List.Forall₂ R s.parents s'.parents) :
    (s s' : Trace) → R s s' → s.histories.map History.plain = s'.histories.map History.plain
  | ⟨tag, item, parents⟩, s', h => by
    have hs : item.plain = s'.item.plain := hitem _ _ h
    have hps : List.Forall₂ R parents s'.parents := hparents _ _ h
    have hflat := flatMap_histories_plain_eq hitem hparents parents s'.parents hps
    -- One of the two traces has parents just when the other does.
    by_cases hnone : parents = []
    · subst hnone
      have hnone' : s'.parents = [] := List.forall₂_nil_left_iff.mp hps
      rw [histories_of_no_parents rfl, histories_of_no_parents hnone']
      show [History.mk item.plain []] = [History.mk s'.item.plain []]
      rw [hs]
    · have hsome' : s'.parents ≠ [] := by
        intro hnone'
        rw [hnone'] at hps
        exact hnone (List.forall₂_nil_right_iff.mp hps)
      rw [histories_of_parents hnone, histories_of_parents hsome', List.map_map, List.map_map]
      have hlast : ∀ item : Item, History.plain ∘ (·.followedBy [item]) =
          (·.followedBy [item.plain]) ∘ History.plain :=
        fun item => funext fun h => h.plain_followedBy [item]
      show (parents.flatMap histories).map (History.plain ∘ (·.followedBy [item])) = _
      rw [hlast, hlast, ← List.map_map, ← List.map_map, hflat, hs]

theorem flatMap_histories_plain_eq (hitem : ∀ s s', R s s' → s.item.plain = s'.item.plain)
    (hparents : ∀ s s', R s s' → List.Forall₂ R s.parents s'.parents) :
    (ps ps' : List Trace) → List.Forall₂ R ps ps' →
      (ps.flatMap histories).map History.plain = (ps'.flatMap histories).map History.plain
  | [], _, h => by rw [List.forall₂_nil_left_iff.mp h]
  | p :: ps, _, h => by
    obtain ⟨p', ps', hp, hps, rfl⟩ := List.forall₂_cons_left_iff.mp h
    rw [List.flatMap_cons, List.flatMap_cons, List.map_append, List.map_append,
      histories_plain_eq hitem hparents p p' hp,
      flatMap_histories_plain_eq hitem hparents ps ps' hps]

end

end

/-- **Histories that look alike are explained alike.**  Two traces that have them either both fail
to be explained, in one way, or have explanations that read the same. -/
theorem explain_alike {t u : Trace}
    (h : t.histories.map History.plain = u.histories.map History.plain) (request : Request) :
    (∃ error, t.explain request = .error error ∧ u.explain request = .error error) ∨
    ∃ e e', t.explain request = .ok e ∧ u.explain request = .ok e' ∧ e.Alike e' ∧
      ∃ text, e.text = .ok text := by
  have hcount : t.pathCount = u.pathCount := by
    have hlength := congrArg List.length h
    rwa [List.length_map, List.length_map, length_histories, length_histories] at hlength
  obtain ⟨error, -, hrefused⟩ | ⟨hpos, hlt⟩ := refused_or_in_bounds request
  · exact .inl ⟨error, hrefused t _, hrefused u _⟩
  -- The explanations show the same number of histories from the front.
  have htake : (t.histories.take request.limit.toNat).map History.plain =
      (u.histories.take request.limit.toNat).map History.plain := by
    rw [List.map_take, h, List.map_take]
  have ht := explain_of_limit (t := t) hpos hlt
  have hu := explain_of_limit (t := u) hpos hlt
  rw [← hcount] at hu
  exact .inr ⟨_, _, ht, hu, Explanation.alike_of_plain_eq _ _ _ _ _ htake,
    Explanation.exists_text ..⟩

end Trace

end GrammarConflict
