import GrammarConflict.Proofs.Diagram.Marks
import GrammarConflict.Proofs.Example.Nesting

/-!
# Every history can be drawn

An example is well formed when the place of the conflict and the reductions lie within its pieces
and each reduction lies inside the next.  The example of a history is (`wellFormed_unwind`),
whatever the positions of its items: what an item puts before and after the conflict need not make
up its rule, but the cursor is met on the way and each reduction is closed after it.

A well-formed example has columns, brackets and a diagram (`Example.WellFormed.exists_shown`).  So
none of the ways in which laying out and drawing can fail are open to a history, an empty reduction
among them (`wellFormed_and_shown`).
-/

namespace GrammarConflict

namespace Example

/-- The invariants of an example. -/
structure WellFormed (e : Example) : Prop where
  /-- The conflict is before a piece or after the last. -/
  cursor : 0 ≤ e.cursor ∧ e.cursor ≤ e.pieces.length
  /-- Each reduction is over one or more pieces that there are. -/
  within : ∀ r ∈ e.reductions, r.Within e.pieces.length
  /-- Each reduction lies inside every later one. -/
  nested : e.reductions.Pairwise Reduction.Inside

/-- The columns, the brackets and the rows of the diagram of an example. -/
structure Shows (e : Example) (columns : List Int) (brackets : List Bracket) (rows : List String) :
    Prop where
  columns_eq : e.columns = .ok columns
  brackets_eq : e.brackets = .ok brackets
  diagram_eq : e.diagram = .ok rows
  length_columns : columns.length = e.pieces.length + 1
  length_brackets : brackets.length = e.reductions.length
  length_rows : rows.length = 1 + 2 * e.reductions.length

theorem WellFormed.exists_shown {e : Example} (wellFormed : e.WellFormed) :
    ∃ columns brackets rows, e.Shows columns brackets rows := by
  obtain ⟨P, laid⟩ := exists_laid wellFormed.within
  refine ⟨P, _, _, laid.columns_eq, laid.brackets_eq_ok, laid.diagram_eq_ok, laid.length_eq, ?_, ?_⟩
  · rw [bracketsOver, List.length_mapIdx]
  · rw [Canvas.length_lines, laid.height_drawn]

end Example

namespace History

/-- The conflict is met among what the items from one on contribute. -/
theorem cursor_unwindFrom (start : Nat) (item : Item) (later : List Item) :
    start ≤ (unwindFrom start item later).cursor ∧ (unwindFrom start item later).cursor ≤
      (start + (unwindFrom start item later).pieces.length : Nat) := by
  induction later generalizing start item with
  | nil =>
    -- What is before the position is at most the whole rule.
    have hlength : item.before.length ≤ (unwindFrom start item []).pieces.length := by
      rw [unwindFrom_nil_pieces, Rule.pieces, ← item.before_append_ahead]
      split
      · next hempty => simp [(List.append_eq_nil_iff.mp hempty).1]
      · simp
    have hcursor : (unwindFrom start item []).cursor = (start + item.before.length : Nat) := rfl
    omega
  | cons next later ih =>
    obtain ⟨hlo, hhi⟩ := ih (start + item.before.length) next
    simp only [unwindFrom, List.length_append, List.length_map]
    omega

/-- The last reduction is the first item's, over all that the items contribute. -/
theorem getLast?_reductions_unwindFrom (start : Nat) (item : Item) (later : List Item) :
    (unwindFrom start item later).reductions.getLast? = some
      ⟨start, (start + (unwindFrom start item later).pieces.length : Nat),
        item.rule.nonterminal⟩ := by
  cases later with
  | nil => rfl
  | cons next later => exact List.getLast?_concat ..

theorem wellFormed_unwind (h : History) : h.unwind.WellFormed where
  cursor := by
    have hcursor := cursor_unwindFrom 0 h.first h.later
    rwa [Nat.zero_add] at hcursor
  within := h.within_unwind
  nested := pairwise_inside_unwindFrom 0 h.first h.later

/-- **Every history has a well-formed example that can be drawn.**  The items may have any
positions, those too that are not in their rules.  There is a reduction for each of them, the last
item's first, and the first item's is over all pieces. -/
theorem wellFormed_and_shown (first : Item) (later : List Item) :
    ∃ h, ofItems (first :: later) = .ok h ∧ h.unwind.WellFormed ∧
      h.unwind.reductions.map Reduction.nonterminal =
        (first :: later).reverse.map (·.rule.nonterminal) ∧
      h.unwind.reductions.getLast? =
        some ⟨0, h.unwind.pieces.length, first.rule.nonterminal⟩ ∧
      h.unwind.lengths.length = h.unwind.pieces.length + 1 ∧
      ∃ columns brackets rows, h.unwind.Shows columns brackets rows := by
  let h : History := ⟨first, later⟩
  have hlast := getLast?_reductions_unwindFrom 0 first later
  rw [Nat.zero_add] at hlast
  exact ⟨h, rfl, h.wellFormed_unwind, nonterminals_unwindFrom 0 first later, hlast,
    Example.length_lengths _, h.wellFormed_unwind.exists_shown⟩

end History

end GrammarConflict
