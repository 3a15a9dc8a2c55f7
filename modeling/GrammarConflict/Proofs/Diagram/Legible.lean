import GrammarConflict.Proofs.Diagram.Marks
import GrammarConflict.Proofs.Example.Nesting

/-!
# Diagrams are legible

The diagram of a history can be read: its first row shows the pieces apart from one another, and
each reduction has a row with its label in a bracket, `+-Label--+`, beside which there is nothing
but the ends of brackets further down.  An inner bracket lies within the columns of every outer one.

The rows come from the cells (`Example.Laid.cell_strokes`); that the reductions are nested is what
keeps the ends of outer brackets out of the inner ones (`cell_foot`).
-/

namespace GrammarConflict

/-! ### What it is to show something -/

/-- The bracket of the reduction goes from one column to the other: it begins under the first piece,
and it ends two columns before the place that follows the last piece. -/
structure Reduction.Spans (r : Reduction) (P : List Int) (left right : Nat) : Prop where
  start_eq : SignedIndex.get? P r.start = some (left : Int)
  stop_eq : SignedIndex.get? P r.stop = some ((right : Int) + 2)

/-- The row shows the pieces: from the column of each up to the next one there is its text, and then
one or more blanks. -/
structure ShowsPieces (pieces : List Piece) (P : List Int) (row : List Char) : Prop where
  first_eq : P[0]? = some 0
  last_eq : P[pieces.length]? = some (row.length : Int)
  shows : ∀ (k : Nat) (piece : Piece), pieces[k]? = some piece → ∃ before blanks after,
    row = before ++ piece.shown.toList ++ List.replicate blanks ' ' ++ after ∧ 0 < blanks ∧
    P[k]? = some (before.length : Int) ∧
    P[k + 1]? = some ((before.length + piece.shown.length + blanks : Nat) : Int)

/-- The row shows the label in a bracket from one column to the other, and beside it nothing but the
ends of other brackets. -/
def ShowsLabel (label : List Char) (left right : Nat) (row : List Char) : Prop :=
  ∃ before dashes after,
    row = before ++ '+' :: '-' :: label ++ List.replicate dashes '-' ++ '+' :: after ∧
    0 < dashes ∧ before.length = left ∧ left + 2 + label.length + dashes = right ∧
    ∀ c ∈ before ++ after, c = '|' ∨ c = ' '

namespace Example.Laid

variable {e : Example} {P : List Int} {b : Bracket}

/-! ### The first row -/

theorem showsPieces (laid : e.Laid P) :
    ShowsPieces e.pieces P ((e.drawn P).segment 0 0 (e.width P)) := by
  refine ⟨?_, ?_, ?_⟩
  · rw [laid.getElem?_columns (Nat.zero_le _), laid.suits.first_eq]
  · rw [laid.getElem?_columns (Nat.le_refl _), Canvas.length_segment, laid.getD_eq_width]
  · intro k piece hk
    have hlt := (List.getElem?_eq_some_iff.mp hk).1
    have hnonneg := laid.nonneg (Nat.le_of_lt hlt)
    have hnext := laid.add_lt hk
    have hlast := laid.le (i := k + 1) hlt (Nat.le_refl _)
    rw [laid.getD_eq_width] at hlast
    -- The row falls into what is before the piece, its text, the blanks, and what is after them.
    obtain ⟨column, hcolumn⟩ := Int.eq_ofNat_of_zero_le hnonneg
    obtain ⟨blanks, hblanks⟩ : ∃ blanks : Nat,
        P.getD (k + 1) 0 = (column + (piece.shown.length + blanks) : Nat) :=
      ⟨(P.getD (k + 1) 0).toNat - column - piece.shown.length, by omega⟩
    obtain ⟨rest, hrest⟩ : ∃ rest,
        e.width P = column + (piece.shown.length + (blanks + rest)) :=
      ⟨e.width P - (P.getD (k + 1) 0).toNat, by omega⟩
    have htext : (e.drawn P).segment 0 column piece.shown.length = piece.shown.toList := by
      rw [← String.length_toList]
      apply Canvas.segment_eq
      intro j ch hch
      have hcell := laid.cell_piece hk hch
      rwa [hcolumn] at hcell
    have hgap : (e.drawn P).segment 0 (column + piece.shown.length) blanks =
        List.replicate blanks ' ' := by
      apply Canvas.segment_eq_replicate
      intro c hle hc
      exact laid.cell_gap hk (by omega) (by omega)
    refine ⟨(e.drawn P).segment 0 0 column, blanks,
      (e.drawn P).segment 0 (column + piece.shown.length + blanks) rest, ?_, by omega, ?_, ?_⟩
    · rw [hrest, Canvas.segment_add, Canvas.segment_add, Canvas.segment_add, Nat.zero_add, htext,
        hgap]
      simp only [List.append_assoc]
    · rw [laid.getElem?_columns (Nat.le_of_lt hlt), Canvas.length_segment, hcolumn]
    · rw [laid.getElem?_columns hlt, Canvas.length_segment, hblanks, Nat.add_assoc]

/-! ### The row of a bracket -/

theorem spans_iff (laid : e.Laid P) {r : Reduction} (hr : r ∈ e.reductions) {left right : Nat} :
    r.Spans P left right ↔
      P.getD r.start.toNat 0 = left ∧ P.getD r.stop.toNat 0 = (right : Int) + 2 := by
  obtain ⟨hstart, hspan, hstop⟩ := laid.within r hr
  have hcolumn : ∀ i : Int, 0 ≤ i → i ≤ e.pieces.length →
      SignedIndex.get? P i = some (P.getD i.toNat 0) := by
    intro i h₀ hi
    obtain ⟨k, rfl⟩ := Int.eq_ofNat_of_zero_le h₀
    rw [SignedIndex.get?_natCast, laid.getElem?_columns (by omega)]
    rfl
  have hfirst := hcolumn r.start (by omega) (by omega)
  have hlast := hcolumn r.stop (by omega) hstop
  constructor
  · rintro ⟨hleft, hright⟩
    exact ⟨Option.some.inj (hfirst.symm.trans hleft), Option.some.inj (hlast.symm.trans hright)⟩
  · rintro ⟨hleft, hright⟩
    exact ⟨hfirst.trans (congrArg some hleft), hlast.trans (congrArg some hright)⟩

/-- The bracket that is drawn for a reduction is the one that the columns give. -/
theorem spans (laid : e.Laid P) (hb : b ∈ e.bracketsOver P) :
    b.reduction.Spans P b.left b.right := by
  have hstart := (laid.fits hb).start_eq
  have hstop := (laid.fits hb).stop_eq
  obtain ⟨i, hi, rfl⟩ := List.mem_mapIdx.mp hb
  replace hstop : P.getD e.reductions[i].stop.toNat 0 - 1 = _ := hstop
  refine (laid.spans_iff (List.getElem_mem hi)).mpr ⟨hstart, ?_⟩
  omega

theorem exists_bracket {i : Nat} {r : Reduction} (hi : e.reductions[i]? = some r) :
    ∃ b ∈ e.bracketsOver P, b.reduction = r ∧ b.row = 2 + 2 * i := by
  obtain ⟨hlt, rfl⟩ := List.getElem?_eq_some_iff.mp hi
  exact ⟨_, List.mem_mapIdx.mpr ⟨i, hlt, rfl⟩, rfl, rfl⟩

/-- The label stands inside the bracket. -/
theorem not_label_of_row_eq (hb : b ∈ e.bracketsOver P) {c : Nat}
    (hc : c < b.left + 2 ∨ b.left + 2 + b.label.length ≤ c) :
    ∀ b' ∈ e.bracketsOver P, b'.row = b.row →
      ¬ (b'.left + 2 ≤ c ∧ c < b'.left + 2 + b'.label.length) := by
  intro b' hb' hrow
  obtain rfl := bracket_unique hb' hb hrow
  omega

/-- The ends of a bracket are corners. -/
theorem cell_end (laid : e.Laid P) (hb : b ∈ e.bracketsOver P) {c : Nat}
    (hc : c = b.left ∨ c = b.right) : (e.drawn P).cell b.row c = '+' := by
  have hroom := (laid.fits hb).left_add_le
  have hdown : ∃ b' ∈ e.bracketsOver P, b.row ≤ b'.row ∧ (c = b'.left ∨ c = b'.right) :=
    ⟨b, hb, Nat.le_refl _, hc⟩
  have halong : ∃ b' ∈ e.bracketsOver P, b.row = b'.row ∧ b'.left ≤ c ∧ c ≤ b'.right :=
    ⟨b, hb, rfl, by omega, by omega⟩
  rw [laid.cell_strokes (laid.fits hb).row_pos (not_label_of_row_eq hb (by omega)),
    decide_eq_true hdown, decide_eq_true halong]
  rfl

/-- Beside a bracket there are the ends of others, if anything. -/
theorem cell_beside (laid : e.Laid P) (hb : b ∈ e.bracketsOver P) {c : Nat}
    (hc : c < b.left ∨ b.right < c) :
    (e.drawn P).cell b.row c = '|' ∨ (e.drawn P).cell b.row c = ' ' := by
  have hroom := (laid.fits hb).left_add_le
  have halong : ¬ ∃ b' ∈ e.bracketsOver P, b.row = b'.row ∧ b'.left ≤ c ∧ c ≤ b'.right := by
    rintro ⟨b', hb', hrow, hleft, hright⟩
    obtain rfl := bracket_unique hb hb' hrow
    omega
  rw [laid.cell_strokes (laid.fits hb).row_pos (not_label_of_row_eq hb (by omega)),
    decide_eq_false halong]
  cases decide (∃ b' ∈ e.bracketsOver P, b.row ≤ b'.row ∧ (c = b'.left ∨ c = b'.right)) with
  | false => exact .inr rfl
  | true => exact .inl rfl

/-- The columns of an inner reduction are between those of the outer one. -/
theorem le_of_inside (laid : e.Laid P) {inner outer : Reduction} (hinner : inner ∈ e.reductions)
    (houter : outer ∈ e.reductions) (hinside : inner.Inside outer) :
    P.getD outer.start.toNat 0 ≤ P.getD inner.start.toNat 0 ∧
      P.getD inner.stop.toNat 0 ≤ P.getD outer.stop.toNat 0 := by
  obtain ⟨hstart, hstop⟩ := hinside
  obtain ⟨h₀, hspan, hle⟩ := laid.within inner hinner
  obtain ⟨h₀', hspan', hle'⟩ := laid.within outer houter
  exact ⟨laid.le (by omega) (by omega), laid.le (by omega) (by omega)⟩

/-- Brackets of nested reductions are nested. -/
theorem nested (laid : e.Laid P) (hnested : e.reductions.Pairwise Reduction.Inside) {b' : Bracket}
    (hb : b ∈ e.bracketsOver P) (hb' : b' ∈ e.bracketsOver P) (hrow : b.row ≤ b'.row) :
    b'.left ≤ b.left ∧ b.right ≤ b'.right := by
  obtain ⟨i, hi, rfl⟩ := List.mem_mapIdx.mp hb
  obtain ⟨j, hj, rfl⟩ := List.mem_mapIdx.mp hb'
  replace hrow : 2 + 2 * i ≤ 2 + 2 * j := hrow
  rcases Nat.eq_or_lt_of_le (by omega : i ≤ j) with rfl | hlt
  · exact ⟨Nat.le_refl _, Nat.le_refl _⟩
  · obtain ⟨hleft, hright⟩ := laid.le_of_inside (List.getElem_mem hi) (List.getElem_mem hj)
      (List.pairwise_iff_getElem.mp hnested i j hi hj hlt)
    simp only [Bracket.left, Bracket.right, Bracket.ofReduction]
    omega

/-- No end of an outer bracket comes through the foot of an inner one. -/
theorem cell_foot (laid : e.Laid P) (hnested : e.reductions.Pairwise Reduction.Inside)
    (hb : b ∈ e.bracketsOver P) {c : Nat} (hleft : b.left < c) (hright : c < b.right)
    (hc : c < b.left + 2 ∨ b.left + 2 + b.label.length ≤ c) :
    (e.drawn P).cell b.row c = '-' := by
  -- Only brackets further down reach this row, and they are the outer ones.
  have hdown : ¬ ∃ b' ∈ e.bracketsOver P, b.row ≤ b'.row ∧ (c = b'.left ∨ c = b'.right) := by
    rintro ⟨b', hb', hrow, hend⟩
    obtain ⟨hl, hr⟩ := laid.nested hnested hb hb' hrow
    omega
  have halong : ∃ b' ∈ e.bracketsOver P, b.row = b'.row ∧ b'.left ≤ c ∧ c ≤ b'.right :=
    ⟨b, hb, rfl, by omega, by omega⟩
  rw [laid.cell_strokes (laid.fits hb).row_pos (not_label_of_row_eq hb hc),
    decide_eq_false hdown, decide_eq_true halong]
  rfl

/-- The row of a bracket: what is to the left of it, its foot with the label, and what is to the
right of it. -/
theorem segment_bracket (laid : e.Laid P) (hnested : e.reductions.Pairwise Reduction.Inside)
    (hb : b ∈ e.bracketsOver P) :
    ∃ dashes rest, 0 < dashes ∧ b.left + 2 + b.label.length + dashes = b.right ∧
      (e.drawn P).segment b.row 0 (e.width P) =
        (e.drawn P).segment b.row 0 b.left ++ '+' :: '-' :: b.label ++ List.replicate dashes '-' ++
          '+' :: (e.drawn P).segment b.row (b.right + 1) rest := by
  have hroom := (laid.fits hb).left_add_le
  have hwidth := (laid.fits hb).right_lt
  obtain ⟨dashes, hdashes⟩ : ∃ dashes, b.right = b.left + 1 + 1 + b.label.length + dashes :=
    ⟨b.right - b.left - 2 - b.label.length, by omega⟩
  obtain ⟨rest, hrest⟩ : ∃ rest,
      e.width P = b.left + (1 + (1 + (b.label.length + (dashes + (1 + rest))))) :=
    ⟨e.width P - b.right - 1, by omega⟩
  -- Each stretch of the row is known cell by cell.
  have hleft : (e.drawn P).segment b.row b.left 1 = ['+'] :=
    Canvas.segment_eq_replicate fun c hle hlt => laid.cell_end hb (.inl (by omega))
  have hdash : (e.drawn P).segment b.row (b.left + 1) 1 = ['-'] :=
    Canvas.segment_eq_replicate fun c hle hlt =>
      laid.cell_foot hnested hb (by omega) (by omega) (.inl (by omega))
  have hlabel : (e.drawn P).segment b.row (b.left + 1 + 1) b.label.length = b.label :=
    Canvas.segment_eq fun j ch hch => laid.cell_label hb hch
  have hfoot : (e.drawn P).segment b.row (b.left + 1 + 1 + b.label.length) dashes =
      List.replicate dashes '-' :=
    Canvas.segment_eq_replicate fun c hle hlt =>
      laid.cell_foot hnested hb (by omega) (by omega) (.inr (by omega))
  have hright : (e.drawn P).segment b.row b.right 1 = ['+'] :=
    Canvas.segment_eq_replicate fun c hle hlt => laid.cell_end hb (.inr (by omega))
  refine ⟨dashes, rest, by omega, by omega, ?_⟩
  rw [hrest, Canvas.segment_add, Canvas.segment_add, Canvas.segment_add, Canvas.segment_add,
    Canvas.segment_add, Canvas.segment_add, Nat.zero_add, ← hdashes, hleft, hdash, hlabel, hfoot,
    hright]
  simp only [List.append_assoc, List.cons_append, List.nil_append]

theorem showsLabel (laid : e.Laid P) (hnested : e.reductions.Pairwise Reduction.Inside)
    (hb : b ∈ e.bracketsOver P) :
    ShowsLabel b.label b.left b.right
      (Text.trimEnd ((e.drawn P).segment b.row 0 (e.width P))) := by
  obtain ⟨dashes, rest, hdashes, hright, hrow⟩ := laid.segment_bracket hnested hb
  refine ⟨(e.drawn P).segment b.row 0 b.left, dashes,
    Text.trimEnd ((e.drawn P).segment b.row (b.right + 1) rest), ?_, hdashes,
    Canvas.length_segment .., hright, ?_⟩
  · rw [hrow]
    exact Text.trimEnd_append_cons rfl ..
  · intro ch hch
    rcases List.mem_append.mp hch with hch | hch
    · obtain ⟨c, hc, rfl⟩ := List.mem_map.mp hch
      have hlt := (List.mem_range'_1.mp hc).2
      exact laid.cell_beside hb (.inl (by omega))
    · obtain ⟨c, hc, rfl⟩ := List.mem_map.mp ((Text.trimEnd_isPrefix _).subset hch)
      have hle := (List.mem_range'_1.mp hc).1
      exact laid.cell_beside hb (.inr (by omega))

theorem exists_showsLabel (laid : e.Laid P) (hnested : e.reductions.Pairwise Reduction.Inside)
    {i : Nat} {r : Reduction} (hi : e.reductions[i]? = some r) :
    ∃ left right row, r.Spans P left right ∧
      (e.drawn P).lines[2 + 2 * i]? = some (String.ofList row) ∧
      ShowsLabel r.nonterminal.shown.toList left right row := by
  obtain ⟨b, hb, rfl, hrow⟩ := exists_bracket (P := P) hi
  have hlt := (laid.fits hb).row_lt
  have hline : (e.drawn P).lines[b.row]? =
      some (String.ofList (Text.trimEnd ((e.drawn P).segment b.row 0 (e.width P)))) := by
    rw [Canvas.getElem?_lines (by rwa [laid.height_drawn]), laid.width_drawn hlt]
  rw [← hrow]
  exact ⟨b.left, b.right, _, laid.spans hb, hline, laid.showsLabel hnested hb⟩

end Example.Laid

/-! ### The diagram of a history -/

namespace History

/-- **Diagrams are legible.**  The diagram of a history has a row for the pieces and two for each
item.  The first row shows the pieces, and the second one for each reduction shows its nonterminal
in a bracket.  Every bracket lies within the columns of each outer one. -/
theorem diagram_legible (h : History) :
    ∃ P rows, h.unwind.columns = .ok P ∧ h.unwind.diagram = .ok rows ∧
      rows.length = 1 + 2 * h.items.length ∧
      (∃ row, rows[0]? = some (String.ofList (Text.trimEnd row)) ∧
        ShowsPieces h.unwind.pieces P row) ∧
      (∀ i < h.items.length, ∃ r left right row, h.unwind.reductions[i]? = some r ∧
        r.Spans P left right ∧ rows[2 + 2 * i]? = some (String.ofList row) ∧
        ShowsLabel r.nonterminal.shown.toList left right row) ∧
      h.unwind.reductions.Pairwise fun inner outer => ∀ left right left' right',
        inner.Spans P left right → outer.Spans P left' right' → left' ≤ left ∧ right ≤ right' := by
  have hnested := pairwise_inside_unwindFrom 0 h.first h.later
  obtain ⟨P, laid⟩ := Example.exists_laid h.within_unwind
  have hlength := h.length_reductions_unwind
  refine ⟨P, (h.unwind.drawn P).lines, laid.columns_eq, laid.diagram_eq_ok, ?_, ?_, ?_, ?_⟩
  · rw [Canvas.length_lines, laid.height_drawn, hlength]
  · refine ⟨_, ?_, laid.showsPieces⟩
    rw [Canvas.getElem?_lines (by rw [laid.height_drawn]; omega), laid.width_drawn (by omega)]
  · intro i hi
    rw [← hlength] at hi
    have hr := List.getElem?_eq_getElem hi
    obtain ⟨left, right, row, hshows⟩ := laid.exists_showsLabel hnested hr
    exact ⟨_, left, right, row, hr, hshows⟩
  · refine hnested.imp_of_mem ?_
    intro inner outer hinner houter hinside left right left' right' hspans hspans'
    obtain ⟨hleft, hright⟩ := (laid.spans_iff hinner).mp hspans
    obtain ⟨hleft', hright'⟩ := (laid.spans_iff houter).mp hspans'
    obtain ⟨hfirst, hlast⟩ := laid.le_of_inside hinner houter hinside
    omega

end History

end GrammarConflict
