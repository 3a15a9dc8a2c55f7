import GrammarConflict.Proofs.Diagram.Legible

/-!
# The picture of an example

Strokes change what they meet, and labels are written over them, so a diagram looks as if it could
depend on the order in which it is drawn.  It does not: each cell is given by the pieces and the
brackets alone (`Example.Picture`).  This holds for any reductions over pieces that there are, be
they nested or crossing, be they listed twice or in any order, and the canvas has its final size
before the first stroke (`Example.exists_picture`).
-/

namespace GrammarConflict

/-- Starting from the canvas, the drawing goes from mark to mark and has the size after each. -/
def Canvas.StaysIn (canvas : Canvas) (d : Draw Unit) (height width : Nat) : Prop :=
  ∃ ms : List Mark, Performs d ms ∧ ∀ k, ∃ canvas',
    forM (ms.take k) make canvas = .ok () canvas' ∧ canvas'.HasSize height width

namespace Example

/-! ### What the cells are given by -/

/-- A piece has the character in a column of the first row. -/
def Covers (e : Example) (P : List Int) (c : Nat) (ch : Char) : Prop :=
  ∃ (k column j : Nat) (piece : Piece), e.pieces[k]? = some piece ∧ P[k]? = some (column : Int) ∧
    piece.shown.toList[j]? = some ch ∧ c = column + j

/-- A reduction has its bracket in the row, from one column to the other, and the label. -/
def HasBracket (e : Example) (P : List Int) (row left right : Nat) (label : List Char) : Prop :=
  ∃ (i : Nat) (r : Reduction), e.reductions[i]? = some r ∧ row = 2 + 2 * i ∧
    r.Spans P left right ∧ label = r.nonterminal.shown.toList

/-- The label of a bracket has the character in the cell. -/
def Labels (e : Example) (P : List Int) (r c : Nat) (ch : Char) : Prop :=
  ∃ left right label j, e.HasBracket P r left right label ∧ label[j]? = some ch ∧ c = left + 2 + j

/-- An end of a bracket goes through the cell. -/
def HasEnd (e : Example) (P : List Int) (r c : Nat) : Prop :=
  ∃ row left right label, e.HasBracket P row left right label ∧ r ≤ row ∧ (c = left ∨ c = right)

/-- The foot of a bracket goes through the cell. -/
def HasFoot (e : Example) (P : List Int) (r c : Nat) : Prop :=
  ∃ left right label, e.HasBracket P r left right label ∧ left ≤ c ∧ c ≤ right

/-- The cells show the example: the pieces in the first row, and below it the labels and, where
there is no label, the strokes, with corners where ends meet feet. -/
structure Picture (e : Example) (P : List Int) (cell : Nat → Nat → Char) : Prop where
  piece : ∀ c ch, e.Covers P c ch → cell 0 c = ch
  gap : ∀ c, (∀ ch, ¬ e.Covers P c ch) → cell 0 c = ' '
  label : ∀ r c ch, e.Labels P r c ch → cell r c = ch
  corner : ∀ r c, 0 < r → (∀ ch, ¬ e.Labels P r c ch) → e.HasEnd P r c → e.HasFoot P r c →
    cell r c = '+'
  stroke_down : ∀ r c, 0 < r → (∀ ch, ¬ e.Labels P r c ch) → e.HasEnd P r c → ¬ e.HasFoot P r c →
    cell r c = '|'
  stroke_along : ∀ r c, 0 < r → (∀ ch, ¬ e.Labels P r c ch) → ¬ e.HasEnd P r c → e.HasFoot P r c →
    cell r c = '-'
  blank : ∀ r c, 0 < r → (∀ ch, ¬ e.Labels P r c ch) → ¬ e.HasEnd P r c → ¬ e.HasFoot P r c →
    cell r c = ' '

namespace Laid

variable {e : Example} {P : List Int}

/-! ### The cells of the canvas -/

theorem cell_of_covers (laid : e.Laid P) {c : Nat} {ch : Char} (h : e.Covers P c ch) :
    (e.drawn P).cell 0 c = ch := by
  obtain ⟨k, column, j, piece, hk, hcolumn, hch, rfl⟩ := h
  have hlt := (List.getElem?_eq_some_iff.mp hk).1
  rw [laid.getElem?_columns (Nat.le_of_lt hlt), Option.some.injEq] at hcolumn
  have hcell := laid.cell_piece hk hch
  rwa [hcolumn] at hcell

theorem cell_of_not_covers (laid : e.Laid P) {c : Nat} (h : ∀ ch, ¬ e.Covers P c ch) :
    (e.drawn P).cell 0 c = ' ' := by
  have hnone : touches (e.pieceMarks P) 0 c = [] := by
    apply touches_eq_nil
    rintro m hm ⟨-, rfl⟩
    obtain ⟨k, piece, j, ch, hk, hch, rfl⟩ := laid.mem_pieceMarks_iff.mp hm
    have hle := Nat.le_of_lt (List.getElem?_eq_some_iff.mp hk).1
    refine h ch ⟨k, (P.getD k 0).toNat, j, piece, hk, ?_, hch, rfl⟩
    rw [laid.getElem?_columns hle, Int.toNat_of_nonneg (laid.nonneg hle)]
  rw [cell_zero, hnone]
  rfl

/-- Each bracket that is drawn is one that the columns give. -/
theorem hasBracket_of_mem (laid : e.Laid P) {b : Bracket} (hb : b ∈ e.bracketsOver P) :
    e.HasBracket P b.row b.left b.right b.label := by
  have hspans := laid.spans hb
  obtain ⟨i, hi, rfl⟩ := List.mem_mapIdx.mp hb
  exact ⟨i, _, List.getElem?_eq_getElem hi, rfl, hspans, rfl⟩

/-- Each bracket that the columns give is drawn: a reduction spans one pair of columns. -/
theorem exists_mem_of_hasBracket (laid : e.Laid P) {row left right : Nat} {label : List Char}
    (h : e.HasBracket P row left right label) : ∃ b ∈ e.bracketsOver P,
      b.row = row ∧ b.left = left ∧ b.right = right ∧ b.label = label := by
  obtain ⟨i, r, hi, rfl, hspans, rfl⟩ := h
  have hr := List.mem_of_getElem? hi
  obtain ⟨b, hb, rfl, hrow⟩ := exists_bracket (P := P) hi
  obtain ⟨hleft, hright⟩ := (laid.spans_iff hr).mp (laid.spans hb)
  obtain ⟨hleft', hright'⟩ := (laid.spans_iff hr).mp hspans
  exact ⟨b, hb, hrow, by omega, by omega, rfl⟩

theorem cell_of_labels (laid : e.Laid P) {r c : Nat} {ch : Char} (h : e.Labels P r c ch) :
    (e.drawn P).cell r c = ch := by
  obtain ⟨left, right, label, j, hbracket, hch, rfl⟩ := h
  obtain ⟨b, hb, rfl, rfl, rfl, rfl⟩ := laid.exists_mem_of_hasBracket hbracket
  exact laid.cell_label hb hch

theorem hasEnd_iff (laid : e.Laid P) {r c : Nat} :
    e.HasEnd P r c ↔ ∃ b ∈ e.bracketsOver P, r ≤ b.row ∧ (c = b.left ∨ c = b.right) := by
  constructor
  · rintro ⟨row, left, right, label, hbracket, hrow, hc⟩
    obtain ⟨b, hb, rfl, rfl, rfl, rfl⟩ := laid.exists_mem_of_hasBracket hbracket
    exact ⟨b, hb, hrow, hc⟩
  · rintro ⟨b, hb, hrow, hc⟩
    exact ⟨_, _, _, _, laid.hasBracket_of_mem hb, hrow, hc⟩

theorem hasFoot_iff (laid : e.Laid P) {r c : Nat} :
    e.HasFoot P r c ↔ ∃ b ∈ e.bracketsOver P, r = b.row ∧ b.left ≤ c ∧ c ≤ b.right := by
  constructor
  · rintro ⟨left, right, label, hbracket, hc⟩
    obtain ⟨b, hb, rfl, rfl, rfl, rfl⟩ := laid.exists_mem_of_hasBracket hbracket
    exact ⟨b, hb, rfl, hc⟩
  · rintro ⟨b, hb, rfl, hc⟩
    exact ⟨_, _, _, laid.hasBracket_of_mem hb, hc⟩

/-- Where there is no label, it only matters whether an end and whether a foot go through. -/
theorem cell_of_not_labels (laid : e.Laid P) {r c : Nat} (hr : 0 < r)
    (hlabel : ∀ ch, ¬ e.Labels P r c ch) {v h : Bool} (hv : v = true ↔ e.HasEnd P r c)
    (hh : h = true ↔ e.HasFoot P r c) : (e.drawn P).cell r c = Canvas.stroked ' ' v h := by
  rw [laid.cell_strokes hr]
  · congr 1
    · rw [Bool.eq_iff_iff, decide_eq_true_iff, hv, laid.hasEnd_iff]
    · rw [Bool.eq_iff_iff, decide_eq_true_iff, hh, laid.hasFoot_iff]
  · rintro b hb rfl ⟨hle, hlt⟩
    have hj : c - (b.left + 2) < b.label.length := by omega
    exact hlabel _ ⟨_, _, _, _, laid.hasBracket_of_mem hb, List.getElem?_eq_getElem hj, by omega⟩

theorem picture (laid : e.Laid P) : e.Picture P (e.drawn P).cell where
  piece _ _ := laid.cell_of_covers
  gap _ := laid.cell_of_not_covers
  label _ _ _ := laid.cell_of_labels
  corner _ _ hr hlabel hend hfoot :=
    laid.cell_of_not_labels (v := true) (h := true) hr hlabel (by simpa) (by simpa)
  stroke_down _ _ hr hlabel hend hfoot :=
    laid.cell_of_not_labels (v := true) (h := false) hr hlabel (by simpa) (by simpa)
  stroke_along _ _ hr hlabel hend hfoot :=
    laid.cell_of_not_labels (v := false) (h := true) hr hlabel (by simpa) (by simpa)
  blank _ _ hr hlabel hend hfoot :=
    laid.cell_of_not_labels (v := false) (h := false) hr hlabel (by simpa) (by simpa)

/-! ### The drawing -/

/-- Every mark lies on the canvas, so none of them makes it grow. -/
theorem staysIn_draw (laid : e.Laid P) :
    (Canvas.blank (1 + 2 * e.reductions.length : Nat) (e.width P)).StaysIn
      (e.draw P (e.bracketsOver P)) (1 + 2 * e.reductions.length) (e.width P) := by
  refine ⟨e.marks P, laid.performs_draw, fun k => ?_⟩
  -- The first marks are marks of the diagram too, and none of those lies outside.
  have hsubset := List.take_subset k (e.marks P)
  have hperforms : Canvas.Performs (forM ((e.marks P).take k) Canvas.make) _ := rfl
  have hok := hperforms.makes _ fun _ hm => laid.admits_of_mem_marks (hsubset hm)
  exact ⟨_, hok, laid.hasSize_markedAll hsubset⟩

theorem lines_drawn (laid : e.Laid P) :
    (e.drawn P).lines = (List.range (1 + 2 * e.reductions.length)).map fun r =>
      String.ofList (Text.trimEnd ((List.range (e.width P)).map ((e.drawn P).cell r))) := by
  apply List.ext_getElem
  · rw [Canvas.length_lines, laid.height_drawn, List.length_map, List.length_range]
  · intro r hr _
    rw [Canvas.length_lines, laid.height_drawn] at hr
    have hline := Canvas.getElem?_lines (by rwa [laid.height_drawn] : r < (e.drawn P).height)
    rw [laid.width_drawn hr, Canvas.segment, ← List.range_eq_range'] at hline
    rw [List.getElem_map, List.getElem_range]
    exact List.getElem_eq_iff _ |>.mpr hline

end Laid

/-- **The diagram cell by cell.**  Reductions over pieces that there are have columns, and from them
a canvas that has its size from the start: no mark of the drawing makes it grow.  What is drawn on
it is the picture of the example, and the diagram is its rows with the blanks at their ends left
out. -/
theorem exists_picture {e : Example} (hwithin : ∀ r ∈ e.reductions, r.Within e.pieces.length) :
    ∃ (P : List Int) (width : Nat) (brackets : List Bracket) (drawn : Canvas),
      e.columns = .ok P ∧ P.length = e.pieces.length + 1 ∧
      P[e.pieces.length]? = some (width : Int) ∧ e.brackets = .ok brackets ∧
      (Canvas.blank (1 + 2 * e.reductions.length : Nat) width).StaysIn (e.draw P brackets)
        (1 + 2 * e.reductions.length) width ∧
      e.draw P brackets (Canvas.blank (1 + 2 * e.reductions.length : Nat) width) = .ok () drawn ∧
      e.Picture P drawn.cell ∧
      e.diagram = .ok ((List.range (1 + 2 * e.reductions.length)).map fun r =>
        String.ofList (Text.trimEnd ((List.range width).map (drawn.cell r)))) := by
  obtain ⟨P, laid⟩ := exists_laid hwithin
  have hwidth : P[e.pieces.length]? = some (e.width P : Int) := by
    rw [laid.getElem?_columns (Nat.le_refl _), laid.getD_eq_width]
  refine ⟨P, e.width P, e.bracketsOver P, e.drawn P, laid.columns_eq, laid.length_eq, hwidth,
    laid.brackets_eq_ok, laid.staysIn_draw, laid.draw_eq_ok, laid.picture, ?_⟩
  rw [laid.diagram_eq_ok, laid.lines_drawn]

/-- Reductions that cross, one of them listed twice. -/
def crossingSample : Example :=
  let symbol (name : String) : Piece := .symbol (.text name)
  ⟨1, [symbol "a", symbol "b", symbol "c", .epsilon, symbol "d"],
    [⟨0, 3, .text "X"⟩, ⟨1, 5, .text "Y"⟩, ⟨0, 3, .text "X"⟩, ⟨3, 4, .text "Z"⟩]⟩

/-- The label of the first bracket stands where an end of the second one goes through. -/
theorem exists_picture_crossingSample :
    (∀ r ∈ crossingSample.reductions, r.Within crossingSample.pieces.length) ∧
    ∃ P rows drawn, crossingSample.columns = .ok P ∧ crossingSample.diagram = .ok rows ∧
      rows.length = 9 ∧ crossingSample.Picture P drawn ∧ crossingSample.HasEnd P 2 2 ∧
      crossingSample.HasFoot P 2 2 ∧ drawn 2 2 = 'X' := by
  have hwithin : ∀ r ∈ crossingSample.reductions, r.Within crossingSample.pieces.length := by
    decide
  have hcolumns : crossingSample.columns = .ok [0, 2, 4, 6, 12, 14] := by rfl
  obtain ⟨P, width, brackets, drawn, hP, -, -, -, -, -, picture, hrows⟩ := exists_picture hwithin
  obtain rfl := Except.ok.inj (hcolumns.symm.trans hP)
  have first : crossingSample.HasBracket [0, 2, 4, 6, 12, 14] 2 0 4 ['X'] :=
    ⟨0, _, rfl, rfl, ⟨rfl, rfl⟩, rfl⟩
  have second : crossingSample.HasBracket [0, 2, 4, 6, 12, 14] 4 2 12 ['Y'] :=
    ⟨1, _, rfl, rfl, ⟨rfl, rfl⟩, rfl⟩
  refine ⟨hwithin, _, _, drawn.cell, hcolumns, hrows, rfl, picture, ?_, ?_, ?_⟩
  · exact ⟨_, _, _, _, second, by decide, .inl rfl⟩
  · exact ⟨_, _, _, first, by decide, by decide⟩
  · exact picture.label _ _ _ ⟨_, _, _, 0, first, rfl, rfl⟩

end Example

end GrammarConflict
