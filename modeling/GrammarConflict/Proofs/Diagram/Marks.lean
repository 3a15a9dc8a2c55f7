import GrammarConflict.Diagram
import GrammarConflict.Proofs.Canvas.Marks
import GrammarConflict.Proofs.Layout.Columns

/-!
# The marks of a diagram

When the reductions of an example are over pieces that there are, its columns leave room for
everything that is drawn (`Example.Laid`): the diagram is drawn on a canvas that is large enough
from the start, and it is what its marks make of a blank canvas (`Laid.diagram_eq_ok`).  The marks
of a row other than the first are the strokes of brackets and, in the row of a bracket, its label.
So the canvas is known cell by cell (`Laid.cell_piece`, `Laid.cell_label`, `Laid.cell_strokes`),
whether the brackets are nested, cross, or coincide.
-/

namespace GrammarConflict

/-! ### The marks of a bracket -/

namespace Bracket

/-- The column of the left end. -/
def left (b : Bracket) : Nat :=
  b.start.toNat

/-- The column of the right end. -/
def right (b : Bracket) : Nat :=
  (b.stop - 1).toNat

/-- The characters of the label. -/
def label (b : Bracket) : List Char :=
  b.reduction.nonterminal.shown.toList

/-- The bracket has room for its label and lies on a canvas of the given size, below the first row.
-/
structure Fits (b : Bracket) (height width : Nat) : Prop where
  start_nonneg : 0 ≤ b.start
  room : b.start + Layout.labelRoom b.reduction ≤ b.stop
  stop_le : b.stop ≤ width
  row_pos : 0 < b.row
  row_lt : b.row < height

/-- The marks of the two ends and the foot. -/
def strokes (b : Bracket) : List Mark :=
  (List.range' 1 b.row).map (⟨·, b.left, .down⟩) ++
    ((List.range' 1 b.row).map (⟨·, b.right, .down⟩) ++
      (List.range' b.left (b.right + 1 - b.left)).map (⟨b.row, ·, .along⟩))

/-- The marks of the label. -/
def labelMarks (b : Bracket) : List Mark :=
  textMarks b.row (b.left + 2) b.label

section

variable {b : Bracket}

theorem mem_strokes_iff {m : Mark} :
    m ∈ b.strokes ↔
      (m.touch = .down ∧ 1 ≤ m.row ∧ m.row ≤ b.row ∧ (m.column = b.left ∨ m.column = b.right)) ∨
      (m.touch = .along ∧ m.row = b.row ∧ b.left ≤ m.column ∧ m.column ≤ b.right) := by
  obtain ⟨r, c, t⟩ := m
  simp only [strokes, List.mem_append, List.mem_map, List.mem_range'_1, Mark.mk.injEq]
  constructor
  · rintro (⟨_, hrow, rfl, rfl, rfl⟩ | ⟨_, hrow, rfl, rfl, rfl⟩ | ⟨_, hcolumn, rfl, rfl, rfl⟩)
    · exact .inl ⟨rfl, by omega, by omega, .inl rfl⟩
    · exact .inl ⟨rfl, by omega, by omega, .inr rfl⟩
    · exact .inr ⟨rfl, rfl, by omega, by omega⟩
  · rintro (⟨rfl, hpos, hle, rfl | rfl⟩ | ⟨rfl, rfl, hleft, hright⟩)
    · exact .inl ⟨r, by omega, rfl, rfl, rfl⟩
    · exact .inr (.inl ⟨r, by omega, rfl, rfl, rfl⟩)
    · exact .inr (.inr ⟨c, by omega, rfl, rfl, rfl⟩)

variable {height width : Nat}

theorem Fits.start_eq (h : b.Fits height width) : b.start = b.left :=
  (Int.toNat_of_nonneg h.start_nonneg).symm

/-- The label stands between the ends, a dash on each side of it. -/
theorem Fits.left_add_le (h : b.Fits height width) :
    b.left + 3 + b.label.length ≤ b.right := by
  have hroom := h.room
  have hnonneg := h.start_nonneg
  rw [Layout.labelRoom, ← String.length_toList] at hroom
  simp only [left, right, label]
  omega

theorem Fits.stop_eq (h : b.Fits height width) : b.stop = (b.right + 1 : Nat) := by
  have hle := h.left_add_le
  rw [right] at hle ⊢
  omega

theorem Fits.right_lt (h : b.Fits height width) : b.right < width := by
  have hstop := h.stop_le
  rw [h.stop_eq] at hstop
  omega

theorem Fits.performs_draw (h : b.Fits height width) : Canvas.Performs b.draw b.strokes := by
  have hrows : (Stride.between 1 (b.row + 1)).toList = (List.range' 1 b.row).map Nat.cast :=
    Stride.toList_between 1 (b.row + 1)
  have hcolumns : (Stride.between b.left (b.right + 1 : Nat)).toList =
      (List.range' b.left (b.right + 1 - b.left)).map Nat.cast :=
    Stride.toList_between b.left (b.right + 1)
  have hright : b.stop - 1 = b.right := by
    rw [h.stop_eq]
    omega
  rw [draw, hright, h.start_eq, h.stop_eq]
  exact (Canvas.Performs.strokeDown hrows b.left).bind
    ((Canvas.Performs.strokeDown hrows b.right).bind (Canvas.Performs.strokeAlong hcolumns b.row))

theorem Fits.performs_drawLabel (h : b.Fits height width) :
    Canvas.Performs b.drawLabel b.labelMarks := by
  have hcolumn : b.start + 2 = (b.left + 2 : Nat) := by
    rw [h.start_eq]
    omega
  rw [drawLabel, hcolumn]
  exact Canvas.Performs.writeChars b.row (b.left + 2) b.label

end

/-! ### The brackets of reductions -/

/-- The bracket of a reduction over the given columns. -/
def ofReduction (columns : List Int) (row : Nat) (r : Reduction) : Bracket :=
  ⟨r, columns.getD r.start.toNat 0, columns.getD r.stop.toNat 0 - 1, row⟩

theorem ofReductions_eq_ok {n : Nat} {columns : List Int} {reductions : List Reduction}
    (hcolumns : n < columns.length) (hwithin : ∀ r ∈ reductions, r.Within n) (row : Nat) :
    ofReductions columns row reductions =
      .ok (reductions.mapIdx fun i r => ofReduction columns (row + 2 * i) r) := by
  induction reductions generalizing row with
  | nil => rfl
  | cons r rest ih =>
    obtain ⟨hstart, hspan, hstop⟩ := hwithin r List.mem_cons_self
    have hrest := ih (fun s hs => hwithin s (List.mem_cons_of_mem _ hs)) (row + 2)
    have hrow : ∀ i, row + 2 + 2 * i = row + 2 * (i + 1) := by omega
    simp only [hrow] at hrest
    rw [ofReductions, Layout.member_eq_ok columns hstart (by omega),
      Layout.member_eq_ok columns (i := r.stop) (by omega) (by omega), hrest, List.mapIdx_cons]
    rfl

end Bracket

/-! ### The marks of an example -/

namespace Example

/-- The brackets of the reductions over the given columns. -/
def bracketsOver (e : Example) (P : List Int) : List Bracket :=
  e.reductions.mapIdx fun i r => .ofReduction P (2 + 2 * i) r

/-- The marks of the pieces. -/
def pieceMarks (e : Example) (P : List Int) : List Mark :=
  (e.pieces.zip P).flatMap fun place => textMarks 0 place.2.toNat place.1.shown.toList

/-- The marks of the brackets without their labels. -/
def strokeMarks (e : Example) (P : List Int) : List Mark :=
  (e.bracketsOver P).flatMap Bracket.strokes

/-- The marks of the labels. -/
def labelMarks (e : Example) (P : List Int) : List Mark :=
  (e.bracketsOver P).flatMap Bracket.labelMarks

/-- The marks of the diagram over the given columns. -/
def marks (e : Example) (P : List Int) : List Mark :=
  e.pieceMarks P ++ (e.strokeMarks P ++ e.labelMarks P)

/-- The width of the diagram over the given columns. -/
def width (e : Example) (P : List Int) : Nat :=
  (P.getD e.pieces.length 0).toNat

/-- The canvas of the diagram over the given columns. -/
def drawn (e : Example) (P : List Int) : Canvas :=
  (Canvas.blank (1 + 2 * e.reductions.length : Nat) (e.width P)).markedAll (e.marks P)

/-- The reductions are over pieces that there are, and the columns are those of the example. -/
structure Laid (e : Example) (P : List Int) : Prop where
  within : ∀ r ∈ e.reductions, r.Within e.pieces.length
  columns_eq : e.columns = .ok P
  suits : Layout.Suits e.lengths e.reductions P

theorem exists_laid {e : Example} (hwithin : ∀ r ∈ e.reductions, r.Within e.pieces.length) :
    ∃ P, e.Laid P := by
  have hlengths : e.pieces.length < e.lengths.length := by
    rw [length_lengths]
    omega
  obtain ⟨P, hP, hsuits⟩ := Layout.exists_columns hlengths hwithin
  exact ⟨P, hwithin, hP, hsuits⟩

theorem getD_lengths_nonneg (e : Example) (k : Nat) : 0 ≤ e.lengths.getD k 0 := by
  have hall : ∀ length ∈ e.lengths, 0 ≤ length := by
    intro length hlength
    rcases List.mem_append.mp hlength with hlength | hlength
    · obtain ⟨piece, _, rfl⟩ := List.mem_map.mp hlength
      cases piece with
      | symbol value => exact Int.natCast_nonneg _
      | epsilon => decide
    · obtain rfl := List.mem_singleton.mp hlength
      exact Int.le_refl 0
  exact Layout.getD_nonneg hall k

/-- The room for a piece is as wide as its text. -/
theorem length_shown_le {e : Example} {k : Nat} {piece : Piece} (h : e.pieces[k]? = some piece) :
    piece.shown.length ≤ e.lengths.getD k 0 := by
  obtain ⟨hk, rfl⟩ := List.getElem?_eq_some_iff.mp h
  rw [lengths, List.getD_eq_getElem?_getD, List.getElem?_append_left (by simpa using hk),
    List.getElem?_map, List.getElem?_eq_getElem hk]
  cases e.pieces[k] with
  | symbol value => exact Int.le_refl _
  | epsilon => decide

namespace Laid

variable {e : Example} {P : List Int}

theorem length_eq (laid : e.Laid P) : P.length = e.pieces.length + 1 := by
  rw [laid.suits.length_eq, length_lengths]

theorem getElem?_columns (laid : e.Laid P) {k : Nat} (hk : k ≤ e.pieces.length) :
    P[k]? = some (P.getD k 0) := by
  have hlt : k < P.length := by
    rw [laid.length_eq]
    omega
  rw [List.getD_eq_getElem?_getD, List.getElem?_eq_getElem hlt, Option.getD_some]

theorem le (laid : e.Laid P) {i j : Nat} (hij : i ≤ j) (hj : j ≤ e.pieces.length) :
    P.getD i 0 ≤ P.getD j 0 := by
  apply laid.suits.apart.le e.getD_lengths_nonneg hij
  rw [laid.length_eq]
  omega

theorem nonneg (laid : e.Laid P) {i : Nat} (hi : i ≤ e.pieces.length) : 0 ≤ P.getD i 0 := by
  have hle := laid.le (Nat.zero_le i) hi
  rwa [laid.suits.first_eq] at hle

theorem getD_eq_width (laid : e.Laid P) : P.getD e.pieces.length 0 = e.width P :=
  (Int.toNat_of_nonneg (laid.nonneg (Nat.le_refl _))).symm

/-- A blank or more stands between a piece and the next one. -/
theorem add_lt (laid : e.Laid P) {k : Nat} {piece : Piece} (h : e.pieces[k]? = some piece) :
    P.getD k 0 + piece.shown.length < P.getD (k + 1) 0 := by
  have hk : k < e.pieces.length := (List.getElem?_eq_some_iff.mp h).1
  have hapart := laid.suits.apart k (by rw [laid.length_eq]; omega)
  have hshown := length_shown_le h
  omega

theorem fits_ofReduction (laid : e.Laid P) {r : Reduction} (hr : r ∈ e.reductions)
    {row height : Nat} (hrow : 0 < row) (hlt : row < height) :
    (Bracket.ofReduction P row r).Fits height (e.width P) := by
  obtain ⟨hstart, hspan, hstop⟩ := laid.within r hr
  have hroom : Layout.labelRoom r + 1 ≤ P.getD r.stop.toNat 0 - P.getD r.start.toNat 0 :=
    laid.suits.hasRoom r hr
  have hle := laid.le (i := r.stop.toNat) (j := e.pieces.length) (by omega) (Nat.le_refl _)
  rw [laid.getD_eq_width] at hle
  refine ⟨laid.nonneg (by omega), ?_, ?_, hrow, hlt⟩
  · show P.getD r.start.toNat 0 + Layout.labelRoom r ≤ P.getD r.stop.toNat 0 - 1
    omega
  · show P.getD r.stop.toNat 0 - 1 ≤ e.width P
    omega

theorem fits (laid : e.Laid P) {b : Bracket} (hb : b ∈ e.bracketsOver P) :
    b.Fits (1 + 2 * e.reductions.length) (e.width P) := by
  obtain ⟨i, hi, rfl⟩ := List.mem_mapIdx.mp hb
  exact laid.fits_ofReduction (List.getElem_mem hi) (by omega) (by omega)

/-! ### Drawing makes the marks -/

/-- The places of the pieces. -/
theorem mem_zip_iff (laid : e.Laid P) {place : Piece × Int} :
    place ∈ e.pieces.zip P ↔
      ∃ (k : Nat) (piece : Piece), e.pieces[k]? = some piece ∧ place = (piece, P.getD k 0) := by
  have hcolumn : ∀ {k : Nat} {piece : Piece}, e.pieces[k]? = some piece →
      P[k]? = some (P.getD k 0) := fun hk =>
    laid.getElem?_columns (Nat.le_of_lt (List.getElem?_eq_some_iff.mp hk).1)
  constructor
  · intro h
    obtain ⟨k, hk⟩ := List.getElem?_of_mem h
    obtain ⟨hpiece, hP⟩ := List.getElem?_zip_eq_some.mp hk
    rw [hcolumn hpiece] at hP
    exact ⟨k, place.1, hpiece, Prod.ext rfl (Option.some.inj hP).symm⟩
  · rintro ⟨k, piece, hk, rfl⟩
    exact List.mem_of_getElem? (List.getElem?_zip_eq_some.mpr ⟨hk, hcolumn hk⟩)

theorem performs_draw (laid : e.Laid P) :
    Canvas.Performs (e.draw P (e.bracketsOver P)) (e.marks P) := by
  have hpieces : Canvas.Performs ((e.pieces.zip P).forM fun place =>
      Canvas.writeChars 0 place.2 place.1.shown.toList) (e.pieceMarks P) := by
    apply Canvas.Performs.forM
    intro place hplace
    obtain ⟨k, piece, hk, rfl⟩ := laid.mem_zip_iff.mp hplace
    have hnonneg := laid.nonneg (Nat.le_of_lt (List.getElem?_eq_some_iff.mp hk).1)
    have hcolumn : P.getD k 0 = (P.getD k 0).toNat := (Int.toNat_of_nonneg hnonneg).symm
    show Canvas.Performs (Canvas.writeChars 0 (P.getD k 0) piece.shown.toList) _
    rw [hcolumn]
    exact Canvas.Performs.writeChars 0 (P.getD k 0).toNat piece.shown.toList
  exact hpieces.bind ((Canvas.Performs.forM fun b hb => (laid.fits hb).performs_draw).bind
    (Canvas.Performs.forM fun b hb => (laid.fits hb).performs_drawLabel))

theorem mem_pieceMarks_iff (laid : e.Laid P) {m : Mark} :
    m ∈ e.pieceMarks P ↔
      ∃ (k : Nat) (piece : Piece) (j : Nat) (ch : Char), e.pieces[k]? = some piece ∧
        piece.shown.toList[j]? = some ch ∧ m = ⟨0, (P.getD k 0).toNat + j, .write ch⟩ := by
  simp only [pieceMarks, List.mem_flatMap, laid.mem_zip_iff, mem_textMarks_iff]
  constructor
  · rintro ⟨_, ⟨k, piece, hk, rfl⟩, j, ch, hch, rfl⟩
    exact ⟨k, piece, j, ch, hk, hch, rfl⟩
  · rintro ⟨k, piece, j, ch, hk, hch, rfl⟩
    exact ⟨_, ⟨k, piece, hk, rfl⟩, j, ch, hch, rfl⟩

/-- No mark lies outside the canvas. -/
theorem bounds_of_mem_marks (laid : e.Laid P) {m : Mark} (hm : m ∈ e.marks P) :
    m.row < 1 + 2 * e.reductions.length ∧ m.column < e.width P := by
  rcases List.mem_append.mp hm with hm | hm
  · obtain ⟨k, piece, j, ch, hk, hch, rfl⟩ := laid.mem_pieceMarks_iff.mp hm
    have hlt := (List.getElem?_eq_some_iff.mp hk).1
    have hj : j < piece.shown.toList.length := (List.getElem?_eq_some_iff.mp hch).1
    have hnonneg := laid.nonneg (Nat.le_of_lt hlt)
    have hnext := laid.add_lt hk
    have hle := laid.le (i := k + 1) hlt (Nat.le_refl _)
    rw [laid.getD_eq_width] at hle
    rw [String.length_toList] at hj
    constructor
    · show 0 < 1 + 2 * e.reductions.length
      omega
    · show (P.getD k 0).toNat + j < e.width P
      omega
  rcases List.mem_append.mp hm with hm | hm
  · obtain ⟨b, hb, hm⟩ := List.mem_flatMap.mp hm
    have hfits := laid.fits hb
    have hrow := hfits.row_lt
    have hright := hfits.right_lt
    have hleft := hfits.left_add_le
    rcases Bracket.mem_strokes_iff.mp hm with ⟨_, _, hle, hcolumn | hcolumn⟩ | ⟨_, heq, _, hcolumn⟩
      <;> omega
  · obtain ⟨b, hb, hm⟩ := List.mem_flatMap.mp hm
    obtain ⟨k, ch, hch, rfl⟩ := mem_textMarks_iff.mp hm
    have hfits := laid.fits hb
    have hright := hfits.right_lt
    have hleft := hfits.left_add_le
    have hk : k < b.label.length := (List.getElem?_eq_some_iff.mp hch).1
    refine ⟨hfits.row_lt, ?_⟩
    show b.left + 2 + k < e.width P
    omega

/-- Marks of the diagram leave the canvas as large as it is. -/
theorem hasSize_markedAll (laid : e.Laid P) {ms : List Mark} (hms : ms ⊆ e.marks P) :
    ((Canvas.blank (1 + 2 * e.reductions.length : Nat) (e.width P)).markedAll ms).HasSize
      (1 + 2 * e.reductions.length) (e.width P) := by
  have hheight := Canvas.height_blank (1 + 2 * e.reductions.length) (e.width P)
  constructor
  · rw [Canvas.height_markedAll, hheight]
    intro m hm
    rw [hheight]
    exact (laid.bounds_of_mem_marks (hms hm)).1
  · intro r hr
    rw [Canvas.width_markedAll, Canvas.width_blank _ _ hr]
    intro m hm
    obtain ⟨hrow, hcolumn⟩ := laid.bounds_of_mem_marks (hms hm)
    rwa [Canvas.width_blank _ _ hrow]

theorem height_drawn (laid : e.Laid P) : (e.drawn P).height = 1 + 2 * e.reductions.length :=
  (laid.hasSize_markedAll (List.Subset.refl _)).height_eq

theorem width_drawn (laid : e.Laid P) {r : Nat} (hr : r < 1 + 2 * e.reductions.length) :
    (e.drawn P).width r = e.width P :=
  (laid.hasSize_markedAll (List.Subset.refl _)).width_eq r hr

/-- Marks of the diagram need no room that the canvas does not have. -/
theorem admits_of_mem_marks (laid : e.Laid P) {m : Mark} (hm : m ∈ e.marks P) :
    (Canvas.blank (1 + 2 * e.reductions.length : Nat) (e.width P)).Admits m.row m.column := by
  obtain ⟨hrow, hcolumn⟩ := laid.bounds_of_mem_marks hm
  apply Canvas.admits_of_lt
  rwa [Canvas.width_blank _ _ hrow]

theorem draw_eq_ok (laid : e.Laid P) :
    e.draw P (e.bracketsOver P) (Canvas.blank (1 + 2 * e.reductions.length : Nat) (e.width P)) =
      .ok () (e.drawn P) :=
  laid.performs_draw.makes _ fun _ => laid.admits_of_mem_marks

theorem brackets_eq_ok (laid : e.Laid P) : e.brackets = .ok (e.bracketsOver P) := by
  have hcolumns : e.pieces.length < P.length := by
    rw [laid.length_eq]
    omega
  unfold brackets
  rw [laid.columns_eq]
  exact Bracket.ofReductions_eq_ok hcolumns laid.within 2

/-- An example whose reductions are over pieces that there are has a diagram. -/
theorem diagram_eq_ok (laid : e.Laid P) : e.diagram = .ok (e.drawn P).lines := by
  have hP : e.columns.mapError DiagramError.layout = .ok P := by
    rw [laid.columns_eq]
    rfl
  have hbrackets : (Bracket.ofReductions P 2 e.reductions).mapError DiagramError.layout =
      .ok (e.bracketsOver P) := by
    rw [Bracket.ofReductions_eq_ok (by rw [laid.length_eq]; omega) laid.within]
    rfl
  have hlast : P.getLast?.getD 0 = e.width P := by
    rw [List.getLast?_eq_getElem?, ← List.getD_eq_getElem?_getD, laid.length_eq,
      Nat.add_sub_cancel, laid.getD_eq_width]
  have hsize : Canvas.blank (1 + 2 * e.reductions.length) (P.getLast?.getD 0) =
      Canvas.blank (1 + 2 * e.reductions.length : Nat) (e.width P) := by
    rw [hlast]
    rfl
  rw [diagram, hP]
  show (Bracket.ofReductions P 2 e.reductions).mapError DiagramError.layout >>= _ = _
  rw [hbrackets]
  simp only [bind, Except.bind, hsize, laid.draw_eq_ok]
  rfl

/-! ### The cells of the diagram -/

theorem cell_drawn (e : Example) (P : List Int) (r c : Nat) :
    (e.drawn P).cell r c =
      touched ' ' (touches (e.pieceMarks P) r c ++
        (touches (e.strokeMarks P) r c ++ touches (e.labelMarks P) r c)) := by
  rw [drawn, Canvas.cell_markedAll, Canvas.cell_blank, marks, touches_append, touches_append]

/-- Brackets are drawn below the first row. -/
theorem row_pos_of_mem_brackets {m : Mark}
    (hm : m ∈ e.strokeMarks P ∨ m ∈ e.labelMarks P) : 0 < m.row := by
  have hbracket : ∀ b ∈ e.bracketsOver P, 0 < b.row := by
    intro b hb
    obtain ⟨i, hi, rfl⟩ := List.mem_mapIdx.mp hb
    show 0 < 2 + 2 * i
    omega
  rcases hm with hm | hm
  · obtain ⟨b, hb, hm⟩ := List.mem_flatMap.mp hm
    have hpos := hbracket b hb
    rcases Bracket.mem_strokes_iff.mp hm with ⟨_, hrow, _⟩ | ⟨_, hrow, _⟩ <;> omega
  · obtain ⟨b, hb, hm⟩ := List.mem_flatMap.mp hm
    obtain ⟨k, ch, _, rfl⟩ := mem_textMarks_iff.mp hm
    exact hbracket b hb

/-- In the first row there is nothing but the pieces. -/
theorem cell_zero (c : Nat) :
    (e.drawn P).cell 0 c = touched ' ' (touches (e.pieceMarks P) 0 c) := by
  have hstrokes : touches (e.strokeMarks P) 0 c = [] := by
    apply touches_eq_nil
    intro m hm ⟨hrow, _⟩
    exact absurd (row_pos_of_mem_brackets (.inl hm)) (by omega)
  have hlabels : touches (e.labelMarks P) 0 c = [] := by
    apply touches_eq_nil
    intro m hm ⟨hrow, _⟩
    exact absurd (row_pos_of_mem_brackets (.inr hm)) (by omega)
  rw [cell_drawn, hstrokes, hlabels, List.append_nil, List.append_nil]

/-- Below the first row there are no pieces. -/
theorem cell_pos (laid : e.Laid P) {r : Nat} (hr : 0 < r) (c : Nat) :
    (e.drawn P).cell r c =
      touched ' ' (touches (e.strokeMarks P) r c ++ touches (e.labelMarks P) r c) := by
  have hpieces : touches (e.pieceMarks P) r c = [] := by
    apply touches_eq_nil
    intro m hm ⟨hrow, _⟩
    obtain ⟨k, piece, j, ch, _, _, rfl⟩ := laid.mem_pieceMarks_iff.mp hm
    exact absurd hrow (Nat.ne_of_lt hr)
  rw [cell_drawn, hpieces, List.nil_append]

/-- No column belongs to two pieces. -/
theorem piece_unique (laid : e.Laid P) {k k' : Nat} {piece piece' : Piece} {c : Int}
    (h : e.pieces[k]? = some piece) (h' : e.pieces[k']? = some piece')
    (hc : P.getD k 0 ≤ c ∧ c < P.getD (k + 1) 0)
    (hc' : P.getD k' 0 ≤ c ∧ c < P.getD (k' + 1) 0) : k = k' := by
  have hk := (List.getElem?_eq_some_iff.mp h).1
  have hk' := (List.getElem?_eq_some_iff.mp h').1
  rcases Nat.lt_trichotomy k k' with hlt | heq | hlt
  · have hle := laid.le (i := k + 1) hlt (Nat.le_of_lt hk')
    omega
  · exact heq
  · have hle := laid.le (i := k' + 1) hlt (Nat.le_of_lt hk)
    omega

/-- What touches a column that belongs to a piece is a character of that piece. -/
theorem exists_of_mem_touches (laid : e.Laid P) {k : Nat} {piece : Piece} {c : Nat} {t : Touch}
    (h : e.pieces[k]? = some piece) (hc : P.getD k 0 ≤ c ∧ (c : Int) < P.getD (k + 1) 0)
    (ht : t ∈ touches (e.pieceMarks P) 0 c) :
    ∃ j ch, piece.shown.toList[j]? = some ch ∧ c = (P.getD k 0).toNat + j ∧ t = .write ch := by
  obtain ⟨k', piece', j, ch, hk', hch, heq⟩ := laid.mem_pieceMarks_iff.mp (mem_touches_iff.mp ht)
  obtain ⟨_, rfl, rfl⟩ := Mark.mk.inj heq
  have hlt' := (List.getElem?_eq_some_iff.mp hk').1
  have hj : j < piece'.shown.toList.length := (List.getElem?_eq_some_iff.mp hch).1
  have hnonneg := laid.nonneg (Nat.le_of_lt hlt')
  have hnext := laid.add_lt hk'
  rw [String.length_toList] at hj
  obtain rfl := laid.piece_unique h hk' hc (by omega)
  obtain rfl := Option.some.inj (h.symm.trans hk')
  exact ⟨j, ch, hch, rfl, rfl⟩

/-- A piece is shown from its column on. -/
theorem cell_piece (laid : e.Laid P) {k : Nat} {piece : Piece} (h : e.pieces[k]? = some piece)
    {j : Nat} {ch : Char} (hch : piece.shown.toList[j]? = some ch) :
    (e.drawn P).cell 0 ((P.getD k 0).toNat + j) = ch := by
  have hlt := (List.getElem?_eq_some_iff.mp h).1
  have hj : j < piece.shown.toList.length := (List.getElem?_eq_some_iff.mp hch).1
  have hnonneg := laid.nonneg (Nat.le_of_lt hlt)
  have hnext := laid.add_lt h
  rw [String.length_toList] at hj
  have hmem : Touch.write ch ∈ touches (e.pieceMarks P) 0 ((P.getD k 0).toNat + j) :=
    mem_touches_iff.mpr (laid.mem_pieceMarks_iff.mpr ⟨k, piece, j, ch, h, hch, rfl⟩)
  rw [cell_zero]
  apply Canvas.touched_writes (List.ne_nil_of_mem hmem)
  intro t ht
  obtain ⟨j', ch', hch', hcolumn, rfl⟩ := laid.exists_of_mem_touches h (by omega) ht
  obtain rfl : j = j' := by omega
  rw [Option.some.inj (hch.symm.trans hch')]

/-- Between a piece and the next one the row is blank. -/
theorem cell_gap (laid : e.Laid P) {k : Nat} {piece : Piece} (h : e.pieces[k]? = some piece)
    {c : Nat} (hc : P.getD k 0 + piece.shown.length ≤ c) (hnext : (c : Int) < P.getD (k + 1) 0) :
    (e.drawn P).cell 0 c = ' ' := by
  have hnone : touches (e.pieceMarks P) 0 c = [] := by
    apply List.eq_nil_iff_forall_not_mem.mpr
    intro t ht
    obtain ⟨j, ch, hch, rfl, rfl⟩ := laid.exists_of_mem_touches h (by omega) ht
    have hj : j < piece.shown.toList.length := (List.getElem?_eq_some_iff.mp hch).1
    have hnonneg := laid.nonneg (Nat.le_of_lt (List.getElem?_eq_some_iff.mp h).1)
    rw [String.length_toList] at hj
    omega
  rw [cell_zero, hnone]
  rfl

/-- Different brackets have different rows. -/
theorem bracket_unique {b b' : Bracket} (hb : b ∈ e.bracketsOver P) (hb' : b' ∈ e.bracketsOver P)
    (hrow : b.row = b'.row) : b = b' := by
  obtain ⟨i, hi, rfl⟩ := List.mem_mapIdx.mp hb
  obtain ⟨j, hj, rfl⟩ := List.mem_mapIdx.mp hb'
  replace hrow : 2 + 2 * i = 2 + 2 * j := hrow
  obtain rfl : i = j := by omega
  rfl

/-- A label is shown in the row of its bracket, after the end and a dash. -/
theorem cell_label (laid : e.Laid P) {b : Bracket} (hb : b ∈ e.bracketsOver P) {j : Nat} {ch : Char}
    (hch : b.label[j]? = some ch) : (e.drawn P).cell b.row (b.left + 2 + j) = ch := by
  have hmem : Touch.write ch ∈ touches (e.labelMarks P) b.row (b.left + 2 + j) :=
    mem_touches_iff.mpr (List.mem_flatMap.mpr ⟨b, hb, mem_textMarks_iff.mpr ⟨j, ch, hch, rfl⟩⟩)
  rw [laid.cell_pos (laid.fits hb).row_pos, touched_append]
  apply Canvas.touched_writes (List.ne_nil_of_mem hmem)
  intro t ht
  obtain ⟨b', hb', hm⟩ := List.mem_flatMap.mp (mem_touches_iff.mp ht)
  obtain ⟨j', ch', hch', heq⟩ := mem_textMarks_iff.mp hm
  obtain ⟨hrow, hcolumn, rfl⟩ := Mark.mk.inj heq
  obtain rfl := bracket_unique hb hb' hrow
  obtain rfl : j = j' := by omega
  rw [Option.some.inj (hch.symm.trans hch')]

/-- Below the first row, a cell that no label covers holds what the strokes through it leave. -/
theorem cell_strokes (laid : e.Laid P) {r c : Nat} (hr : 0 < r)
    (hlabel : ∀ b ∈ e.bracketsOver P, b.row = r →
      ¬ (b.left + 2 ≤ c ∧ c < b.left + 2 + b.label.length)) :
    (e.drawn P).cell r c = Canvas.stroked ' '
      (∃ b ∈ e.bracketsOver P, r ≤ b.row ∧ (c = b.left ∨ c = b.right))
      (∃ b ∈ e.bracketsOver P, r = b.row ∧ b.left ≤ c ∧ c ≤ b.right) := by
  have hnone : touches (e.labelMarks P) r c = [] := by
    apply touches_eq_nil
    intro m hm ⟨hrow, hcolumn⟩
    obtain ⟨b, hb, hm⟩ := List.mem_flatMap.mp hm
    obtain ⟨j, ch, hch, rfl⟩ := mem_textMarks_iff.mp hm
    have hj : j < b.label.length := (List.getElem?_eq_some_iff.mp hch).1
    replace hcolumn : b.left + 2 + j = c := hcolumn
    exact hlabel b hb hrow (by omega)
  -- What is left are strokes, and of these it only matters which kinds there are.
  have hmem : ∀ {t}, t ∈ touches (e.strokeMarks P) r c ↔
      ∃ b ∈ e.bracketsOver P, (t = .down ∧ 1 ≤ r ∧ r ≤ b.row ∧ (c = b.left ∨ c = b.right)) ∨
        (t = .along ∧ r = b.row ∧ b.left ≤ c ∧ c ≤ b.right) := by
    intro t
    rw [mem_touches_iff, strokeMarks, List.mem_flatMap]
    simp only [Bracket.mem_strokes_iff]
  have hstrokes : ∀ t ∈ touches (e.strokeMarks P) r c, t = .down ∨ t = .along := by
    intro t ht
    obtain ⟨b, _, ⟨rfl, _⟩ | ⟨rfl, _⟩⟩ := hmem.mp ht
    · exact .inl rfl
    · exact .inr rfl
  have hpos : 1 ≤ r := hr
  have hfold := Canvas.touched_strokes hstrokes ' ' false false
  rw [laid.cell_pos hr, hnone, List.append_nil]
  refine hfold.trans ?_
  simp only [Bool.false_or, hmem, reduceCtorEq, false_and, or_false, false_or, true_and, hpos]

end Laid

end Example

end GrammarConflict
