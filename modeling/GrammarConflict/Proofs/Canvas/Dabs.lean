import GrammarConflict.Proofs.Canvas.Marks

/-!
# Changes of a canvas, cell by cell

A canvas is changed by setting a cell, by writing texts or characters along a row, or by a `Stroke`;
all of these are a `Change`.  Each changes one cell after another, and what is done to one cell is a
`Dab`.  A change is its dabs and nothing else, at any coordinates and with any texts
(`Change.draw_eq_forM`).

A dab `OnGrid` is at coordinates that count from the start, and puts one character.  It makes the
mark at its place (`Dab.OnGrid.draw_eq_make`), so a change made of such dabs performs their marks
(`Change.performs`).
-/

namespace GrammarConflict.Canvas

/-! ### What is done to one cell -/

/-- What a cell is touched with: a text, which has to be one character, or a stroke. -/
inductive Pen where
  | text (text : String)
  | down
  | along

/-- A touch of one cell, at any coordinates. -/
structure Dab where
  row : Int
  column : Int
  pen : Pen

/-- Touches the cell. -/
def Dab.draw (dab : Dab) : Draw Unit :=
  match dab.pen with
  | .text text => set dab.row dab.column text
  | .down => cross crossDown dab.row dab.column
  | .along => cross crossAlong dab.row dab.column

/-! ### Changes -/

/-- A stroke through cells of a column or of a row. -/
inductive Stroke where
  | down (rows : Stride) (column : Int)
  | along (row : Int) (columns : Stride)

namespace Stroke

/-- Draws the stroke. -/
def draw : Stroke → Draw Unit
  | down rows column => strokeDown rows column
  | along row columns => strokeAlong row columns

/-- The touches of a stroke in order. -/
def dabs : Stroke → List Dab
  | down rows column => rows.toList.map (⟨·, column, .down⟩)
  | along row columns => columns.toList.map (⟨row, ·, .along⟩)

/-- A stroke touches one cell after another. -/
theorem draw_eq_forM (stroke : Stroke) : stroke.draw = forM stroke.dabs Dab.draw := by
  cases stroke with
  | down rows column =>
    rw [draw, strokeDown, Stride.forM_eq_forM_toList, dabs, List.forM_map]
    rfl
  | along row columns =>
    rw [draw, strokeAlong, Stride.forM_eq_forM_toList, dabs, List.forM_map]
    rfl

end Stroke

/-- A change of a canvas. -/
inductive Change where
  | set (row column : Int) (text : String)
  | writeCells (row column : Int) (texts : List String)
  | writeChars (row column : Int) (chars : List Char)
  | stroke (stroke : Stroke)

/-- The touches of texts that go into the cells of a row, from a column on. -/
def textDabs (row column : Int) (texts : List String) : List Dab :=
  texts.mapIdx fun k text => ⟨row, column + k, .text text⟩

theorem textDabs_cons (row column : Int) (text : String) (rest : List String) :
    textDabs row column (text :: rest) =
      ⟨row, column, .text text⟩ :: textDabs row (column + 1) rest := by
  have shifted : ∀ k : Nat, column + (k + 1 : Nat) = column + 1 + k := by omega
  simp only [textDabs, List.mapIdx_cons, shifted, Int.natCast_zero, Int.add_zero]

theorem writeCells_eq_forM (row column : Int) (texts : List String) :
    writeCells row column texts = forM (textDabs row column texts) Dab.draw := by
  induction texts generalizing column with
  | nil => rfl
  | cons text rest ih =>
    rw [textDabs_cons, List.forM_cons, ← ih]
    rfl

theorem set_singleton (row column : Int) (c : Char) :
    set row column (String.singleton c) = put row column c := by
  rw [set, String.toList_singleton]

/-- Characters are texts of one character each. -/
theorem writeChars_eq_writeCells (row column : Int) (chars : List Char) :
    writeChars row column chars = writeCells row column (chars.map String.singleton) := by
  induction chars generalizing column with
  | nil => rfl
  | cons c rest ih =>
    rw [List.map_cons, writeChars, writeCells, set_singleton]
    exact congrArg _ (funext fun _ => ih (column + 1))

namespace Change

/-- Makes the change. -/
def draw : Change → Draw Unit
  | set row column text => Canvas.set row column text
  | writeCells row column texts => Canvas.writeCells row column texts
  | writeChars row column chars => Canvas.writeChars row column chars
  | stroke s => s.draw

/-- The touches of a change in order. -/
def dabs : Change → List Dab
  | set row column text => [⟨row, column, .text text⟩]
  | writeCells row column texts => textDabs row column texts
  | writeChars row column chars => textDabs row column (chars.map String.singleton)
  | stroke s => s.dabs

/-- **A change touches one cell after another**, and does nothing else. -/
theorem draw_eq_forM (change : Change) : change.draw = forM change.dabs Dab.draw := by
  cases change with
  | set row column text =>
    rw [dabs, List.forM_cons, List.forM_nil, bind_pure_unit]
    rfl
  | writeCells row column texts => exact writeCells_eq_forM row column texts
  | writeChars row column chars =>
    exact (writeChars_eq_writeCells row column chars).trans (writeCells_eq_forM row column _)
  | stroke s => exact s.draw_eq_forM

end Change

/-! ### On the grid -/

/-- What is done to the cell, if the text is one character. -/
def Pen.touch : Pen → Touch
  | .text t => .write (t.toList.headD ' ')
  | .down => .down
  | .along => .along

namespace Dab

/-- The cell counts from the start, and a text is one character. -/
structure OnGrid (dab : Dab) : Prop where
  row_nonneg : 0 ≤ dab.row
  column_nonneg : 0 ≤ dab.column
  single : ∀ text, dab.pen = .text text → text.length = 1

instance : DecidablePred OnGrid
  | ⟨row, column, .text text⟩ =>
    decidable_of_iff (0 ≤ row ∧ 0 ≤ column ∧ text.length = 1)
      ⟨fun ⟨hrow, hcolumn, hsingle⟩ => ⟨hrow, hcolumn, fun _ heq => Pen.text.inj heq ▸ hsingle⟩,
        fun h => ⟨h.row_nonneg, h.column_nonneg, h.single text rfl⟩⟩
  | ⟨row, column, .down⟩ | ⟨row, column, .along⟩ =>
    decidable_of_iff (0 ≤ row ∧ 0 ≤ column)
      ⟨fun ⟨hrow, hcolumn⟩ => ⟨hrow, hcolumn, fun _ heq => nomatch heq⟩,
        fun h => ⟨h.row_nonneg, h.column_nonneg⟩⟩

/-- The mark that is made. -/
def mark (dab : Dab) : Mark :=
  ⟨dab.row.toNat, dab.column.toNat, dab.pen.touch⟩

theorem OnGrid.draw_eq_make {dab : Dab} (h : dab.OnGrid) : dab.draw = make dab.mark := by
  obtain ⟨row, column, pen⟩ := dab
  obtain ⟨r, rfl⟩ := Int.eq_ofNat_of_zero_le h.row_nonneg
  obtain ⟨c, rfl⟩ := Int.eq_ofNat_of_zero_le h.column_nonneg
  cases pen with
  | text text =>
    obtain ⟨ch, hch⟩ := List.length_eq_one_iff.mp (h.single text rfl)
    simp only [draw, make, mark, Pen.touch, Canvas.set, hch]
    rfl
  | down => rfl
  | along => rfl

end Dab

/-- Touches on the grid make their marks. -/
theorem performs_dabs {dabs : List Dab} (h : ∀ dab ∈ dabs, dab.OnGrid) :
    Performs (forM dabs Dab.draw) (dabs.map Dab.mark) := by
  rw [List.map_eq_flatMap]
  refine Performs.forM fun dab hdab => ?_
  rw [(h dab hdab).draw_eq_make]
  exact Performs.single _

theorem Change.performs {change : Change} (h : ∀ dab ∈ change.dabs, dab.OnGrid) :
    Performs change.draw (change.dabs.map Dab.mark) := by
  rw [change.draw_eq_forM]
  exact performs_dabs h

end GrammarConflict.Canvas
