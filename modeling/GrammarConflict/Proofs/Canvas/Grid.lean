import GrammarConflict.Proofs.Attempt
import GrammarConflict.Proofs.Canvas.Room
import Mathlib.Data.List.DropRight

/-!
# A canvas as an unbounded grid

Seen from its cells and its lines, a canvas is an unbounded grid that starts all blank (`Grid`):
what is read from it is what the grid holds, and its lines are the rows of the grid without the
blanks at their ends (`Trims`).  The size that it starts with is only a hint (`run_on_grid`): the
lines are as many as the first rows and the rows drawn on take, and the first length of the rows
does not show at all.

The proof keeps one relation between grid and canvas, that they have the same cells (`ShownOn`), and
takes the size of the canvas from the marks.  Want of room is the one thing that stops a canvas and
not a grid (`blank_beyond_word`).  It does not depend on the size at the start either: steps can be
taken just when the cells that they draw on can be reached.
-/

namespace GrammarConflict.Canvas

/-! ### Rows without the blanks at their ends -/

/-- The text is the row without the blanks at its end. -/
structure Trims (row : Nat → Char) (text : String) : Prop where
  shows : ∀ k ch, text.toList[k]? = some ch → row k = ch
  blank : ∀ k, text.length ≤ k → Text.isBlank (row k) = true
  last : ∀ ch, text.toList.getLast? = some ch → Text.isBlank ch = false

section

variable {row : Nat → Char} {text text' : String}

theorem Trims.length_le (h : Trims row text) (h' : Trims row text') :
    text'.length ≤ text.length := by
  by_contra hlt
  -- The last character of the longer text is one of the blanks behind the other.
  have hk : text'.length - 1 < text'.toList.length := by
    rw [String.length_toList]
    omega
  have hget : text'.toList[text'.length - 1]? = some text'.toList[text'.length - 1] :=
    List.getElem?_eq_getElem hk
  have hlast : text'.toList.getLast? = some text'.toList[text'.length - 1] := by
    rw [List.getLast?_eq_getElem?, String.length_toList, hget]
  have hblank : Text.isBlank (row (text'.length - 1)) = true := h.blank _ (by omega)
  rw [h'.shows _ _ hget, h'.last _ hlast] at hblank
  cases hblank

/-- Such a text is determined by the row. -/
theorem Trims.unique (h : Trims row text) (h' : Trims row text') : text = text' := by
  have hlength : text.toList.length = text'.toList.length := by
    rw [String.length_toList, String.length_toList]
    exact Nat.le_antisymm (h'.length_le h) (h.length_le h')
  refine String.toList_injective (List.ext_getElem hlength fun k hk hk' => ?_)
  rw [← h.shows k _ (List.getElem?_eq_getElem hk), ← h'.shows k _ (List.getElem?_eq_getElem hk')]

theorem trims_trimEnd {n : Nat} (hblank : ∀ k, n ≤ k → Text.isBlank (row k) = true) :
    Trims row (String.ofList (Text.trimEnd ((List.range' 0 n).map row))) := by
  generalize hcells : (List.range' 0 n).map row = cells
  have hlength : cells.length = n := by rw [← hcells, List.length_map, List.length_range']
  have hrow (k : Nat) (hk : k < n) : cells[k]? = some (row k) := by
    rw [← hcells, List.getElem?_map, List.getElem?_range' hk, Option.map_some, Nat.zero_add,
      Nat.one_mul]
  have happend : Text.trimEnd cells ++ cells.rtakeWhile Text.isBlank = cells :=
    List.rdropWhile_append_rtakeWhile
  constructor
  · intro k ch hch
    rw [String.toList_ofList] at hch
    have hget : cells[k]? = some ch := by
      rw [← happend, List.getElem?_append_left (List.getElem?_eq_some_iff.mp hch).1, hch]
    have hk : k < n := hlength ▸ (List.getElem?_eq_some_iff.mp hget).1
    exact Option.some.inj ((hrow k hk).symm.trans hget)
  · intro k hk
    rw [String.length_ofList] at hk
    by_cases hn : n ≤ k
    · exact hblank k hn
    · have hget := hrow k (Nat.lt_of_not_le hn)
      rw [← happend, List.getElem?_append_right hk] at hget
      exact List.mem_rtakeWhile_imp (List.mem_of_getElem? hget)
  · intro ch hch
    rw [String.toList_ofList] at hch
    exact Text.isBlank_of_getLast?_trimEnd hch

end

/-! ### Grids -/

/-- An unbounded grid of characters. -/
abbrev Grid :=
  Int → Int → Char

/-- What is done with a canvas: it is changed, or a cell is read. -/
inductive Step where
  | change (change : Change)
  | get (row column : Int)

namespace Grid

/-- The grid that is blank everywhere. -/
def blank : Grid :=
  fun _ _ => ' '

/-- The grid after a touch of one cell. -/
def touch (grid : Grid) (dab : Dab) : Grid := fun row column =>
  if row = dab.row ∧ column = dab.column then dab.pen.touch.leaves (grid row column)
  else grid row column

/-- The grid after a step. -/
def step (grid : Grid) : Step → Grid
  | .change c => c.dabs.foldl touch grid
  | .get _ _ => grid

/-- The grid after one step after another. -/
def after (grid : Grid) (steps : List Step) : Grid :=
  steps.foldl step grid

/-- What a step answers: a character if it reads one. -/
def answer (grid : Grid) : Step → Option Char
  | .change _ => none
  | .get row column => some (grid row column)

/-- What steps answer, one after another. -/
def answers : Grid → List Step → List (Option Char)
  | _, [] => []
  | grid, step :: rest => grid.answer step :: (grid.step step).answers rest

end Grid

/-! ### Steps on a canvas -/

namespace Step

/-- Takes the step. -/
def run : Step → Draw (Option Char)
  | change c => do
    c.draw
    return none
  | get row column => do
    return some (← read row column)

/-- The coordinates count from the start, and what is put in a cell is one character. -/
def OnGrid : Step → Prop
  | change c => ∀ dab ∈ c.dabs, dab.OnGrid
  | get row column => 0 ≤ row ∧ 0 ≤ column

instance : DecidablePred OnGrid
  | change c => inferInstanceAs (Decidable (∀ dab ∈ c.dabs, dab.OnGrid))
  | get row column => inferInstanceAs (Decidable (0 ≤ row ∧ 0 ≤ column))

/-- The marks that a step makes. -/
def marks : Step → List Mark
  | change c => c.dabs.map Dab.mark
  | get _ _ => []

end Step

/-- Takes one step after another. -/
def run (steps : List Step) : Draw (List (Option Char)) :=
  steps.mapM Step.run

/-- The marks that steps make. -/
def drawn (steps : List Step) : List Mark :=
  steps.flatMap Step.marks

/-! ### The same cells -/

/-- The cells of the canvas are those of the grid. -/
def Grid.ShownOn (grid : Grid) (canvas : Canvas) : Prop :=
  ∀ r c : Nat, canvas.cell r c = grid r c

theorem Grid.shownOn_blank (rows columns : Int) :
    Grid.blank.ShownOn (Canvas.blank rows columns) := by
  intro r c
  rw [blank_eq_toNat, cell_blank]
  rfl

namespace Grid.ShownOn

variable {grid : Grid} {canvas : Canvas}

theorem marked (h : grid.ShownOn canvas) {dab : Dab} (onGrid : dab.OnGrid) :
    (grid.touch dab).ShownOn (canvas.marked dab.mark) := by
  obtain ⟨row, column, pen⟩ := dab
  obtain ⟨r, rfl⟩ := Int.eq_ofNat_of_zero_le onGrid.row_nonneg
  obtain ⟨c, rfl⟩ := Int.eq_ofNat_of_zero_le onGrid.column_nonneg
  intro r' c'
  simp only [Canvas.marked, cell_plot, touch, Dab.mark, Int.toNat_natCast, Int.natCast_inj, h r' c']
  split
  · next heq =>
    obtain ⟨rfl, rfl⟩ := heq
    rw [h]
  · rfl

theorem markedAll {dabs : List Dab} (h : grid.ShownOn canvas) (onGrid : ∀ dab ∈ dabs, dab.OnGrid) :
    (dabs.foldl touch grid).ShownOn (canvas.markedAll (dabs.map Dab.mark)) := by
  induction dabs generalizing grid canvas with
  | nil => exact h
  | cons dab dabs ih =>
    obtain ⟨hdab, hdabs⟩ := List.forall_mem_cons.mp onGrid
    exact ih (h.marked hdab) hdabs

theorem step (h : grid.ShownOn canvas) {step : Step} (onGrid : step.OnGrid) :
    (grid.step step).ShownOn (canvas.markedAll step.marks) := by
  cases step with
  | change c => exact h.markedAll onGrid
  | get row column => exact h

theorem after {steps : List Step} (h : grid.ShownOn canvas) (onGrid : ∀ s ∈ steps, s.OnGrid) :
    (grid.after steps).ShownOn (canvas.markedAll (drawn steps)) := by
  induction steps generalizing grid canvas with
  | nil => exact h
  | cons s steps ih =>
    obtain ⟨hs, hsteps⟩ := List.forall_mem_cons.mp onGrid
    rw [drawn, List.flatMap_cons, markedAll_append]
    exact ih (h.step hs) hsteps

/-- The lines are the rows of the grid. -/
theorem trims_lines (h : grid.ShownOn canvas) (r : Nat) :
    Trims (fun c => grid r c) (canvas.lines.getD r "") := by
  have hcells : (fun c : Nat => grid r c) = canvas.cell r := funext fun c => (h r c).symm
  have hbeyond (c : Nat) (hc : canvas.width r ≤ c) : Text.isBlank (canvas.cell r c) = true := by
    rw [cell, Array.getD_eq_getD_getElem?, Array.getElem?_eq_none hc]
    rfl
  have htrims := trims_trimEnd hbeyond
  rw [hcells, List.getD_eq_getElem?_getD]
  by_cases hr : r < canvas.height
  · rw [getElem?_lines hr]
    exact htrims
  · have hwidth : canvas.width r = 0 := by
      rw [width, row, Array.getD_eq_getD_getElem?, Array.getElem?_eq_none (Nat.le_of_not_lt hr)]
      rfl
    rw [List.getElem?_eq_none (by rw [length_lines]; omega), Option.getD_none]
    rw [hwidth] at htrims
    exact htrims

end Grid.ShownOn

/-! ### Runs -/

section

variable {grid : Grid} {canvas : Canvas}

theorem Step.run_or_wantsRoom {step : Step} (onGrid : step.OnGrid) (shown : grid.ShownOn canvas) :
    (canvas.HasRoomFor step.marks ∧
      step.run canvas = .ok (grid.answer step) (canvas.markedAll step.marks)) ∨
    ¬ canvas.HasRoomFor step.marks ∧
      ∃ e canvas', step.run canvas = .error e canvas' ∧ e.WantsRoom := by
  cases step with
  | change c =>
    rcases (c.performs onGrid).makes_or_wantsRoom canvas with
      ⟨hroom, hok⟩ | ⟨hroom, e, canvas', herror, wants⟩
    · exact .inl ⟨hroom, bind_apply_eq_ok_iff.mpr ⟨(), _, hok, rfl⟩⟩
    · exact .inr ⟨hroom, e, canvas', bind_apply_eq_error_iff.mpr (.inl herror), wants⟩
  | get row column =>
    obtain ⟨hrow, hcolumn⟩ := onGrid
    obtain ⟨r, rfl⟩ := Int.eq_ofNat_of_zero_le hrow
    obtain ⟨c, rfl⟩ := Int.eq_ofNat_of_zero_le hcolumn
    refine .inl ⟨List.forall_mem_nil _, ?_⟩
    refine bind_apply_eq_ok_iff.mpr ⟨_, _, read_natCast canvas r c, ?_⟩
    rw [shown]
    rfl

/-- **Steps answer as on the grid**, as long as there is room for what they draw. -/
theorem run_or_wantsRoom {steps : List Step} (onGrid : ∀ s ∈ steps, s.OnGrid)
    (shown : grid.ShownOn canvas) :
    (canvas.HasRoomFor (drawn steps) ∧
      run steps canvas = .ok (grid.answers steps) (canvas.markedAll (drawn steps))) ∨
    ¬ canvas.HasRoomFor (drawn steps) ∧
      ∃ e canvas', run steps canvas = .error e canvas' ∧ e.WantsRoom := by
  induction steps generalizing grid canvas with
  | nil => exact .inl ⟨List.forall_mem_nil _, rfl⟩
  | cons s steps ih =>
    obtain ⟨hs, hsteps⟩ := List.forall_mem_cons.mp onGrid
    have hdrawn : drawn (s :: steps) = s.marks ++ drawn steps := List.flatMap_cons
    have hrun : run (s :: steps) =
        s.run >>= fun answer => run steps >>= fun answers => pure (answer :: answers) :=
      List.mapM_cons
    rw [hdrawn, hasRoomFor_append, markedAll_append, hrun]
    rcases s.run_or_wantsRoom hs shown with ⟨hroom, hok⟩ | ⟨hroom, e, canvas', herror, wants⟩
    · rw [and_iff_right hroom, ← hasRoomFor_markedAll_iff hroom]
      rcases ih hsteps (shown.step hs) with
        ⟨hrest, hrestok⟩ | ⟨hrest, e, canvas', hresterror, wants⟩
      · refine .inl ⟨hrest, bind_apply_eq_ok_iff.mpr ⟨_, _, hok, ?_⟩⟩
        exact bind_apply_eq_ok_iff.mpr ⟨_, _, hrestok, rfl⟩
      · refine .inr ⟨hrest, e, canvas', bind_apply_eq_error_iff.mpr (.inr ⟨_, _, hok, ?_⟩), wants⟩
        exact bind_apply_eq_error_iff.mpr (.inl hresterror)
    · exact .inr ⟨fun h => hroom h.1, e, canvas', bind_apply_eq_error_iff.mpr (.inl herror), wants⟩

end

/-! ### The size at the start -/

/-- A canvas can be made if it has no rows, or if no list of it would be too long. -/
theorem ofSize_eq_ok_iff {rows columns : Int} {canvas : Canvas} :
    ofSize rows columns = .ok canvas ↔ canvas = blank rows columns ∧
      (rows ≤ 0 ∨
        -SignedIndex.wordBound ≤ columns ∧ rows < lengthBound ∧ columns < lengthBound) := by
  have hword : SignedIndex.wordBound = 2 ^ 63 := rfl
  have hlength : lengthBound = 2 ^ 60 := rfl
  rw [ofSize, SignedIndex.fitsWord]
  split
  · next hrows => rw [and_iff_left (.inl hrows), Except.ok.injEq, eq_comm]
  · split
    · next hrows hwide =>
      rw [Bool.not_eq_true', decide_eq_false_iff_not] at hwide
      exact iff_of_false nofun fun h => by omega
    · split
      · exact iff_of_false nofun fun h => by omega
      · next hrows hword' hshort =>
        rw [Bool.not_eq_true', decide_eq_false_iff_not, not_not] at hword'
        rw [and_iff_left (.inr (by omega)), Except.ok.injEq, eq_comm]

theorem ofSize_eq_ok {rows columns : Int} {canvas : Canvas}
    (h : ofSize rows columns = .ok canvas) : canvas = blank rows columns :=
  (ofSize_eq_ok_iff.mp h).1

/-- Nothing but want of room stops a canvas from being made. -/
theorem wantsRoom_of_ofSize {rows columns : Int} {e : CanvasError}
    (h : ofSize rows columns = .error e) : e.WantsRoom := by
  rw [ofSize] at h
  split at h
  · cases h
  · split at h
    · cases h
      exact .inl rfl
    · split at h
      · cases h
        exact .inr rfl
      · cases h

/-- The lists of a canvas that can be made are not too long. -/
theorem hasRoomFor_ofSize_iff {rows columns : Int} {canvas : Canvas} {ms : List Mark}
    (made : ofSize rows columns = .ok canvas) :
    canvas.HasRoomFor ms ↔ ∀ m ∈ ms, Reachable m.row m.column := by
  have hlength : lengthBound = 2 ^ 60 := rfl
  obtain ⟨rfl, hsize⟩ := ofSize_eq_ok_iff.mp made
  rw [blank_eq_toNat]
  refine hasRoomFor_iff_of_lt ?_ fun r => ?_
  · rw [height_blank]
    omega
  · rw [width, row_blank]
    split
    · rw [Array.size_replicate]
      omega
    · show (0 : Int) < lengthBound
      omega

/-- What is answered and shown is told by the grid and by the number of rows at the start. -/
theorem run_shows_grid {rows columns : Int} {canvas canvas' : Canvas} {steps : List Step}
    {answers : List (Option Char)} (made : ofSize rows columns = .ok canvas)
    (onGrid : ∀ s ∈ steps, s.OnGrid) (hrun : run steps canvas = .ok answers canvas') :
    answers = Grid.blank.answers steps ∧
    canvas'.lines.length = max rows.toNat (rowsOf (drawn steps)) ∧
    ∀ r : Nat, Trims (fun c => Grid.blank.after steps r c) (canvas'.lines.getD r "") := by
  obtain rfl := ofSize_eq_ok made
  have shown := Grid.shownOn_blank rows columns
  rcases run_or_wantsRoom onGrid shown with ⟨-, hok⟩ | ⟨-, _, _, herror, -⟩
  · obtain ⟨rfl, rfl⟩ := EStateM.Result.ok.inj (hok.symm.trans hrun)
    refine ⟨rfl, ?_, (shown.after onGrid).trims_lines⟩
    rw [length_lines, height_markedAll_eq, blank_eq_toNat, height_blank]
  · exact nomatch herror.symm.trans hrun

/-- Steps can be taken just when the cells that they draw on can be reached, and nothing but want of
room stops them. -/
theorem runs_iff_reachable {rows columns : Int} {canvas : Canvas} {steps : List Step}
    (made : ofSize rows columns = .ok canvas) (onGrid : ∀ s ∈ steps, s.OnGrid) :
    ((∃ answers canvas', run steps canvas = .ok answers canvas') ↔
      ∀ m ∈ drawn steps, Reachable m.row m.column) ∧
    ∀ e canvas', run steps canvas = .error e canvas' → e.WantsRoom := by
  have shown : Grid.blank.ShownOn canvas := ofSize_eq_ok made ▸ Grid.shownOn_blank rows columns
  rw [← hasRoomFor_ofSize_iff made]
  rcases run_or_wantsRoom onGrid shown with ⟨hroom, hok⟩ | ⟨hroom, e, canvas', herror, wants⟩
  · exact ⟨iff_of_true ⟨_, _, hok⟩ hroom, fun e canvas' h => nomatch hok.symm.trans h⟩
  · refine ⟨iff_of_false ?_ hroom, fun e' canvas'' h => ?_⟩
    · rintro ⟨_, _, hok⟩
      exact nomatch herror.symm.trans hok
    · obtain ⟨rfl, -⟩ := EStateM.Result.error.inj (herror.symm.trans h)
      exact wants

/-- **A canvas is an unbounded grid**, as far as there is room.  A canvas can be made unless a list
would be too long, steps can be taken just when the cells that they draw on can be reached, whatever
the size at the start, and nothing but want of room stops either.  Steps that are taken answer what
they answer on the grid that starts all blank, and the lines are the rows of that grid without the
blanks at their ends: all that the canvas started with, and as many as were drawn on.  With another
size at the start they are taken as well and the answers are the same; the lines are the same but
for empty ones at the end, and the same altogether if only the length of the rows was another. -/
theorem run_on_grid (rows columns : Int) {steps : List Step} (onGrid : ∀ s ∈ steps, s.OnGrid) :
    (-SignedIndex.wordBound ≤ columns → rows < lengthBound → columns < lengthBound →
      ∃ canvas, ofSize rows columns = .ok canvas) ∧
    (∀ e, ofSize rows columns = .error e → e.WantsRoom) ∧
    ∀ canvas, ofSize rows columns = .ok canvas →
      ((∃ answers canvas', run steps canvas = .ok answers canvas') ↔
        ∀ m ∈ drawn steps, Reachable m.row m.column) ∧
      (∀ e canvas', run steps canvas = .error e canvas' → e.WantsRoom) ∧
      ∀ answers canvas', run steps canvas = .ok answers canvas' →
        answers = Grid.blank.answers steps ∧
        canvas'.lines.length = max rows.toNat (rowsOf (drawn steps)) ∧
        (∀ r : Nat, Trims (fun c => Grid.blank.after steps r c) (canvas'.lines.getD r "")) ∧
        ∀ rows₂ columns₂ canvas₂, ofSize rows₂ columns₂ = .ok canvas₂ →
          ∃ canvas₂', run steps canvas₂ = .ok answers canvas₂' ∧
            (∀ r, canvas₂'.lines.getD r "" = canvas'.lines.getD r "") ∧
            (rows₂ = rows → canvas₂'.lines = canvas'.lines) := by
  refine ⟨fun hleast hrows hcolumns => ?_, fun _ => wantsRoom_of_ofSize, fun canvas made => ?_⟩
  · exact ⟨_, ofSize_eq_ok_iff.mpr ⟨rfl, .inr ⟨hleast, hrows, hcolumns⟩⟩⟩
  obtain ⟨hruns, hstops⟩ := runs_iff_reachable made onGrid
  refine ⟨hruns, hstops, fun answers canvas' hrun => ?_⟩
  obtain ⟨hanswers, hlength, htrims⟩ := run_shows_grid made onGrid hrun
  refine ⟨hanswers, hlength, htrims, fun rows₂ columns₂ canvas₂ made₂ => ?_⟩
  -- Whether the steps can be taken is told by the steps alone.
  obtain ⟨answers₂, canvas₂', hrun₂⟩ :=
    (runs_iff_reachable made₂ onGrid).1.mpr (hruns.mp ⟨answers, canvas', hrun⟩)
  obtain ⟨hanswers₂, hlength₂, htrims₂⟩ := run_shows_grid made₂ onGrid hrun₂
  have hlines (r : Nat) : canvas₂'.lines.getD r "" = canvas'.lines.getD r "" :=
    (htrims₂ r).unique (htrims r)
  refine ⟨canvas₂', by rw [hrun₂, hanswers, hanswers₂], hlines, ?_⟩
  rintro rfl
  apply List.ext_getElem (hlength₂.trans hlength.symm)
  intro r hr hr'
  simpa only [List.getD_eq_getElem?_getD, List.getElem?_eq_getElem hr,
    List.getElem?_eq_getElem hr', Option.getD_some] using hlines r

/-- Text, a stroke through it and below the first rows, one across, and reading what is there and
beyond. -/
def gridSample : List Step :=
  [.change (.writeChars 0 1 ['a', 'b']), .change (.stroke (.down (.between 0 3) 2)),
    .change (.stroke (.along 1 (.between 1 4))), .get 1 2, .get 0 1, .get 7 7]

theorem run_on_grid_gridSample :
    ∃ canvas canvas₂, run gridSample (blank 4 2) =
        .ok [none, none, none, some '+', some 'a', some ' '] canvas ∧
      run gridSample (blank (-1) 9) =
        .ok [none, none, none, some '+', some 'a', some ' '] canvas₂ ∧
      canvas.lines.length = 4 ∧ canvas₂.lines.length = 3 ∧
      Trims (fun c => Grid.blank.after gridSample 1 c) (canvas.lines.getD 1 "") ∧
      ∀ r, canvas₂.lines.getD r "" = canvas.lines.getD r "" := by
  have onGrid : ∀ s ∈ gridSample, s.OnGrid := by decide +kernel
  have hreachable : ∀ m ∈ drawn gridSample, Reachable m.row m.column := by
    unfold Reachable
    decide +kernel
  have hanswers : Grid.blank.answers gridSample =
      [none, none, none, some '+', some 'a', some ' '] := by
    decide +kernel
  obtain ⟨hmakes, -, hgrid⟩ := run_on_grid 4 2 onGrid
  obtain ⟨hmakes₂, -, hgrid₂⟩ := run_on_grid (-1) 9 onGrid
  obtain ⟨start, made⟩ := hmakes (by decide) (by decide) (by decide)
  obtain ⟨start₂, made₂⟩ := hmakes₂ (by decide) (by decide) (by decide)
  obtain ⟨hruns, -, hshows⟩ := hgrid start made
  obtain ⟨-, -, hshows₂⟩ := hgrid₂ start₂ made₂
  obtain ⟨answers, canvas, hrun⟩ := hruns.mpr hreachable
  obtain ⟨rfl, hlength, htrims, hsizes⟩ := hshows _ _ hrun
  obtain ⟨canvas₂, hrun₂, hlines, -⟩ := hsizes _ _ _ made₂
  obtain ⟨-, hlength₂, -⟩ := hshows₂ _ _ hrun₂
  rw [ofSize_eq_ok made, hanswers] at hrun
  rw [ofSize_eq_ok made₂, hanswers] at hrun₂
  exact ⟨canvas, canvas₂, hrun, hrun₂, hlength, hlength₂, htrims 1, hlines⟩

/-- A blank in column 2^63 - 1 of the first row. -/
def beyondWordStep : Step :=
  .change (.set 0 9223372036854775807 " ")

/-- It is on the grid, where the row stays blank, and yet it cannot be put on the canvas. -/
theorem blank_beyond_word :
    beyondWordStep.OnGrid ∧
    Grid.blank.answers [beyondWordStep] = [none] ∧
    (∀ row column, Grid.blank.after [beyondWordStep] row column = ' ') ∧
    ofSize 0 0 = .ok (blank 0 0) ∧
    ∃ canvas', run [beyondWordStep] (blank 0 0) = .error .tooWide canvas' := by
  refine ⟨by decide +kernel, rfl, fun row column => ?_, rfl, ⟨#[#[]]⟩, rfl⟩
  show (if _ then _ else _) = _
  exact ite_self _

end GrammarConflict.Canvas
