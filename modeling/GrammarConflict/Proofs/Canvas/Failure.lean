import GrammarConflict.Proofs.Attempt
import GrammarConflict.Proofs.Canvas.Dabs

/-!
# What a change that fails leaves behind

A change fails at one of its cells.  The cells before that one are changed, as if they had been all
there is to change (`Change.fails_at_cell`).  The failing cell changes no cell and the length of no
row.  Yet it may leave something: a cell is given room before anything is put into it, and rows that
were added for it stay when there is no place in its row (`Dab.Leaves`).  This takes a row that the
canvas does not have, where no negative column can be met (`set_leaves_rows`).
-/

namespace GrammarConflict.Canvas

/-! ### Adding rows -/

section

variable {α : Type} {fill : α} {xs : Array α} {i : Int}

theorem cover_of_lt (h : i < xs.size) : cover fill xs i = xs := by
  have hzero : (i + 1).toNat - xs.size = 0 := by omega
  rw [cover, hzero, Array.replicate_zero, Array.append_empty]

theorem cover_of_neg (h : i < 0) : cover fill xs i = xs :=
  cover_of_lt (by omega)

/-- An index that is covered meets a member, unless it counts from the end. -/
theorem neg_of_place?_cover (h : SignedIndex.place? (cover fill xs i).size i = none) : i < 0 := by
  rw [SignedIndex.place?_eq_none_iff, cover, Array.size_append, Array.size_replicate] at h
  omega

/-- An index that does not go beyond the end meets a member, unless it counts from the end. -/
theorem neg_of_bind_place? (h : (SignedIndex.place? xs.size i).bind (xs[·]?) = none)
    (hlt : i < xs.size) : i < 0 := by
  cases hplace : SignedIndex.place? xs.size i with
  | none =>
    rw [SignedIndex.place?_eq_none_iff] at hplace
    omega
  | some k =>
    rw [hplace, Option.bind_some, Array.getElem?_eq_none_iff] at h
    exact absurd (SignedIndex.lt_of_place?_eq_some hplace) (Nat.not_lt.mpr h)

theorem modify_cover_of_neg {xss : Array (Array α)} {k : Nat} (h : i < 0) :
    xss.modify k (cover fill · i) = xss := by
  apply Array.ext
  · exact Array.size_modify
  · intro j _ _
    rw [Array.getElem_modify, cover_of_neg h]
    split <;> rfl

end

/-- The canvas with the rows that it lacks down to the given one, all of them empty. -/
def withRows (canvas : Canvas) (row : Int) : Canvas :=
  ⟨cover #[] canvas.rows row⟩

theorem withRows_of_lt {canvas : Canvas} {row : Int} (h : row < canvas.height) :
    canvas.withRows row = canvas := by
  rw [withRows, cover_of_lt h]

theorem row_withRows (canvas : Canvas) (row : Int) (r : Nat) :
    (canvas.withRows row).row r = canvas.row r := by
  obtain hneg | hpos := Int.lt_or_le row 0
  · rw [withRows, cover_of_neg hneg]
  · obtain ⟨k, rfl⟩ := Int.eq_ofNat_of_zero_le hpos
    exact getD_cover ..

/-! ### One cell -/

/-- What is left of a canvas when a touch of one cell fails: the canvas as it was, or the canvas
with the rows that it lacks down to that of the cell, as far as there is room for them. -/
inductive Dab.Leaves (dab : Dab) (canvas : Canvas) : CanvasError → Canvas → Prop
  | notOneCharacter (text : String) : dab.Leaves canvas (.notOneCharacter text) canvas
  | noSuchRow (miss : SignedIndex.Miss) (hrow : dab.row < 0) :
      dab.Leaves canvas (.noSuchRow miss) canvas
  | noSuchColumn (miss : SignedIndex.Miss) (hcolumn : dab.column < 0) :
      dab.Leaves canvas (.noSuchColumn miss) canvas
  | noPlaceInRow (miss : SignedIndex.Miss) (hcolumn : dab.column < 0) :
      dab.Leaves canvas (.noPlaceInRow miss) (canvas.withRows dab.row)
  | tooWide (hcolumn : 0 ≤ dab.column) :
      dab.Leaves canvas .tooWide (canvas.withRows dab.row)
  | noRoomInRow (hcolumn : 0 ≤ dab.column) :
      dab.Leaves canvas .noRoom (canvas.withRows dab.row)
  | noRoomForRow (hrow : canvas.height ≤ dab.row) :
      dab.Leaves canvas .noRoom (canvas.withRows (lengthBound - 2))

section

variable {canvas canvas' : Canvas} {e : CanvasError} {row column : Int}

theorem read_eq_ok {c : Char} (h : read row column canvas = .ok c canvas') : canvas' = canvas := by
  rw [read] at h
  split at h
  · cases h
    rfl
  · split at h
    · cases h
    · split at h
      · cases h
        rfl
      · split at h <;> cases h
        rfl

theorem leaves_of_read (pen : Pen) (h : read row column canvas = .error e canvas') :
    Dab.Leaves ⟨row, column, pen⟩ canvas e canvas' := by
  rw [read] at h
  split at h
  · cases h
  · next hheight =>
    split at h
    · next hnone =>
      cases h
      exact .noSuchRow _ (neg_of_bind_place? hnone (Int.not_le.mp hheight))
    · split at h
      · cases h
      · next hwidth =>
        split at h
        · next hnone =>
          cases h
          exact .noSuchColumn _ (neg_of_bind_place? hnone (Int.not_le.mp hwidth))
        · cases h

theorem leaves_of_put (pen : Pen) {c : Char} (h : put row column c canvas = .error e canvas') :
    Dab.Leaves ⟨row, column, pen⟩ canvas e canvas' := by
  simp only [put] at h
  split at h
  · next hheight =>
    cases h
    exact .noRoomForRow hheight.1
  · split at h
    · next hrow =>
      cases h
      have hneg : row < 0 := neg_of_place?_cover hrow
      rw [cover_of_neg hneg]
      exact .noSuchRow _ hneg
    · next r hrow =>
      split at h
      · next hgrowth =>
        cases h
        obtain ⟨hcolumn, rfl | rfl⟩ := growthError?_eq_some hgrowth
        · exact .tooWide hcolumn
        · exact .noRoomInRow hcolumn
      · split at h
        · next hcolumn =>
          cases h
          rw [getD_modify _ _ _ (SignedIndex.lt_of_place?_eq_some hrow), if_pos rfl] at hcolumn
          have hneg : column < 0 := neg_of_place?_cover hcolumn
          rw [modify_cover_of_neg hneg]
          exact .noPlaceInRow _ hneg
        · cases h

theorem leaves_of_cross (pen : Pen) {change : Char → Char}
    (h : cross change row column canvas = .error e canvas') :
    Dab.Leaves ⟨row, column, pen⟩ canvas e canvas' := by
  rw [cross, bind_apply_eq_error_iff] at h
  rcases h with hread | ⟨c, canvas₁, hread, hput⟩
  · exact leaves_of_read pen hread
  · obtain rfl := read_eq_ok hread
    exact leaves_of_put pen hput

/-- **A touch that fails** changes no cell. -/
theorem Dab.leaves_of_draw {dab : Dab} (h : dab.draw canvas = .error e canvas') :
    dab.Leaves canvas e canvas' := by
  obtain ⟨row, column, pen⟩ := dab
  cases pen with
  | text text =>
    simp only [Dab.draw, Canvas.set] at h
    rcases hchars : text.toList with _ | ⟨c, _ | ⟨c', rest⟩⟩ <;> rw [hchars] at h
    · cases h
      exact .notOneCharacter text
    · exact leaves_of_put _ h
    · cases h
      exact .notOneCharacter text
  | down => exact leaves_of_cross _ h
  | along => exact leaves_of_cross _ h

/-- No row is changed. -/
theorem Dab.Leaves.row_eq {dab : Dab} (h : dab.Leaves canvas e canvas') (r : Nat) :
    canvas'.row r = canvas.row r := by
  cases h with
  | noPlaceInRow | tooWide | noRoomInRow | noRoomForRow => exact row_withRows ..
  | notOneCharacter | noSuchRow | noSuchColumn => rfl

/-- Nothing is left of a touch in a row that the canvas has. -/
theorem Dab.Leaves.eq_of_lt {dab : Dab} (h : dab.Leaves canvas e canvas')
    (hrow : dab.row < canvas.height) : canvas' = canvas := by
  cases h with
  | noPlaceInRow | tooWide | noRoomInRow => exact withRows_of_lt hrow
  | noRoomForRow hle => exact absurd hrow (Int.not_lt.mpr hle)
  | notOneCharacter | noSuchRow | noSuchColumn => rfl

/-! ### One cell after another -/

/-- **A change that fails** has changed the cells before the one that it failed at.  That cell
leaves every row as it was, and adds none unless the canvas has no such row. -/
theorem Change.fails_at_cell (change : Change) (h : change.draw canvas = .error e canvas') :
    ∃ (before : List Dab) (dab : Dab) (after : List Dab) (reached : Canvas),
      change.dabs = before ++ dab :: after ∧
      forM before Dab.draw canvas = .ok () reached ∧ dab.draw reached = .error e canvas' ∧
      dab.Leaves reached e canvas' ∧ (∀ r, canvas'.row r = reached.row r) ∧
      (dab.row < reached.height → canvas' = reached) := by
  rw [change.draw_eq_forM, forM_apply_eq_error_iff] at h
  obtain ⟨before, dab, after, reached, hdabs, hbefore, hdab⟩ := h
  have leaves : dab.Leaves reached e canvas' := Dab.leaves_of_draw hdab
  exact ⟨before, dab, after, reached, hdabs, hbefore, hdab, leaves, leaves.row_eq, leaves.eq_of_lt⟩

end

/-- Texts of which the second is no character. -/
def writeSample : Change :=
  .writeCells 1 0 ["a", "bc", "d"]

/-- A stroke to the left, past the first column and on from the last. -/
def leftwardSample : Change :=
  .stroke (.along 1 ⟨0, -3, -1, by decide⟩)

theorem fails_at_cell_samples :
    (∃ before dab after reached,
      writeSample.draw (blank 0 0) = .error (.notOneCharacter "bc") ⟨#[#[], #['a']]⟩ ∧
      writeSample.dabs = before ++ dab :: after ∧
      forM before Dab.draw (blank 0 0) = .ok () reached ∧
      dab.Leaves reached (.notOneCharacter "bc") ⟨#[#[], #['a']]⟩) ∧
    ∃ before dab after reached,
      leftwardSample.draw (blank 0 0) =
        .error (.noSuchColumn .outOfRange) ⟨#[#[], #['-']]⟩ ∧
      leftwardSample.dabs = before ++ dab :: after ∧
      forM before Dab.draw (blank 0 0) = .ok () reached ∧
      dab.Leaves reached (.noSuchColumn .outOfRange) ⟨#[#[], #['-']]⟩ := by
  have hwrite : writeSample.draw (blank 0 0) =
    .error (.notOneCharacter "bc") ⟨#[#[], #['a']]⟩ := by rfl
  have hleftward : leftwardSample.draw (blank 0 0) =
    .error (.noSuchColumn .outOfRange) ⟨#[#[], #['-']]⟩ := by rfl
  obtain ⟨before, dab, after, reached, hdabs, hbefore, -, leaves, -⟩ :=
    Change.fails_at_cell _ hwrite
  obtain ⟨before', dab', after', reached', hdabs', hbefore', -, leaves', -⟩ :=
    Change.fails_at_cell _ hleftward
  exact ⟨⟨before, dab, after, reached, hwrite, hdabs, hbefore, leaves⟩,
    before', dab', after', reached', hleftward, hdabs', hbefore', leaves'⟩

/-- A cell with a negative column in a row that the canvas lacks is not set, and yet there are three
rows afterwards; with no cell touched there is none. -/
theorem set_leaves_rows :
    ∃ canvas', (Change.set 2 (-1) "x").draw (blank 0 0) =
        .error (.noPlaceInRow .outOfRange) canvas' ∧
      (Change.set 2 (-1) "x").dabs = [⟨2, -1, .text "x"⟩] ∧
      (∀ before dab after, (Change.set 2 (-1) "x").dabs = before ++ dab :: after →
        forM before Dab.draw (blank 0 0) = .ok () (blank 0 0)) ∧
      canvas'.height = 3 ∧ (blank 0 0).height = 0 := by
  refine ⟨⟨#[#[], #[], #[]]⟩, rfl, rfl, ?_, rfl, rfl⟩
  intro before dab after h
  obtain rfl : before = [] := by
    have hlength : 1 = before.length + (after.length + 1) := by
      simpa [Change.dabs] using congrArg List.length h
    exact List.length_eq_zero_iff.mp (by omega)
  rfl

end GrammarConflict.Canvas
