import GrammarConflict.Canvas

/-!
# The cells of a canvas

A canvas is seen through three functions: its `height`, the `width` of a row, and the character in a
`cell`, which is blank where the canvas holds none.  They are all that there is to it
(`eq_of_cells`).  At coordinates that count from the start, `read` gives the cell and `put` is
`plot`, which changes one cell and makes just as much room as that takes (`height_plot`,
`width_plot`, `cell_plot`).  The one thing that can go wrong there is that there is no room for the
row or for the column (`Admits`).
-/

namespace GrammarConflict.Canvas

/-- The number of rows. -/
def height (canvas : Canvas) : Nat :=
  canvas.rows.size

/-- The cells of a row; a row that the canvas lacks has none. -/
def row (canvas : Canvas) (r : Nat) : Array Char :=
  canvas.rows.getD r #[]

/-- The length of a row. -/
def width (canvas : Canvas) (r : Nat) : Nat :=
  (canvas.row r).size

/-- The character in a cell. -/
def cell (canvas : Canvas) (r c : Nat) : Char :=
  (canvas.row r).getD c ' '

/-- The canvas has so many rows, all of one length. -/
structure HasSize (canvas : Canvas) (h w : Nat) : Prop where
  height_eq : canvas.height = h
  width_eq : ∀ r < h, canvas.width r = w

/-- There is room for a row and for a column of it: the canvas has them, or lists may be so long. -/
structure Admits (canvas : Canvas) (r c : Nat) : Prop where
  row : r < canvas.height ∨ (r : Int) + 1 < lengthBound
  column : c < canvas.width r ∨ (c : Int) + 1 < lengthBound

/-- There are no cells in a row that the canvas lacks. -/
theorem lt_height_of_lt_width {canvas : Canvas} {r c : Nat} (h : c < canvas.width r) :
    r < canvas.height := by
  refine Nat.lt_of_not_le fun hr => ?_
  rw [width, row, Array.getD_eq_getD_getElem?, Array.getElem?_eq_none hr] at h
  exact Nat.not_lt_zero c h

theorem admits_of_lt {canvas : Canvas} {r c : Nat} (h : c < canvas.width r) :
    canvas.Admits r c :=
  ⟨.inl (lt_height_of_lt_width h), .inl h⟩

/-- Sets a cell, after giving it room. -/
def plot (canvas : Canvas) (r c : Nat) (ch : Char) : Canvas :=
  ⟨(cover #[] canvas.rows r).modify r fun cells => (cover ' ' cells c).setIfInBounds c ch⟩

/-! ### The whole canvas -/

section Blank

variable (h w : Nat)

theorem height_blank : (blank h w).height = h := by
  rw [blank]
  split
  · next hnone =>
    show 0 = h
    omega
  · show (Array.replicate h (Array.replicate w ' ')).size = h
    exact Array.size_replicate

theorem row_blank (r : Nat) :
    (blank h w).row r = if r < h then Array.replicate w ' ' else #[] := by
  rw [blank]
  split
  · next hnone =>
    rw [if_neg (by omega)]
    rfl
  · show (Array.replicate h (Array.replicate w ' ')).getD r #[] = _
    rw [Array.getD_eq_getD_getElem?, Array.getElem?_replicate]
    split <;> rfl

theorem width_blank {r : Nat} (hr : r < h) : (blank h w).width r = w := by
  rw [width, row_blank, if_pos hr, Array.size_replicate]

theorem cell_blank (r c : Nat) : (blank h w).cell r c = ' ' := by
  rw [cell, row_blank, Array.getD_eq_getD_getElem?]
  split
  · rw [Array.getElem?_replicate]
    split <;> rfl
  · rfl

/-- A negative size stands for none. -/
theorem blank_eq_toNat (rows columns : Int) :
    blank rows columns = blank rows.toNat columns.toNat := by
  by_cases hrows : rows ≤ 0
  · have hnone : (rows.toNat : Int) ≤ 0 := by omega
    rw [blank, blank, if_pos hrows, if_pos hnone]
  · have hsome : ¬ (rows.toNat : Int) ≤ 0 := by omega
    rw [blank, blank, if_neg hrows, if_neg hsome, Int.toNat_natCast, Int.toNat_natCast]

end Blank

/-! ### Giving room -/

section Cover

variable {α : Type} (fill : α) (xs : Array α) (i : Nat)

theorem size_cover : (cover fill xs i).size = max xs.size (i + 1) := by
  rw [cover, Array.size_append, Array.size_replicate]
  omega

/-- What is added is what stands beyond the end anyway. -/
theorem getD_cover (k : Nat) : (cover fill xs i).getD k fill = xs.getD k fill := by
  simp only [cover, Array.getD_eq_getD_getElem?, Array.getElem?_append, Array.getElem?_replicate]
  split
  · rfl
  · rw [Array.getElem?_eq_none (by omega), Option.getD_none]
    split <;> rfl

end Cover

theorem getD_modify {α : Type} (xs : Array α) (f : α → α) (d : α) {i : Nat} (hi : i < xs.size)
    (k : Nat) : (xs.modify i f).getD k d = if k = i then f (xs.getD i d) else xs.getD k d := by
  simp only [Array.getD_eq_getD_getElem?, Array.getElem?_modify, eq_comm (a := k)]
  split
  · next h =>
    subst h
    rw [Array.getElem?_eq_getElem hi]
    rfl
  · rfl

theorem modify_modify {α : Type} (xs : Array α) (f g : α → α) (i : Nat) :
    (xs.modify i f).modify i g = xs.modify i fun x => g (f x) := by
  apply Array.ext
  · simp only [Array.size_modify]
  · intro k _ _
    simp only [Array.getElem_modify]
    split <;> rfl

/-! ### Setting a cell -/

section Plot

variable (canvas : Canvas) (r c : Nat) (ch : Char)

theorem height_plot : (canvas.plot r c ch).height = max canvas.height (r + 1) := by
  rw [height, plot, Array.size_modify, size_cover, height]

theorem row_plot (r' : Nat) :
    (canvas.plot r c ch).row r' =
      if r' = r then (cover ' ' (canvas.row r) c).setIfInBounds c ch else canvas.row r' := by
  have hr : r < (cover #[] canvas.rows r).size := by
    rw [size_cover]
    omega
  simp only [row, plot]
  rw [getD_modify _ _ _ hr, getD_cover, getD_cover]

theorem width_plot (r' : Nat) :
    (canvas.plot r c ch).width r' =
      if r' = r then max (canvas.width r) (c + 1) else canvas.width r' := by
  rw [width, row_plot]
  split
  · rw [Array.size_setIfInBounds, size_cover, width]
  · rfl

theorem cell_plot (r' c' : Nat) :
    (canvas.plot r c ch).cell r' c' = if r' = r ∧ c' = c then ch else canvas.cell r' c' := by
  rw [cell, row_plot]
  by_cases hr : r' = r
  · subst hr
    rw [if_pos rfl, Array.getD_eq_getD_getElem?, Array.getElem?_setIfInBounds, size_cover]
    by_cases hc : c' = c
    · subst hc
      have hlt : c' < max (canvas.row r').size (c' + 1) := by omega
      rw [if_pos rfl, if_pos hlt, if_pos ⟨rfl, rfl⟩, Option.getD_some]
    · rw [if_neg (Ne.symm hc), if_neg (by simp [hc]), ← Array.getD_eq_getD_getElem?, getD_cover,
        cell]
  · rw [if_neg hr, if_neg (by simp [hr]), cell]

theorem le_width_plot (r' : Nat) : canvas.width r' ≤ (canvas.plot r c ch).width r' := by
  rw [width_plot]
  split
  · next h =>
    rw [h]
    exact Nat.le_max_left ..
  · exact Nat.le_refl _

end Plot

/-! ### Reading and setting a cell as a drawing -/

theorem read_natCast (canvas : Canvas) (r c : Nat) :
    read r c canvas = .ok (canvas.cell r c) canvas := by
  rw [read]
  by_cases hr : canvas.rows.size ≤ r
  · have hrow : canvas.row r = #[] := by
      rw [row, Array.getD_eq_getD_getElem?, Array.getElem?_eq_none hr, Option.getD_none]
    rw [if_pos (by omega), cell, hrow]
    rfl
  · rw [if_neg (by omega), SignedIndex.place?_natCast (by omega), Option.bind_some,
      Array.getElem?_eq_getElem (by omega)]
    have hrow : canvas.rows[r] = canvas.row r := by
      rw [row, Array.getD_eq_getD_getElem?, Array.getElem?_eq_getElem (by omega), Option.getD_some]
    simp only [hrow]
    by_cases hc : (canvas.row r).size ≤ c
    · rw [if_pos (by omega), cell, Array.getD_eq_getD_getElem?, Array.getElem?_eq_none hc]
      rfl
    · rw [if_neg (by omega), SignedIndex.place?_natCast (by omega), Option.bind_some,
        Array.getElem?_eq_getElem (by omega), cell, Array.getD_eq_getD_getElem?,
        Array.getElem?_eq_getElem (by omega)]
      rfl

theorem growthError?_eq_none_iff {length c : Nat} :
    growthError? length c = none ↔ c < length ∨ (c : Int) + 1 < lengthBound := by
  have hword : SignedIndex.wordBound = 2 ^ 63 := rfl
  have hlength : lengthBound = 2 ^ 60 := rfl
  unfold growthError?
  split
  · exact iff_of_true rfl (by omega)
  · split
    · exact iff_of_false nofun (by omega)
    · split
      · exact iff_of_false nofun (by omega)
      · exact iff_of_true rfl (by omega)

/-- Only a column behind the end of a row can be out of reach. -/
theorem growthError?_eq_some {length : Nat} {column : Int} {e : CanvasError}
    (h : growthError? length column = some e) :
    0 ≤ column ∧ (e = .tooWide ∨ e = .noRoom) := by
  unfold growthError? at h
  split at h
  · cases h
  · next hlength =>
    refine ⟨by omega, ?_⟩
    split at h
    · exact .inl (Option.some.inj h).symm
    · split at h
      · exact .inr (Option.some.inj h).symm
      · cases h

theorem put_natCast {canvas : Canvas} {r c : Nat} (h : canvas.Admits r c) (ch : Char) :
    put r c ch canvas = .ok () (canvas.plot r c ch) := by
  have hr : r < (cover #[] canvas.rows r).size := by
    rw [size_cover]
    omega
  have hrow : (cover #[] canvas.rows r).getD r #[] = canvas.row r := getD_cover ..
  have hcovered : ((cover #[] canvas.rows r).modify r (cover ' ' · c)).getD r #[] =
      cover ' ' (canvas.row r) c := by
    rw [getD_modify _ _ _ hr, if_pos rfl, hrow]
  have hheight : ¬ ((canvas.rows.size : Int) ≤ r ∧ lengthBound ≤ (r : Int) + 1) := by
    rintro ⟨hle, hbound⟩
    obtain hlt | hlt := h.row
    · rw [height] at hlt
      omega
    · omega
  have hfits : growthError? (canvas.row r).size c = none := growthError?_eq_none_iff.mpr h.column
  simp only [put, if_neg hheight, SignedIndex.place?_natCast hr, hrow, hcovered, hfits]
  rw [SignedIndex.place?_natCast (by rw [size_cover]; omega), plot]
  simp only [modify_modify]

/-! ### The rows as texts -/

/-- So many cells of a row, from a column on. -/
def segment (canvas : Canvas) (r c n : Nat) : List Char :=
  (List.range' c n).map (canvas.cell r)

@[simp] theorem length_segment (canvas : Canvas) (r c n : Nat) :
    (canvas.segment r c n).length = n := by
  rw [segment, List.length_map, List.length_range']

theorem segment_add (canvas : Canvas) (r c m n : Nat) :
    canvas.segment r c (m + n) = canvas.segment r c m ++ canvas.segment r (c + m) n := by
  rw [segment, ← List.range'_append_1, List.map_append]
  rfl

/-- A text stands in a row from a column on when each of its characters does. -/
theorem segment_eq {canvas : Canvas} {r c : Nat} {chars : List Char}
    (h : ∀ k ch, chars[k]? = some ch → canvas.cell r (c + k) = ch) :
    canvas.segment r c chars.length = chars := by
  apply List.ext_getElem
  · exact length_segment ..
  · intro k _ hk
    simp only [segment, List.getElem_map, List.getElem_range', Nat.one_mul]
    exact h k _ (List.getElem?_eq_getElem hk)

theorem segment_eq_replicate {canvas : Canvas} {r c n : Nat} {ch : Char}
    (h : ∀ k, c ≤ k → k < c + n → canvas.cell r k = ch) :
    canvas.segment r c n = List.replicate n ch := by
  rw [List.eq_replicate_iff, length_segment]
  refine ⟨rfl, ?_⟩
  intro ch' hch'
  obtain ⟨k, hk, rfl⟩ := List.mem_map.mp hch'
  obtain ⟨hle, hlt⟩ := List.mem_range'_1.mp hk
  exact h k hle hlt

theorem toList_row (canvas : Canvas) (r : Nat) :
    (canvas.row r).toList = canvas.segment r 0 (canvas.width r) := by
  apply List.ext_getElem
  · rw [length_segment, Array.length_toList, width]
  · intro c hc _
    rw [Array.length_toList] at hc
    simp only [segment, List.getElem_map, List.getElem_range', Nat.one_mul, Nat.zero_add]
    rw [cell, Array.getD_eq_getD_getElem?, Array.getElem?_eq_getElem hc, Option.getD_some,
      Array.getElem_toList]

theorem length_lines (canvas : Canvas) : canvas.lines.length = canvas.height := by
  rw [lines, List.length_map, Array.length_toList, height]

theorem getElem?_lines {canvas : Canvas} {r : Nat} (hr : r < canvas.height) :
    canvas.lines[r]? =
      some (String.ofList (Text.trimEnd (canvas.segment r 0 (canvas.width r)))) := by
  have hrow : canvas.rows[r]? = some (canvas.row r) := by
    rw [row, Array.getD_eq_getD_getElem?, Array.getElem?_eq_getElem hr, Option.getD_some]
  rw [lines, List.getElem?_map, Array.getElem?_toList, hrow, Option.map_some, toList_row]

end GrammarConflict.Canvas
