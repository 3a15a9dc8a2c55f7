import GrammarConflict.Proofs.Canvas.Cells

/-!
# Drawings as marks

What a drawing does is a list of marks: each touches one cell, and what it leaves there depends on
what the cell held (`Touch.leaves`).  `Performs d ms` says that `d` is nothing but the marks `ms`,
one after another; the marks of a composed drawing are those of its parts.  Such a drawing succeeds
on every canvas that has room for the marks (`Performs.makes`), and from them the canvas can be read
off cell by cell: a cell holds what the touches of that cell leave (`cell_markedAll`).  A canvas
grows just as far as the marks reach, its rows to `rowsOf` and a row to `lengthIn`
(`height_markedAll_eq`, `width_markedAll_eq`), so one that is large enough keeps its size
(`height_markedAll`, `width_markedAll`).
-/

namespace GrammarConflict

/-- What is done to a cell. -/
inductive Touch where
  | write (c : Char)
  | down
  | along
deriving DecidableEq

/-- What a touch leaves in a cell. -/
def Touch.leaves : Touch → Char → Char
  | .write c, _ => c
  | .down, c => Canvas.crossDown c
  | .along, c => Canvas.crossAlong c

/-- What touches leave in a cell, one after another. -/
def touched (ch : Char) (ts : List Touch) : Char :=
  ts.foldl (fun ch t => t.leaves ch) ch

theorem touched_append (ch : Char) (ts us : List Touch) :
    touched ch (ts ++ us) = touched (touched ch ts) us :=
  List.foldl_append

/-- A touch of a cell. -/
structure Mark where
  row : Nat
  column : Nat
  touch : Touch

/-- The touches of one cell. -/
def touches (ms : List Mark) (r c : Nat) : List Touch :=
  (ms.filter fun m => m.row = r ∧ m.column = c).map Mark.touch

theorem touches_cons (m : Mark) (ms : List Mark) (r c : Nat) :
    touches (m :: ms) r c =
      if m.row = r ∧ m.column = c then m.touch :: touches ms r c else touches ms r c := by
  simp only [touches, List.filter_cons, decide_eq_true_eq]
  split <;> rfl

@[simp] theorem touches_append (ms ns : List Mark) (r c : Nat) :
    touches (ms ++ ns) r c = touches ms r c ++ touches ns r c := by
  simp only [touches, List.filter_append, List.map_append]

@[simp] theorem mem_touches_iff {ms : List Mark} {r c : Nat} {t : Touch} :
    t ∈ touches ms r c ↔ ⟨r, c, t⟩ ∈ ms := by
  simp only [touches, List.mem_map, List.mem_filter, decide_eq_true_eq]
  constructor
  · rintro ⟨m, ⟨hm, rfl, rfl⟩, rfl⟩
    exact hm
  · intro h
    exact ⟨_, ⟨h, rfl, rfl⟩, rfl⟩

/-- A cell that no mark is made in is not touched. -/
theorem touches_eq_nil {ms : List Mark} {r c : Nat}
    (h : ∀ m ∈ ms, ¬ (m.row = r ∧ m.column = c)) : touches ms r c = [] := by
  rw [touches, List.filter_eq_nil_iff.mpr, List.map_nil]
  intro m hm
  rw [decide_eq_true_eq]
  exact h m hm

/-- The marks of a text that is written into a row from a column on. -/
def textMarks (r c : Nat) (chars : List Char) : List Mark :=
  chars.mapIdx fun k ch => ⟨r, c + k, .write ch⟩

theorem mem_textMarks_iff {r c : Nat} {chars : List Char} {m : Mark} :
    m ∈ textMarks r c chars ↔ ∃ k ch, chars[k]? = some ch ∧ m = ⟨r, c + k, .write ch⟩ := by
  rw [textMarks, List.mem_mapIdx]
  constructor
  · rintro ⟨k, hk, rfl⟩
    exact ⟨k, _, List.getElem?_eq_getElem hk, rfl⟩
  · rintro ⟨k, ch, hch, rfl⟩
    obtain ⟨hk, rfl⟩ := List.getElem?_eq_some_iff.mp hch
    exact ⟨k, hk, rfl⟩

namespace Canvas

/-! ### Marks on a canvas -/

/-- The canvas after one mark. -/
def marked (canvas : Canvas) (m : Mark) : Canvas :=
  canvas.plot m.row m.column (m.touch.leaves (canvas.cell m.row m.column))

/-- The canvas after one mark after another. -/
def markedAll (canvas : Canvas) (ms : List Mark) : Canvas :=
  ms.foldl marked canvas

theorem markedAll_cons (canvas : Canvas) (m : Mark) (ms : List Mark) :
    canvas.markedAll (m :: ms) = (canvas.marked m).markedAll ms :=
  rfl

theorem markedAll_append (canvas : Canvas) (ms ns : List Mark) :
    canvas.markedAll (ms ++ ns) = (canvas.markedAll ms).markedAll ns :=
  List.foldl_append

/-- A cell holds what the touches of it leave. -/
theorem cell_markedAll (canvas : Canvas) (ms : List Mark) (r c : Nat) :
    (canvas.markedAll ms).cell r c = touched (canvas.cell r c) (touches ms r c) := by
  induction ms generalizing canvas with
  | nil => rfl
  | cons m ms ih =>
    rw [markedAll_cons, ih, marked, cell_plot, touches_cons]
    by_cases h : m.row = r ∧ m.column = c
    · obtain ⟨rfl, rfl⟩ := h
      rw [if_pos ⟨rfl, rfl⟩, if_pos ⟨rfl, rfl⟩]
      rfl
    · rw [if_neg h, if_neg]
      rintro ⟨rfl, rfl⟩
      exact h ⟨rfl, rfl⟩

/-! ### The size of a canvas under marks -/

/-- The number of rows that marks need: one more than the greatest row of a mark. -/
def rowsOf : List Mark → Nat
  | [] => 0
  | m :: ms => max (m.row + 1) (rowsOf ms)

/-- The length that marks need in a row: one more than the greatest column of a mark in it. -/
def lengthIn (r : Nat) : List Mark → Nat
  | [] => 0
  | m :: ms => if m.row = r then max (m.column + 1) (lengthIn r ms) else lengthIn r ms

theorem rowsOf_le_iff {ms : List Mark} {n : Nat} : rowsOf ms ≤ n ↔ ∀ m ∈ ms, m.row < n := by
  induction ms with
  | nil => simp [rowsOf]
  | cons m ms ih => rw [rowsOf, Nat.max_le, ih, List.forall_mem_cons, Nat.succ_le_iff]

theorem lengthIn_le_iff {r n : Nat} {ms : List Mark} :
    lengthIn r ms ≤ n ↔ ∀ m ∈ ms, m.row = r → m.column < n := by
  induction ms with
  | nil => simp [lengthIn]
  | cons m ms ih =>
    rw [lengthIn, List.forall_mem_cons, ← ih]
    split
    · next hrow => rw [Nat.max_le, Nat.succ_le_iff, imp_iff_right hrow]
    · next hrow => rw [and_iff_right fun h => absurd h hrow]

theorem height_markedAll_eq (canvas : Canvas) (ms : List Mark) :
    (canvas.markedAll ms).height = max canvas.height (rowsOf ms) := by
  induction ms generalizing canvas with
  | nil => exact (Nat.max_zero _).symm
  | cons m ms ih => rw [markedAll_cons, ih, marked, height_plot, rowsOf, Nat.max_assoc]

theorem width_markedAll_eq (canvas : Canvas) (ms : List Mark) (r : Nat) :
    (canvas.markedAll ms).width r = max (canvas.width r) (lengthIn r ms) := by
  induction ms generalizing canvas with
  | nil => exact (Nat.max_zero _).symm
  | cons m ms ih =>
    rw [markedAll_cons, ih, marked, width_plot, lengthIn]
    by_cases hrow : r = m.row
    · rw [if_pos hrow, if_pos hrow.symm, Nat.max_assoc, hrow]
    · rw [if_neg hrow, if_neg (Ne.symm hrow)]

theorem height_markedAll {canvas : Canvas} {ms : List Mark}
    (h : ∀ m ∈ ms, m.row < canvas.height) : (canvas.markedAll ms).height = canvas.height := by
  rw [height_markedAll_eq]
  exact Nat.max_eq_left (rowsOf_le_iff.mpr h)

theorem width_markedAll {canvas : Canvas} {ms : List Mark}
    (h : ∀ m ∈ ms, m.column < canvas.width m.row) (r : Nat) :
    (canvas.markedAll ms).width r = canvas.width r := by
  rw [width_markedAll_eq]
  refine Nat.max_eq_left (lengthIn_le_iff.mpr fun m hm hrow => ?_)
  rw [← hrow]
  exact h m hm

/-! ### Drawings that make marks -/

/-- The drawing succeeds and makes the marks. -/
def Makes (d : Draw Unit) (ms : List Mark) : Prop :=
  ∀ canvas : Canvas, (∀ m ∈ ms, canvas.Admits m.row m.column) →
    d canvas = .ok () (canvas.markedAll ms)

/-- A mark takes away no rows and makes none shorter, so it keeps room where there was room. -/
theorem Admits.marked {canvas : Canvas} {r c : Nat} (h : canvas.Admits r c) (m : Mark) :
    (canvas.marked m).Admits r c := by
  have hheight : canvas.height ≤ (canvas.marked m).height := by
    rw [Canvas.marked, height_plot]
    exact Nat.le_max_left ..
  have hwidth : canvas.width r ≤ (canvas.marked m).width r := le_width_plot ..
  exact ⟨h.row.imp_left (Nat.lt_of_lt_of_le · hheight),
    h.column.imp_left (Nat.lt_of_lt_of_le · hwidth)⟩

/-- Nor does a mark that there is room for make room where there was none. -/
theorem Admits.of_marked {canvas : Canvas} {r c : Nat} {m : Mark}
    (hm : canvas.Admits m.row m.column) (h : (canvas.marked m).Admits r c) :
    canvas.Admits r c := by
  obtain ⟨hrow, hcolumn⟩ := h
  rw [Canvas.marked, height_plot] at hrow
  rw [Canvas.marked, width_plot] at hcolumn
  refine ⟨?_, ?_⟩
  · have := hm.row
    omega
  · split at hcolumn
    · next heq =>
      subst heq
      have := hm.column
      omega
    · exact hcolumn

theorem Admits.markedAll {canvas : Canvas} {r c : Nat} (h : canvas.Admits r c) (ms : List Mark) :
    (canvas.markedAll ms).Admits r c := by
  induction ms generalizing canvas with
  | nil => exact h
  | cons m ms ih => exact ih (h.marked m)

namespace Makes

theorem pure : Makes (Pure.pure ()) [] :=
  fun _ _ => rfl

/-- One drawing after another. -/
theorem bind {d e : Draw Unit} {ms ns : List Mark} (hd : Makes d ms) (he : Makes e ns) :
    Makes (d >>= fun _ => e) (ms ++ ns) := by
  intro canvas hfits
  have hms : d canvas = .ok () (canvas.markedAll ms) :=
    hd canvas fun m hm => hfits m (List.mem_append_left _ hm)
  have hns : e (canvas.markedAll ms) = .ok () ((canvas.markedAll ms).markedAll ns) :=
    he _ fun m hm => (hfits m (List.mem_append_right _ hm)).markedAll ms
  show EStateM.bind d (fun _ => e) canvas = _
  simp only [EStateM.bind, hms, hns, markedAll_append]

theorem put (r c : Nat) (ch : Char) : Makes (put r c ch) [⟨r, c, .write ch⟩] := by
  intro canvas hfits
  exact put_natCast (hfits _ List.mem_cons_self) ch

theorem cross (t : Touch) (r c : Nat) : Makes (cross t.leaves r c) [⟨r, c, t⟩] := by
  intro canvas hfits
  show EStateM.bind (read r c) (fun ch => Canvas.put r c (t.leaves ch)) canvas = _
  rw [EStateM.bind, read_natCast]
  exact put_natCast (hfits _ List.mem_cons_self) _

end Makes

/-! ### Drawings mark by mark -/

/-- Makes one mark. -/
def make (m : Mark) : Draw Unit :=
  match m.touch with
  | .write c => put m.row m.column c
  | .down => cross crossDown m.row m.column
  | .along => cross crossAlong m.row m.column

theorem makes_make (m : Mark) : Makes (make m) [m] := by
  obtain ⟨r, c, t⟩ := m
  cases t with
  | write ch => exact .put r c ch
  | down => exact .cross .down r c
  | along => exact .cross .along r c

/-- The drawing makes the marks one after another, and does nothing else. -/
def Performs (d : Draw Unit) (ms : List Mark) : Prop :=
  d = forM ms make

namespace Performs

theorem makes {d : Draw Unit} {ms : List Mark} (h : Performs d ms) : Makes d ms := by
  rw [h]
  clear h
  induction ms with
  | nil => exact .pure
  | cons m ms ih =>
    rw [List.forM_cons]
    exact (makes_make m).bind ih

theorem pure : Performs (Pure.pure ()) [] :=
  rfl

/-- One drawing after another. -/
theorem bind {d e : Draw Unit} {ms ns : List Mark} (hd : Performs d ms) (he : Performs e ns) :
    Performs (d >>= fun _ => e) (ms ++ ns) := by
  rw [Performs, List.forM_append, ← hd, ← he]

theorem single (m : Mark) : Performs (make m) [m] := by
  rw [Performs, List.forM_cons, List.forM_nil, bind_pure_unit]

/-- A drawing for each member of a list. -/
theorem forM {α : Type} {xs : List α} {f : α → Draw Unit} {marks : α → List Mark}
    (h : ∀ x ∈ xs, Performs (f x) (marks x)) : Performs (ForM.forM xs f) (xs.flatMap marks) := by
  induction xs with
  | nil => exact pure
  | cons x xs ih =>
    rw [List.forM_cons, List.flatMap_cons]
    exact (h x List.mem_cons_self).bind (ih fun y hy => h y (List.mem_cons_of_mem _ hy))

/-- Characters go into one cell after another. -/
theorem writeChars (r c : Nat) (chars : List Char) :
    Performs (writeChars r c chars) (textMarks r c chars) := by
  induction chars generalizing c with
  | nil => exact pure
  | cons ch chars ih =>
    have hrest := ih (c + 1)
    have hshift : ∀ k, c + 1 + k = c + (k + 1) := by omega
    simp only [textMarks, hshift] at hrest
    rw [textMarks, List.mapIdx_cons]
    exact (single ⟨r, c, .write ch⟩).bind hrest

/-- A stroke over rows that count from the start. -/
theorem strokeDown {s : Stride} {rows : List Nat} (h : s.toList = rows.map Nat.cast) (c : Nat) :
    Performs (strokeDown s c) (rows.map (⟨·, c, .down⟩)) := by
  rw [Canvas.strokeDown, Stride.forM_eq_forM_toList, h, List.forM_map, List.map_eq_flatMap]
  exact forM fun r _ => single ⟨r, c, .down⟩

/-- A stroke over columns that count from the start. -/
theorem strokeAlong {s : Stride} {columns : List Nat} (h : s.toList = columns.map Nat.cast)
    (r : Nat) : Performs (strokeAlong r s) (columns.map (⟨r, ·, .along⟩)) := by
  rw [Canvas.strokeAlong, Stride.forM_eq_forM_toList, h, List.forM_map, List.map_eq_flatMap]
  exact forM fun c _ => single ⟨r, c, .along⟩

end Performs

/-! ### What touches leave -/

/-- What vertical and horizontal strokes leave in a cell, be there any or none of them. -/
def stroked (ch : Char) (vertically horizontally : Bool) : Char :=
  match vertically, horizontally with
  | false, false => ch
  | true, false => crossDown ch
  | false, true => crossAlong ch
  | true, true => corner

theorem crossDown_stroked (ch : Char) (v h : Bool) :
    crossDown (stroked ch v h) = stroked ch true h := by
  have hcorner : crossDown corner = corner := rfl
  have hvertical : crossDown vertical = vertical := rfl
  have hhorizontal : crossDown horizontal = corner := rfl
  rcases v with _ | _ <;> rcases h with _ | _
  · rfl
  · show crossDown (crossAlong ch) = corner
    unfold crossAlong
    split
    · exact hcorner
    · exact hhorizontal
  · show crossDown (crossDown ch) = crossDown ch
    rw [crossDown.eq_1 ch]
    split
    · exact hcorner
    · exact hvertical
  · exact hcorner

theorem crossAlong_stroked (ch : Char) (v h : Bool) :
    crossAlong (stroked ch v h) = stroked ch v true := by
  have hcorner : crossAlong corner = corner := rfl
  have hvertical : crossAlong vertical = corner := rfl
  have hhorizontal : crossAlong horizontal = horizontal := rfl
  rcases v with _ | _ <;> rcases h with _ | _
  · rfl
  · show crossAlong (crossAlong ch) = crossAlong ch
    rw [crossAlong.eq_1 ch]
    split
    · exact hcorner
    · exact hhorizontal
  · show crossAlong (crossDown ch) = corner
    unfold crossDown
    split
    · exact hcorner
    · exact hvertical
  · exact hcorner

/-- Strokes leave the same in any order and however often they are made. -/
theorem touched_strokes {ts : List Touch} (hts : ∀ t ∈ ts, t = .down ∨ t = .along) (ch : Char)
    (v h : Bool) :
    touched (stroked ch v h) ts = stroked ch (v || Touch.down ∈ ts) (h || Touch.along ∈ ts) := by
  induction ts generalizing v h with
  | nil => simp [touched]
  | cons t ts ih =>
    have hrest : ∀ t ∈ ts, t = .down ∨ t = .along := fun u hu => hts u (List.mem_cons_of_mem _ hu)
    rcases hts t List.mem_cons_self with rfl | rfl
    · show touched (crossDown (stroked ch v h)) ts = _
      rw [crossDown_stroked, ih hrest]
      simp
    · show touched (crossAlong (stroked ch v h)) ts = _
      rw [crossAlong_stroked, ih hrest]
      simp

/-- A touch leaves a stroke, or the character that it writes. -/
theorem leaves_cases (t : Touch) (ch : Char) :
    t.leaves ch ∈ [vertical, horizontal, corner] ∨ t = .write (t.leaves ch) := by
  cases t with
  | write c => exact .inr rfl
  | down =>
    left
    rw [Touch.leaves, crossDown]
    split <;> simp
  | along =>
    left
    rw [Touch.leaves, crossAlong]
    split <;> simp

/-- Touches leave what the cell held, a stroke, or a character that one of them writes. -/
theorem touched_cases (ch : Char) (ts : List Touch) :
    touched ch ts = ch ∨ touched ch ts ∈ [vertical, horizontal, corner] ∨
      .write (touched ch ts) ∈ ts := by
  induction ts generalizing ch with
  | nil => exact .inl rfl
  | cons t ts ih =>
    have hcons : touched ch (t :: ts) = touched (t.leaves ch) ts := rfl
    rw [hcons]
    rcases ih (t.leaves ch) with hheld | hstroke | hwritten
    · rw [hheld]
      rcases leaves_cases t ch with hstroke | hwrite
      · exact .inr (.inl hstroke)
      · exact .inr (.inr (hwrite ▸ List.mem_cons_self))
    · exact .inr (.inl hstroke)
    · exact .inr (.inr (List.mem_cons_of_mem _ hwritten))

/-- What is written into a cell stays when nothing else is written into it. -/
theorem touched_writes {ts : List Touch} {ch : Char} (hne : ts ≠ [])
    (hts : ∀ t ∈ ts, t = .write ch) (c : Char) : touched c ts = ch := by
  have hlast : ts.getLast hne = .write ch := hts _ (List.getLast_mem hne)
  rw [← List.dropLast_concat_getLast hne, hlast, touched_append]
  rfl

end Canvas

end GrammarConflict
