import GrammarConflict.Proofs.Diagram.Marks
import GrammarConflict.Proofs.Example.Nesting

/-!
# Only texts are shown

Of a nonterminal or a symbol nothing is shown but its text.  A thing is made `plain` by putting that
text in place of every value in it.  Making an example of plain items gives the plain example
(`History.unwind_plain`), and a plain example has the line, the path and the diagram of the example
itself.  So two histories whose items are the same when made plain are shown alike, even if one has
a number where the other has text.
-/

namespace GrammarConflict

/-! ### Plain things -/

/-- The text that shows a value, as a value. -/
def Value.plain (v : Value) : Value :=
  .text v.shown

@[simp] theorem Value.shown_plain (v : Value) : v.plain.shown = v.shown :=
  rfl

/-- The rule with texts for its nonterminal and symbols. -/
def Rule.plain (rule : Rule) : Rule :=
  ⟨rule.nonterminal.plain, rule.symbols.map .plain⟩

/-- The item with texts for the nonterminal and symbols of its rule. -/
def Item.plain (item : Item) : Item :=
  ⟨item.rule.plain, item.position⟩

/-- The history with plain items. -/
def History.plain (h : History) : History :=
  ⟨h.first.plain, h.later.map .plain⟩

/-- The piece with a text for its symbol. -/
def Piece.plain : Piece → Piece
  | .symbol value => .symbol value.plain
  | .epsilon => .epsilon

/-- The reduction with a text for its nonterminal. -/
def Reduction.plain (r : Reduction) : Reduction :=
  ⟨r.start, r.stop, r.nonterminal.plain⟩

/-- The example with texts for its symbols and nonterminals. -/
def Example.plain (e : Example) : Example :=
  ⟨e.cursor, e.pieces.map .plain, e.reductions.map .plain⟩

/-- Mapping by places after mapping is mapping by places. -/
theorem mapIdx_map {α β γ : Type} (f : α → β) (g : Nat → β → γ) (xs : List α) :
    (xs.map f).mapIdx g = xs.mapIdx fun i x => g i (f x) := by
  apply List.ext_getElem?
  intro i
  rw [List.getElem?_mapIdx, List.getElem?_mapIdx, List.getElem?_map, Option.map_map]
  rfl

/-! ### The example of plain items -/

namespace SignedIndex

variable {α β : Type} (f : α → β) (xs : List α) (i : Int)

theorem upTo_map : upTo (xs.map f) i = (upTo xs i).map f := by
  rw [upTo, upTo, List.length_map, List.map_take]

theorem since_map : since (xs.map f) i = (since xs i).map f := by
  rw [since, since, List.length_map, List.map_drop]

end SignedIndex

namespace Item

variable (item : Item)

theorem before_plain : item.plain.before = item.before.map .plain :=
  SignedIndex.upTo_map ..

theorem ahead_plain : item.plain.ahead = item.ahead.map .plain :=
  SignedIndex.since_map ..

theorem after_plain : item.plain.after = item.after.map .plain :=
  SignedIndex.since_map ..

end Item

namespace History

theorem unwindFrom_plain (start : Nat) (item : Item) (later : List Item) :
    unwindFrom start item.plain (later.map .plain) = (unwindFrom start item later).plain := by
  have hsymbols : ∀ values : List Value, (values.map Value.plain).map Piece.symbol =
      (values.map Piece.symbol).map Piece.plain := by
    intro values
    rw [List.map_map, List.map_map]
    rfl
  induction later generalizing start item with
  | nil =>
    simp only [List.map_nil, unwindFrom, Item.before_plain, Item.ahead_plain, ← List.map_append,
      hsymbols, List.length_map, List.isEmpty_map]
    split <;> simp only [Example.plain, Reduction.plain, List.map_cons, List.map_nil, Piece.plain,
      Item.plain, Rule.plain, List.length_map, List.length_cons, List.length_nil]
  | cons next later ih =>
    simp only [List.map_cons, unwindFrom, Item.before_plain, Item.after_plain, List.length_map, ih,
      hsymbols]
    simp only [Example.plain, Reduction.plain, List.map_append, List.length_append, List.length_map,
      List.map_cons, List.map_nil, Item.plain, Rule.plain]

/-- The example of plain items is the plain example. -/
theorem unwind_plain (h : History) : h.plain.unwind = h.unwind.plain :=
  unwindFrom_plain 0 h.first h.later

end History

/-! ### What a plain example shows -/

namespace Piece

@[simp] theorem shown_plain (piece : Piece) : piece.plain.shown = piece.shown := by
  cases piece <;> rfl

@[simp] theorem shown?_plain (piece : Piece) : piece.plain.shown? = piece.shown? := by
  cases piece <;> rfl

end Piece

namespace Example

section

variable (e : Example)

theorem line_plain : e.plain.line = e.line := by
  simp only [line, plain, mapIdx_map, List.length_map, Piece.shown?_plain]
  rfl

theorem path_plain : e.plain.path = e.path := by
  rw [path, path, plain, SignedIndex.upTo_map, List.filterMap_map]
  simp only [Function.comp_def, Piece.shown?_plain]

theorem lengths_plain : e.plain.lengths = e.lengths := by
  rw [lengths, lengths, plain, List.map_map]
  congr 1
  apply List.map_congr_left
  intro piece _
  cases piece <;> rfl

end

/-! ### The diagram of a plain example -/

/-- Making room for a label fails on no plain reduction where it does not fail on the reduction. -/
theorem foldlM_widen_plain {lengths columns P : List Int} {reductions : List Reduction}
    (h : reductions.foldlM (Layout.widen lengths) columns = .ok P) :
    (reductions.map Reduction.plain).foldlM (Layout.widen lengths) columns = .ok P := by
  induction reductions generalizing columns with
  | nil => exact h
  | cons r rest ih =>
    rw [List.foldlM_cons, bind_eq_ok_iff] at h
    obtain ⟨Q, hQ, hrest⟩ := h
    rw [List.map_cons, List.foldlM_cons, bind_eq_ok_iff]
    refine ⟨Q, ?_, ih hrest⟩
    unfold Layout.widen at hQ ⊢
    split at hQ
    · cases hQ
    · next hspan =>
      rw [if_neg (show ¬ r.plain.stop - r.plain.start ≤ 0 from hspan)]
      exact hQ

namespace Laid

variable {e : Example} {P : List Int}

theorem plain (laid : e.Laid P) : e.plain.Laid P := by
  refine ⟨?_, ?_, ?_⟩
  · intro r hr
    obtain ⟨r, hmem, rfl⟩ := List.mem_map.mp hr
    obtain ⟨hstart, hspan, hstop⟩ := laid.within r hmem
    refine ⟨hstart, hspan, ?_⟩
    rwa [Example.plain, List.length_map]
  · rw [columns, lengths_plain]
    exact foldlM_widen_plain laid.columns_eq
  · obtain ⟨hlength, hfirst, hapart, hroom⟩ := laid.suits
    rw [lengths_plain]
    refine ⟨hlength, hfirst, hapart, ?_⟩
    intro r hr
    obtain ⟨r, hmem, rfl⟩ := List.mem_map.mp hr
    exact hroom r hmem

/-- The brackets of plain reductions have the same columns and rows. -/
theorem bracketsOver_plain (e : Example) (P : List Int) :
    e.plain.bracketsOver P =
      (e.bracketsOver P).map fun b => { b with reduction := b.reduction.plain } := by
  apply List.ext_getElem?
  intro i
  simp only [bracketsOver, Example.plain, List.getElem?_mapIdx, List.getElem?_map, Option.map_map]
  rfl

theorem marks_plain (e : Example) (P : List Int) : e.plain.marks P = e.marks P := by
  have hpieces : e.plain.pieceMarks P = e.pieceMarks P := by
    rw [pieceMarks, Example.plain, List.zip_map_left, List.flatMap_map]
    simp only [Prod.map_fst, Prod.map_snd, Piece.shown_plain, id]
    rfl
  have hstrokes : e.plain.strokeMarks P = e.strokeMarks P := by
    rw [strokeMarks, bracketsOver_plain, List.flatMap_map]
    rfl
  have hlabels : e.plain.labelMarks P = e.labelMarks P := by
    rw [labelMarks, bracketsOver_plain, List.flatMap_map]
    rfl
  rw [marks, marks, hpieces, hstrokes, hlabels]

theorem drawn_plain (e : Example) (P : List Int) : e.plain.drawn P = e.drawn P := by
  rw [drawn, drawn, marks_plain, width, width]
  simp only [Example.plain, List.length_map]

theorem diagram_plain (laid : e.Laid P) : e.plain.diagram = e.diagram := by
  rw [laid.plain.diagram_eq_ok, laid.diagram_eq_ok, drawn_plain]

end Laid

end Example

end GrammarConflict
