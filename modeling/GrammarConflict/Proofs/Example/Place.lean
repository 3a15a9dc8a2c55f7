import GrammarConflict.Explanation
import GrammarConflict.Proofs.Example.Contribution

/-!
# The place of the conflict

The place of a conflict is shown in three ways.  An item puts a star before the symbol at its
position, the line of an example puts one before the piece at its cursor, and the path leaves out
what comes from the cursor on.  They agree (`History.place_shown_alike`): the pieces of an example
begin with the symbols before the positions of all its items, and the cursor is behind these
(`History.exists_pieces_unwindFrom`).  The line shows the texts on both sides of the cursor with one
star between them (`Example.line_eq`), the path those on one side (`Example.path_eq`), and an item
the texts of its rule on both sides of its position (`Item.text_eq`).
-/

namespace GrammarConflict

/-! ### Lists of texts -/

/-- What is done to the member at one place is done to the head of what begins there. -/
theorem mapIdx_append_ite {α β : Type} (f : α → β) (mark : β → β) (front back : List α) :
    ((front ++ back).mapIdx fun i x => if i = front.length then mark (f x) else f x) =
      front.map f ++ (back.map f).modifyHead mark := by
  have hmodify :
      ((front ++ back).mapIdx fun i x => if i = front.length then mark (f x) else f x) =
        ((front ++ back).map f).modify front.length mark := by
    apply List.ext_getElem?
    intro i
    rw [List.getElem?_mapIdx, List.getElem?_modify, List.getElem?_map]
    by_cases h : front.length = i
    · simp [h, Function.comp_def]
    · simp [h, Ne.symm h]
  have hlength : (front.map f).length = front.length := List.length_map f
  rw [hmodify, List.modify_eq_take_drop, List.map_append, List.take_left' hlength,
    List.drop_left' hlength]

/-- A separator inside a text is as good as one between two texts. -/
theorem intercalate_append_cons (s t u : String) (front back : List String) :
    s.intercalate (front ++ (t ++ s ++ u) :: back) = s.intercalate (front ++ t :: u :: back) := by
  have hback : s.intercalate ((t ++ s ++ u) :: back) = s.intercalate (t :: u :: back) := by
    rw [String.intercalate_cons_append, String.intercalate_cons_cons]
  cases front with
  | nil => exact hback
  | cons v front =>
    rw [String.intercalate_append_of_ne_nil (List.cons_ne_nil _ _) (List.cons_ne_nil _ _), hback,
      ← String.intercalate_append_of_ne_nil (List.cons_ne_nil _ _) (List.cons_ne_nil _ _)]

/-! ### The star in an example -/

namespace Example

variable {e : Example} {front back : List Piece}

/-- The line is the texts before the cursor, a star, and the texts behind it. -/
theorem line_eq (hpieces : e.pieces = front ++ back) (hcursor : e.cursor = front.length) :
    e.line = " ".intercalate
      (front.filterMap Piece.shown? ++ "*" :: back.filterMap Piece.shown?) := by
  have hmarked (i : Nat) (piece : Piece) :
      (if i = front.length then ["*"] else []) ++ piece.shown?.toList =
        if i = front.length then "*" :: piece.shown?.toList else piece.shown?.toList := by
    split <;> rfl
  have hending : front.length = (front ++ back).length ↔ back = [] := by
    rw [List.length_append, ← List.length_eq_zero_iff]
    omega
  have htexts (pieces : List Piece) :
      (pieces.map fun piece => piece.shown?.toList).flatten = pieces.filterMap Piece.shown? := by
    rw [← List.flatMap_def, List.filterMap_eq_flatMap_toList]
  simp only [line, hpieces, hcursor, Int.natCast_inj, hmarked, hending,
    mapIdx_append_ite _ ("*" :: ·), List.flatten_append, htexts, List.append_assoc]
  congr 2
  -- Behind the last piece the star stands alone, else it comes with the piece at the cursor.
  cases back with
  | nil => rfl
  | cons piece back =>
    rw [if_neg (List.cons_ne_nil _ _), List.append_nil, ← htexts (piece :: back)]
    rfl

/-- The path is the texts before the cursor. -/
theorem path_eq (hpieces : e.pieces = front ++ back) (hcursor : e.cursor = front.length) :
    e.path = " ".intercalate (front.filterMap Piece.shown?) := by
  have hle : front.length ≤ (front ++ back).length := by
    rw [List.length_append]
    exact Nat.le_add_right ..
  rw [path, hpieces, hcursor, SignedIndex.upTo_natCast hle, List.take_left]

end Example

/-! ### The star in an item -/

/-- The texts of the symbols before the position, a star, and the texts of those from there on. -/
theorem Item.text_eq {item : Item} (valid : item.Valid) :
    item.text = item.rule.nonterminal.shown ++ " -> " ++ " ".intercalate
      (item.before.map Value.shown ++ "*" :: item.ahead.map Value.shown) := by
  have hposition : item.position = item.before.length := valid.length_before.symm
  have hsymbols : item.rule.symbols = item.before ++ item.ahead := item.before_append_ahead.symm
  have hatEnd : item.atEnd ↔ item.ahead = [] := by
    rw [atEnd, decide_eq_true_iff, hposition, hsymbols, List.length_append,
      ← List.length_eq_zero_iff]
    omega
  have hmarked : (item.rule.symbols.mapIdx fun i symbol =>
      if (i : Int) = item.position then "* " ++ symbol.shown else symbol.shown) =
        item.before.map Value.shown ++ (item.ahead.map Value.shown).modifyHead ("* " ++ ·) := by
    simp only [hposition, Int.natCast_inj]
    rw [hsymbols]
    exact mapIdx_append_ite Value.shown ("* " ++ ·) item.before item.ahead
  rw [text, markedSymbols, hmarked]
  congr 1
  simp only [hatEnd]
  generalize item.ahead = ahead
  cases ahead with
  | nil => rw [if_pos rfl, List.map_nil, List.modifyHead_nil, List.append_nil]
  | cons symbol ahead =>
    rw [if_neg (List.cons_ne_nil _ _), List.map_cons, List.modifyHead_cons]
    exact intercalate_append_cons " " "*" symbol.shown _ _

/-! ### The place in a history -/

namespace History

/-- The symbols that items have recognized, the first item's first. -/
def recognized (items : List Item) : List Value :=
  items.flatMap Item.before

/-- What items contribute begins with the symbols that they have recognized, and the cursor is
behind these. -/
theorem exists_pieces_unwindFrom (start : Nat) (item : Item) (later : List Item) :
    ∃ back, (unwindFrom start item later).pieces =
        (recognized (item :: later)).map .symbol ++ back ∧
      (unwindFrom start item later).cursor =
        (start + (recognized (item :: later)).length : Nat) := by
  induction later generalizing start item with
  | nil =>
    rw [unwindFrom_nil, recognized, List.flatMap_singleton, Rule.pieces]
    split
    · next hempty =>
      rw [← item.before_append_ahead] at hempty
      rw [(List.append_eq_nil_iff.mp hempty).1]
      exact ⟨[.epsilon], rfl, rfl⟩
    · refine ⟨item.ahead.map .symbol, ?_, rfl⟩
      rw [← List.map_append, item.before_append_ahead]
  | cons next later ih =>
    obtain ⟨back, hpieces, hcursor⟩ := ih (start + item.before.length) next
    have hcons : recognized (item :: next :: later) = item.before ++ recognized (next :: later) :=
      List.flatMap_cons
    refine ⟨back ++ item.after.map .symbol, ?_, ?_⟩
    · rw [unwindFrom, hpieces, hcons, List.map_append]
      simp only [List.append_assoc]
    · rw [unwindFrom, hcursor, hcons, List.length_append, Nat.add_assoc]

theorem exists_pieces_unwind (h : History) :
    ∃ back, h.unwind.pieces = (recognized h.items).map .symbol ++ back ∧
      h.unwind.cursor = ((recognized h.items).map Piece.symbol).length := by
  obtain ⟨back, hpieces, hcursor⟩ := exists_pieces_unwindFrom 0 h.first h.later
  refine ⟨back, hpieces, ?_⟩
  rw [List.length_map, unwind, hcursor, Nat.zero_add]
  rfl

theorem filterMap_shown?_symbol (values : List Value) :
    (values.map Piece.symbol).filterMap Piece.shown? = values.map Value.shown := by
  rw [List.filterMap_map, ← List.filterMap_eq_map]
  rfl

/-- An empty place has no text. -/
theorem filterMap_shown?_pieces (rule : Rule) :
    rule.pieces.filterMap Piece.shown? = rule.symbols.map Value.shown := by
  rw [Rule.pieces]
  split
  · next hempty =>
    rw [hempty]
    rfl
  · exact filterMap_shown?_symbol _

end History

/-- The text of an item is the line of its own example, behind the nonterminal and an arrow. -/
theorem Item.text_eq_line {item : Item} (valid : item.Valid) :
    item.text =
      item.rule.nonterminal.shown ++ " -> " ++ (History.mk item []).unwind.line := by
  obtain ⟨back, hpieces, hcursor⟩ := (History.mk item []).exists_pieces_unwind
  have hrecognized : History.recognized (History.mk item []).items = item.before :=
    List.flatMap_singleton ..
  have hrule : (History.mk item []).unwind.pieces = item.rule.pieces :=
    History.unwindFrom_nil_pieces 0 item
  rw [hrecognized] at hpieces hcursor
  -- The pieces behind the cursor show the symbols from the position on.
  have htexts : item.before.map Value.shown ++ back.filterMap Piece.shown? =
      item.before.map Value.shown ++ item.ahead.map Value.shown := by
    rw [← List.map_append, item.before_append_ahead, ← History.filterMap_shown?_pieces, ← hrule,
      hpieces, List.filterMap_append, History.filterMap_shown?_symbol]
  rw [item.text_eq valid, Example.line_eq hpieces hcursor, History.filterMap_shown?_symbol,
    List.append_cancel_left htexts]

/-- **The place of the conflict is shown alike.**  The pieces of the example of items begin with the
symbols that the items have recognized.  The line has one star between their texts and those of the
other symbols, and the path of an explanation that begins with the example is their texts.  The text
of a single item is the line of its example, behind the nonterminal and an arrow. -/
theorem History.place_shown_alike (first : Item) (later : List Item) :
    ∃ h back, ofItems (first :: later) = .ok h ∧
      h.unwind.pieces = (recognized (first :: later)).map .symbol ++ back ∧
      h.unwind.line = " ".intercalate ((recognized (first :: later)).map Value.shown ++ ["*"] ++
        back.filterMap Piece.shown?) ∧
      (∀ e : Explanation, e.examples.head? = some h.unwind →
        e.path = " ".intercalate ((recognized (first :: later)).map Value.shown)) ∧
      (later = [] → first.Valid →
        first.text = first.rule.nonterminal.shown ++ " -> " ++ h.unwind.line) := by
  let h : History := ⟨first, later⟩
  obtain ⟨back, hpieces, hcursor⟩ := h.exists_pieces_unwind
  have hline := Example.line_eq hpieces hcursor
  have hpath := Example.path_eq hpieces hcursor
  rw [filterMap_shown?_symbol] at hline hpath
  refine ⟨h, back, rfl, hpieces, ?_, ?_, ?_⟩
  · rw [hline, List.append_assoc]
    rfl
  · rintro ⟨examples, truncated, lookahead, description⟩ hfirst
    obtain ⟨rest, rfl⟩ := List.head?_eq_some_iff.mp hfirst
    exact hpath
  · rintro rfl valid
    exact first.text_eq_line valid

/-- Behind an item at its end and one in the middle of its rule, the star of an empty rule stands
where the rule leaves its place. -/
theorem History.place_shown_alike_emptyRuleSample :
    let empty : Item := ⟨⟨.text "Foo", []⟩, 0⟩
    empty.Valid ∧ empty.text = "Foo -> *" ∧
    ∃ h, ofItems (outerSample ++ [empty]) = .ok h ∧ h.unwind.line = "B S A * C" ∧
      Explanation.path ⟨[h.unwind], false, none, none⟩ = "B S A" := by
  intro empty
  have valid : empty.Valid := by decide
  obtain ⟨alone, rest, halone, hrest, hstar, -, htext⟩ := place_shown_alike empty []
  obtain rfl := Except.ok.inj halone
  obtain rfl : [.epsilon] = rest := hrest
  obtain ⟨h, back, hitems, hpieces, hline, hpath, -⟩ :=
    place_shown_alike ⟨⟨.text "T", [.text "B", .text "S"]⟩, 2⟩
      [⟨⟨.text "S", [.text "A", .text "Foo", .text "C"]⟩, 1⟩, empty]
  have hback : [.symbol (.text "B"), .symbol (.text "S"), .symbol (.text "A")] ++
      [.epsilon, .symbol (.text "C")] =
      [.symbol (.text "B"), .symbol (.text "S"), .symbol (.text "A")] ++ back := by
    obtain rfl := Except.ok.inj hitems
    exact hpieces
  rw [← List.append_cancel_left hback] at hline
  refine ⟨valid, ?_, h, hitems, ?_, ?_⟩
  · rw [htext rfl valid, hstar]
    decide
  · rw [hline]
    decide
  · rw [hpath _ rfl]
    decide

end GrammarConflict
