import GrammarConflict.Proofs.Diagram.Rows
import GrammarConflict.Proofs.Example.Place
import GrammarConflict.Proofs.Explanation.Plain

/-!
# The lines of an explanation

The text of an explanation is its lines with line feeds between them: a header, a block for each
history that is shown, and a note if there are more.  When no text that goes into it is broken into
lines itself, no line is (`Blocks.oneLine`, `Explanation.oneLine_header`), and so the text can be
split again into the lines that it was made from (`Trace.text_splits_into_lines`).

The rows of a diagram are set off by two blanks.  This adds no blank at the end of a row, for a row
that is empty stays so (`indented_eq_setOff`).
-/

namespace GrammarConflict

/-! ### Texts on one line -/

namespace Text

/-- The text has no line feed in it. -/
def OneLine (text : String) : Prop :=
  '\n' ∉ text.toList

instance (text : String) : Decidable (OneLine text) :=
  inferInstanceAs (Decidable (¬ _))

theorem OneLine.append {a b : String} (ha : OneLine a) (hb : OneLine b) : OneLine (a ++ b) := by
  rw [OneLine, String.toList_append, List.mem_append, not_or]
  exact ⟨ha, hb⟩

theorem oneLine_intercalate {s : String} {texts : List String} (hs : OneLine s)
    (htexts : ∀ text ∈ texts, OneLine text) : OneLine (s.intercalate texts) := by
  induction texts with
  | nil =>
    rw [String.intercalate_nil]
    decide
  | cons text rest ih =>
    obtain ⟨htext, hrest⟩ := List.forall_mem_cons.mp htexts
    by_cases hlast : rest = []
    · rw [hlast, String.intercalate_singleton]
      exact htext
    · rw [String.intercalate_cons_of_ne_nil hlast]
      exact (htext.append hs).append (ih hrest)

/-- A number is written in digits. -/
theorem oneLine_toString (n : Nat) : OneLine (toString n) := by
  intro h
  rw [Nat.toString_eq_repr, Nat.toList_repr] at h
  have hdigit := Nat.isDigit_of_mem_toDigits (by decide) (by decide) h
  revert hdigit
  decide

end Text

/-- No text that the rule shows is broken into lines. -/
structure Rule.OneLine (rule : Rule) : Prop where
  nonterminal : Text.OneLine rule.nonterminal.shown
  symbols : ∀ symbol ∈ rule.symbols, Text.OneLine symbol.shown

/-- No text that the example shows is broken into lines. -/
structure Example.OneLine (e : Example) : Prop where
  pieces : ∀ piece ∈ e.pieces, Text.OneLine piece.shown
  nonterminals : ∀ r ∈ e.reductions, Text.OneLine r.nonterminal.shown

/-- No text of a rule that the trace leads to is broken into lines. -/
def Trace.OneLine (t : Trace) : Prop :=
  ∀ s, t.Reaches s → s.item.rule.OneLine

/-- No text of the request is broken into lines. -/
structure Request.OneLine (request : Request) : Prop where
  lookahead : ∀ token ∈ request.lookahead, Text.OneLine token
  description : ∀ text ∈ request.description, Text.OneLine text

theorem Trace.oneLine_iff {t : Trace} :
    t.OneLine ↔ t.item.rule.OneLine ∧ ∀ p ∈ t.parents, p.OneLine :=
  forall_reaches_iff

/-! ### From a trace to its examples -/

/-- Every item of a history is the item of a trace that is reached. -/
theorem Trace.Path.exists_reaches {t : Trace} {choices : List Nat} {h : History}
    (path : t.Path choices h) : ∀ item ∈ h.items, ∃ s, t.Reaches s ∧ s.item = item := by
  induction path with
  | @start t no_parents =>
    intro item hitem
    obtain rfl := List.mem_singleton.mp hitem
    exact ⟨t, .refl, rfl⟩
  | @through t p i choices h parent path ih =>
    intro item hitem
    rw [History.items_followedBy] at hitem
    rcases List.mem_append.mp hitem with hitem | hitem
    · obtain ⟨s, hs, rfl⟩ := ih item hitem
      exact ⟨s, .head (hasParent_of_getElem? parent) hs, rfl⟩
    · obtain rfl := List.mem_singleton.mp hitem
      exact ⟨t, .refl, rfl⟩

namespace History

/-- The pieces are symbols of the items, or an empty place. -/
theorem of_mem_pieces_unwindFrom (start : Nat) {item : Item} {later : List Item} {piece : Piece}
    (h : piece ∈ (unwindFrom start item later).pieces) :
    piece = .epsilon ∨ ∃ i ∈ item :: later, ∃ value ∈ i.rule.symbols, piece = .symbol value := by
  induction later generalizing start item with
  | nil =>
    rw [unwindFrom_nil, Rule.pieces] at h
    split at h
    · exact .inl (List.mem_singleton.mp h)
    · obtain ⟨value, hvalue, rfl⟩ := List.mem_map.mp h
      exact .inr ⟨item, List.mem_cons_self, value, hvalue, rfl⟩
  | cons next later ih =>
    -- What the item puts on either side is taken from its own rule.
    have hside {values : List Value} (hvalues : values ⊆ item.rule.symbols)
        (hside : piece ∈ values.map Piece.symbol) :
        ∃ i ∈ item :: next :: later, ∃ value ∈ i.rule.symbols, piece = .symbol value := by
      obtain ⟨value, hvalue, rfl⟩ := List.mem_map.mp hside
      exact ⟨item, List.mem_cons_self, value, hvalues hvalue, rfl⟩
    rw [unwindFrom] at h
    rcases List.mem_append.mp h with h | hafter
    · rcases List.mem_append.mp h with hbefore | hinner
      · exact .inr (hside (List.take_subset ..) hbefore)
      · rcases ih _ hinner with hepsilon | ⟨i, hi, hsymbol⟩
        · exact .inl hepsilon
        · exact .inr ⟨i, List.mem_cons_of_mem _ hi, hsymbol⟩
    · exact .inr (hside (List.drop_subset ..) hafter)

/-- An example shows only texts of its items. -/
theorem oneLine_unwind {h : History} (hitems : ∀ item ∈ h.items, item.rule.OneLine) :
    h.unwind.OneLine := by
  constructor
  · intro piece hpiece
    obtain rfl | ⟨item, hitem, value, hvalue, rfl⟩ := of_mem_pieces_unwindFrom 0 hpiece
    · decide
    · exact (hitems item hitem).symbols value hvalue
  · intro r hr
    have hmem : r.nonterminal ∈ h.items.reverse.map (·.rule.nonterminal) := by
      rw [items, ← nonterminals_unwindFrom 0 h.first h.later]
      exact List.mem_map_of_mem hr
    obtain ⟨item, hitem, heq⟩ := List.mem_map.mp hmem
    rw [← heq]
    exact (hitems item (List.mem_reverse.mp hitem)).nonterminal

end History

theorem Trace.OneLine.unwind {t : Trace} (htrace : t.OneLine) {h : History}
    (hmem : h ∈ t.histories) : h.unwind.OneLine := by
  obtain ⟨choices, path⟩ := mem_histories.mp hmem
  refine History.oneLine_unwind fun item hitem => ?_
  obtain ⟨s, hs, rfl⟩ := path.exists_reaches item hitem
  exact htrace s hs

/-! ### What an example shows is on one line -/

namespace Example.OneLine

variable {e : Example}

theorem texts (h : e.OneLine) {pieces : List Piece} (hpieces : pieces ⊆ e.pieces) :
    ∀ text ∈ pieces.filterMap Piece.shown?, Text.OneLine text := by
  intro text htext
  obtain ⟨piece, hpiece, hshown⟩ := List.mem_filterMap.mp htext
  have hline := h.pieces piece (hpieces hpiece)
  cases piece with
  | symbol value => exact Option.some.inj hshown ▸ hline
  | epsilon => cases hshown

/-- The rows of a diagram have no characters but strokes, blanks, and those of the texts. -/
theorem row (h : e.OneLine) {P : List Int} (laid : e.Laid P) :
    ∀ row ∈ (e.drawn P).lines, Text.OneLine row := by
  intro row hrow hfeed
  have hmem : '\n' ∈ e.alphabet := laid.mem_alphabet hrow hfeed
  rcases List.mem_append.mp hmem with hmem | hlabel
  · rcases List.mem_append.mp hmem with hstroke | hpiece
    · revert hstroke
      decide
    · obtain ⟨piece, hpiece, hfeed⟩ := List.mem_flatMap.mp hpiece
      exact h.pieces piece hpiece hfeed
  · obtain ⟨r, hr, hfeed⟩ := List.mem_flatMap.mp hlabel
    exact h.nonterminals r hr hfeed

end Example.OneLine

namespace History

theorem oneLine_line {h : History} (hline : h.unwind.OneLine) : Text.OneLine h.unwind.line := by
  obtain ⟨back, hpieces, hcursor⟩ := h.exists_pieces_unwind
  rw [Example.line_eq hpieces hcursor]
  refine Text.oneLine_intercalate (by decide) fun text htext => ?_
  rcases List.mem_append.mp htext with hfront | htext
  · exact hline.texts (hpieces ▸ List.subset_append_left ..) text hfront
  rcases List.mem_cons.mp htext with rfl | hback
  · decide
  · exact hline.texts (hpieces ▸ List.subset_append_right ..) text hback

theorem oneLine_path {h : History} (hline : h.unwind.OneLine) : Text.OneLine h.unwind.path := by
  obtain ⟨back, hpieces, hcursor⟩ := h.exists_pieces_unwind
  rw [Example.path_eq hpieces hcursor]
  exact Text.oneLine_intercalate (by decide)
    (hline.texts (hpieces ▸ List.subset_append_left ..))

end History

/-! ### Blocks of lines -/

namespace Explanation

/-- A row that is set off from the left, unless there is nothing in it. -/
def setOff (row : String) : String :=
  if row = "" then "" else "  " ++ row

/-- The lines for a history of a number: an empty one, the number, the line of its example, and the
rows of the diagram. -/
structure Block (number : Nat) (h : History) (rows block : List String) : Prop where
  diagram_eq : h.unwind.diagram = .ok rows
  length_rows : rows.length = 1 + 2 * h.items.length
  trimmed : ∀ row ∈ rows, Text.Trimmed row ∧ Text.Trimmed (setOff row)
  block_eq : block = "" :: ("Example " ++ toString number ++ ":") :: ("  " ++ h.unwind.line) ::
    rows.map setOff

/-- The blocks of histories that are numbered from `number` on. -/
inductive Blocks : Nat → List History → List (List String) → Prop
  | nil (number : Nat) : Blocks number [] []
  | cons {number : Nat} {h : History} {rows block : List String} {hs : List History}
      {blocks : List (List String)} (block_of : Block number h rows block)
      (rest : Blocks (number + 1) hs blocks) : Blocks number (h :: hs) (block :: blocks)

section

variable {number : Nat} {h : History} {hs : List History} {rows block : List String}
  {blocks : List (List String)}

theorem getLast?_setOff {row : String} (hne : row ≠ "") :
    (setOff row).toList.getLast? = row.toList.getLast? := by
  have hsome : row.toList ≠ [] := fun hnil => hne (String.toList_eq_nil_iff.mp hnil)
  rw [setOff, if_neg hne, String.toList_append, List.getLast?_append_of_ne_nil _ hsome]

theorem trimmed_setOff {row : String} (hrow : Text.Trimmed row) : Text.Trimmed (setOff row) := by
  by_cases hne : row = ""
  · rw [hne]
    exact fun c hc => nomatch hc
  · intro c hc
    rw [getLast?_setOff hne] at hc
    exact hrow c hc

/-- Taking off the blanks at its end leaves a row with blanks in front of it as it is, if there is
anything in the row. -/
theorem indented_eq_setOff {row : String} (hrow : Text.Trimmed row) :
    indented row = setOff row := by
  by_cases hne : row = ""
  · rw [hne]
    rfl
  · obtain ⟨before, c, hlast⟩ :=
      (List.eq_nil_or_concat' row.toList).resolve_left fun hnil =>
        hne (String.toList_eq_nil_iff.mp hnil)
    have hc : Text.isBlank c = false := hrow c (by rw [hlast, List.getLast?_concat])
    have htrim : Text.trimEnd ("  " ++ row).toList = ("  " ++ row).toList := by
      rw [String.toList_append, hlast, ← List.append_assoc]
      exact Text.trimEnd_append_cons hc _ []
    rw [indented, htrim, setOff, if_neg hne, String.ofList_toList]

theorem Block.length_eq (hblock : Block number h rows block) :
    block.length = 4 + 2 * h.items.length := by
  have hrows := hblock.length_rows
  rw [hblock.block_eq]
  simp only [List.length_cons, List.length_map]
  omega

/-- If the texts of the example are on one line each, so is every line of the block. -/
theorem Block.oneLine (hblock : Block number h rows block) (hline : h.unwind.OneLine) :
    ∀ line ∈ block, Text.OneLine line := by
  have hrow : ∀ row ∈ rows, Text.OneLine row := by
    obtain ⟨P, laid⟩ := h.exists_laid
    obtain rfl := Except.ok.inj (laid.diagram_eq_ok.symm.trans hblock.diagram_eq)
    exact hline.row laid
  have hblanks : Text.OneLine "  " := by decide
  have hsetOff : ∀ line ∈ rows.map setOff, Text.OneLine line := by
    intro line hmem
    obtain ⟨row, hrow', rfl⟩ := List.mem_map.mp hmem
    rw [setOff]
    split
    · decide
    · exact hblanks.append (hrow row hrow')
  have hnumber : Text.OneLine ("Example " ++ toString number ++ ":") :=
    ((by decide : Text.OneLine "Example ").append (Text.oneLine_toString number)).append (by decide)
  rw [hblock.block_eq]
  simp only [List.forall_mem_cons]
  exact ⟨by decide, hnumber, hblanks.append (History.oneLine_line hline), hsetOff⟩

theorem exists_block (number : Nat) (h : History) :
    ∃ rows block, exampleLines number h.unwind = .ok block ∧ Block number h rows block := by
  obtain ⟨P, laid⟩ := h.exists_laid
  have htrimmed : ∀ row ∈ (h.unwind.drawn P).lines, Text.Trimmed row := fun _ => laid.trimmed
  have hindented : (h.unwind.drawn P).lines.map indented = (h.unwind.drawn P).lines.map setOff :=
    List.map_congr_left fun row hrow => indented_eq_setOff (htrimmed row hrow)
  refine ⟨_, _, ?_, laid.diagram_eq_ok, ?_, ?_, rfl⟩
  · rw [exampleLines, laid.diagram_eq_ok, ← hindented]
    rfl
  · rw [Canvas.length_lines, laid.height_drawn, h.length_reductions_unwind]
  · exact fun row hrow => ⟨htrimmed row hrow, trimmed_setOff (htrimmed row hrow)⟩

/-- Histories are shown block by block. -/
theorem exists_blocks (number : Nat) (hs : List History) :
    ∃ blocks, examplesLines number (hs.map History.unwind) = .ok blocks.flatten ∧
      Blocks number hs blocks := by
  induction hs generalizing number with
  | nil => exact ⟨[], rfl, .nil number⟩
  | cons h hs ih =>
    obtain ⟨rows, block, hlines, hblock⟩ := exists_block number h
    obtain ⟨blocks, hothers, hblocks⟩ := ih (number + 1)
    refine ⟨block :: blocks, ?_, .cons hblock hblocks⟩
    rw [List.map_cons, examplesLines, hlines, hothers]
    rfl

theorem Blocks.lengths_eq (hblocks : Blocks number hs blocks) :
    blocks.map List.length = hs.map fun h => 4 + 2 * h.items.length := by
  induction hblocks with
  | nil number => rfl
  | cons block_of rest ih => rw [List.map_cons, List.map_cons, block_of.length_eq, ih]

theorem Blocks.oneLine (hblocks : Blocks number hs blocks) (hlines : ∀ h ∈ hs, h.unwind.OneLine) :
    ∀ line ∈ blocks.flatten, Text.OneLine line := by
  induction hblocks with
  | nil number => exact fun line hline => nomatch hline
  | cons block_of rest ih =>
    obtain ⟨hfirst, hothers⟩ := List.forall_mem_cons.mp hlines
    rw [List.flatten_cons]
    exact List.forall_mem_append.mpr ⟨block_of.oneLine hfirst, ih hothers⟩

end

/-! ### The whole explanation -/

theorem oneLine_header {e : Explanation} (hpath : Text.OneLine e.path)
    (hlookahead : ∀ token ∈ e.lookahead, Text.OneLine token)
    (hdescription : ∀ text ∈ e.description, Text.OneLine text) : Text.OneLine e.header := by
  have hparsed : Text.OneLine ("When we have parsed '" ++ e.path ++ "'") :=
    ((by decide : Text.OneLine "When we have parsed '").append hpath).append (by decide)
  unfold header
  refine ((hparsed.append ?_).append (by decide)).append ?_
  · cases hsome : e.lookahead with
    | none => decide
    | some token =>
      have hquote : Text.OneLine " and see '" := by decide
      exact (hquote.append (hlookahead token hsome)).append (by decide)
  · cases hsome : e.description with
    | none => decide
    | some text =>
      have hcolon : Text.OneLine ": " := by decide
      show Text.OneLine (if text.isEmpty then "" else ": " ++ text)
      split
      · decide
      · exact hcolon.append (hdescription text hsome)

theorem oneLine_path {e : Explanation} {hs : List History} (he : e.examples = hs.map History.unwind)
    (hlines : ∀ h ∈ hs, h.unwind.OneLine) : Text.OneLine e.path := by
  rw [path, he]
  cases hs with
  | nil => decide
  | cons h hs => exact History.oneLine_path (hlines h List.mem_cons_self)

/-- The lines that say how many examples are shown, if there are more. -/
def note (truncated : Bool) (count : Nat) : List String :=
  if truncated then ["", "(only the first " ++ toString count ++ " examples are shown)"] else []

theorem oneLine_note (truncated : Bool) (count : Nat) :
    ∀ line ∈ note truncated count, Text.OneLine line := by
  have hcount : Text.OneLine ("(only the first " ++ toString count ++ " examples are shown)") :=
    ((by decide : Text.OneLine "(only the first ").append (Text.oneLine_toString count)).append
      (by decide)
  rw [note]
  split
  · exact List.forall_mem_cons.mpr ⟨by decide, List.forall_mem_singleton.mpr hcount⟩
  · exact fun line hline => nomatch hline

theorem lines_eq_ok {e : Explanation} {shown : List String}
    (h : examplesLines 1 e.examples = .ok shown) :
    e.lines = .ok (e.header :: (shown ++ note e.truncated e.examples.length)) := by
  rw [lines, h]
  rfl

end Explanation

namespace Trace

/-- **The text of an explanation can be taken apart.**  With a limit in bounds, and no line feed in
the texts that are shown, the text is split at the line feeds into the lines of the explanation.
These are the header, a block for each history that is shown, numbered from one on, and two more
lines just when there are more histories.  A block has four lines and two for each item. -/
theorem text_splits_into_lines (t : Trace) (request : Request) (hpos : 1 ≤ request.limit)
    (hlt : request.limit < limitBound) (htrace : t.OneLine) (hrequest : request.OneLine) :
    ∃ e text lines blocks, t.explain request = .ok e ∧ e.text = .ok text ∧ e.lines = .ok lines ∧
      (text.split '\n').toList.map String.Slice.copy = lines ∧
      lines = e.header :: (blocks.flatten ++ if request.limit < t.pathCount then
        ["", "(only the first " ++ toString e.examples.length ++ " examples are shown)"] else []) ∧
      e.examples = (t.histories.take request.limit.toNat).map History.unwind ∧
      Explanation.Blocks 1 (t.histories.take request.limit.toNat) blocks ∧
      blocks.map List.length = (t.histories.take request.limit.toNat).map fun h =>
        4 + 2 * h.items.length := by
  have he := explain_of_limit (t := t) hpos hlt
  generalize hshown : t.histories.take request.limit.toNat = shown at he ⊢
  have hlines : ∀ h ∈ shown, h.unwind.OneLine := by
    intro h hmem
    rw [← hshown] at hmem
    exact htrace.unwind (List.mem_of_mem_take hmem)
  obtain ⟨blocks, hexamples, hblocks⟩ := Explanation.exists_blocks 1 shown
  let e : Explanation := ⟨shown.map History.unwind, decide (request.limit < t.pathCount),
    request.lookahead, request.description⟩
  have hok := Explanation.lines_eq_ok (e := e) hexamples
  have htext : e.text = .ok ("\n".intercalate (e.header ::
      (blocks.flatten ++ Explanation.note e.truncated e.examples.length))) := by
    rw [Explanation.text, hok]
    rfl
  have hheader : Text.OneLine e.header := Explanation.oneLine_header
    (Explanation.oneLine_path rfl hlines) hrequest.lookahead hrequest.description
  have hall : ∀ line ∈ e.header ::
      (blocks.flatten ++ Explanation.note e.truncated e.examples.length), Text.OneLine line :=
    List.forall_mem_cons.mpr ⟨hheader, List.forall_mem_append.mpr
      ⟨hblocks.oneLine hlines, Explanation.oneLine_note _ _⟩⟩
  have hsplit := String.toList_split_intercalate hall
  rw [if_neg (List.cons_ne_nil _ _)] at hsplit
  refine ⟨e, _, _, blocks, he, htext, hok, hsplit, ?_, rfl, hblocks, hblocks.lengths_eq⟩
  simp only [Explanation.note, e, decide_eq_true_eq]

theorem oneLine_forkSample : forkSample.OneLine := by
  have hrule (name symbol : String) (hname : Text.OneLine name) (hsymbol : Text.OneLine symbol) :
      Rule.OneLine ⟨.text name, [.text symbol]⟩ :=
    ⟨hname, List.forall_mem_singleton.mpr hsymbol⟩
  have hleaf (tag : Nat) (name : String) (hname : Text.OneLine name) :
      Trace.OneLine ⟨tag, ⟨⟨.text name, [.text "Foo"]⟩, 0⟩, []⟩ :=
    oneLine_iff.mpr ⟨hrule name "Foo" hname (by decide), fun p hp => nomatch hp⟩
  have hinner : Trace.OneLine ⟨3, ⟨⟨.text "Foo", [.text "Foo"]⟩, 0⟩, _⟩ :=
    oneLine_iff.mpr ⟨hrule "Foo" "Foo" (by decide) (by decide), List.forall_mem_cons.mpr
      ⟨hleaf 0 "S" (by decide), List.forall_mem_singleton.mpr (hleaf 1 "T" (by decide))⟩⟩
  refine oneLine_iff.mpr ⟨hrule "Foo" "W" (by decide) (by decide), ?_⟩
  exact List.forall_mem_cons.mpr ⟨hinner, List.forall_mem_cons.mpr
    ⟨hleaf 0 "S" (by decide), List.forall_mem_singleton.mpr (hleaf 2 "U" (by decide))⟩⟩

/-- Of four histories three are shown, two with three items and one with two. -/
theorem text_splits_into_lines_forkSample :
    let request : Request := ⟨some "W", some "reduce/reduce", 3⟩
    forkSample.OneLine ∧ request.OneLine ∧
    ∃ e text, forkSample.explain request = .ok e ∧ e.text = .ok text ∧
      (text.split '\n').toList.length = 1 + (10 + 10 + 8) + 2 := by
  intro request
  have hrequest : request.OneLine := by
    constructor
    · intro token htoken
      obtain rfl := Option.some.inj htoken
      decide
    · intro description hdescription
      obtain rfl := Option.some.inj hdescription
      decide
  obtain ⟨e, text, lines, blocks, he, htext, -, hsplit, hlines, -, -, hlengths⟩ :=
    text_splits_into_lines forkSample request (by decide) (by decide) oneLine_forkSample hrequest
  have hshown : blocks.map List.length = [10, 10, 8] := hlengths
  have hmore : request.limit < forkSample.pathCount := by decide
  refine ⟨oneLine_forkSample, hrequest, e, text, he, htext, ?_⟩
  rw [← List.length_map (f := String.Slice.copy), hsplit, hlines, if_pos hmore, List.length_cons,
    List.length_append, List.length_flatten, hshown]
  rfl

end Trace

end GrammarConflict
