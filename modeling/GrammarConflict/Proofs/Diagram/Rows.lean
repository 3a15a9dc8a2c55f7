import GrammarConflict.Proofs.Diagram.Marks

/-!
# What stands in the rows of a diagram

A diagram is made of blanks, strokes and the characters of the texts that it shows: these are the
alphabet of the example, and there is no other character in any row (`Laid.mem_alphabet`).  No row
ends in a blank (`Laid.trimmed`).
-/

namespace GrammarConflict

/-- The text does not end in a blank. -/
def Text.Trimmed (text : String) : Prop :=
  ∀ c, text.toList.getLast? = some c → Text.isBlank c = false

/-- The marks of a text write characters of it. -/
theorem mem_of_mem_textMarks {r c row column : Nat} {chars : List Char} {ch : Char}
    (h : ⟨row, column, .write ch⟩ ∈ textMarks r c chars) : ch ∈ chars := by
  obtain ⟨k, ch', hch, heq⟩ := mem_textMarks_iff.mp h
  obtain ⟨-, -, hwrite⟩ := Mark.mk.inj heq
  obtain rfl := Touch.write.inj hwrite
  exact List.mem_of_getElem? hch

namespace Example

/-- The characters that the diagram of an example is made of. -/
def alphabet (e : Example) : List Char :=
  [' ', vertical, horizontal, corner] ++ e.pieces.flatMap (·.shown.toList) ++
    e.reductions.flatMap (·.nonterminal.shown.toList)

variable {e : Example} {P : List Int} {row : String}

/-- Of all marks only those of pieces and labels write characters. -/
theorem mem_alphabet_of_mem_marks {r c : Nat} {ch : Char} (h : ⟨r, c, .write ch⟩ ∈ e.marks P) :
    ch ∈ e.alphabet := by
  rcases List.mem_append.mp h with hpieces | hbrackets
  · obtain ⟨⟨piece, column⟩, hplace, htext⟩ := List.mem_flatMap.mp hpieces
    have hpiece : piece ∈ e.pieces := (List.of_mem_zip hplace).1
    exact List.mem_append_left _ (List.mem_append_right _
      (List.mem_flatMap.mpr ⟨piece, hpiece, mem_of_mem_textMarks htext⟩))
  rcases List.mem_append.mp hbrackets with hstrokes | hlabels
  · obtain ⟨b, -, hstroke⟩ := List.mem_flatMap.mp hstrokes
    rcases Bracket.mem_strokes_iff.mp hstroke with ⟨hdown, -⟩ | ⟨halong, -⟩
    · cases hdown
    · cases halong
  · obtain ⟨b, hb, hlabel⟩ := List.mem_flatMap.mp hlabels
    obtain ⟨i, hi, rfl⟩ := List.mem_mapIdx.mp hb
    exact List.mem_append_right _
      (List.mem_flatMap.mpr ⟨_, List.getElem_mem hi, mem_of_mem_textMarks hlabel⟩)

theorem cell_drawn_mem_alphabet (e : Example) (P : List Int) (r c : Nat) :
    (e.drawn P).cell r c ∈ e.alphabet := by
  rw [drawn, Canvas.cell_markedAll, Canvas.cell_blank]
  rcases Canvas.touched_cases ' ' (touches (e.marks P) r c) with hblank | hstroke | hwritten
  · rw [hblank]
    exact List.mem_cons_self
  · exact List.mem_append_left _ (List.mem_append_left _ (List.mem_cons_of_mem _ hstroke))
  · exact mem_alphabet_of_mem_marks (mem_touches_iff.mp hwritten)

/-- The rows of the diagram are the rows of the canvas without the blanks at their ends. -/
theorem Laid.exists_row (laid : e.Laid P) (h : row ∈ (e.drawn P).lines) :
    ∃ r, row = String.ofList (Text.trimEnd ((e.drawn P).segment r 0 (e.width P))) := by
  obtain ⟨r, hr⟩ := List.getElem?_of_mem h
  have hlt : r < (e.drawn P).height := by
    rw [← Canvas.length_lines]
    exact (List.getElem?_eq_some_iff.mp hr).1
  rw [Canvas.getElem?_lines hlt, laid.width_drawn (laid.height_drawn ▸ hlt)] at hr
  exact ⟨r, (Option.some.inj hr).symm⟩

/-- **The characters of a diagram** are blanks, strokes, and those of the texts in it. -/
theorem Laid.mem_alphabet (laid : e.Laid P) (h : row ∈ (e.drawn P).lines) {c : Char}
    (hc : c ∈ row.toList) : c ∈ e.alphabet := by
  obtain ⟨r, rfl⟩ := laid.exists_row h
  rw [String.toList_ofList] at hc
  obtain ⟨k, -, rfl⟩ := List.mem_map.mp ((Text.trimEnd_isPrefix _).subset hc)
  exact e.cell_drawn_mem_alphabet P r k

/-- No row of a diagram ends in a blank. -/
theorem Laid.trimmed (laid : e.Laid P) (h : row ∈ (e.drawn P).lines) : Text.Trimmed row := by
  obtain ⟨r, rfl⟩ := laid.exists_row h
  intro c hc
  rw [String.toList_ofList] at hc
  exact Text.isBlank_of_getLast?_trimEnd hc

end Example

end GrammarConflict
