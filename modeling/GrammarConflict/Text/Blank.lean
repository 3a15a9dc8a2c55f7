import GrammarConflict.Text.CodePoints

/-!
# White space

The blanks are the characters with the Unicode property `White_Space`, and with them the four
separators U+001C to U+001F.  A zero width space is not among them, nor is the byte order mark.
`trimEnd` takes the blanks off the end of a row.
-/

namespace GrammarConflict.Text

/-- The ranges of blank characters. -/
def blankRanges : List (Nat × Nat) :=
  [(0x09, 0x0d), (0x1c, 0x20), (0x85, 0x85), (0xa0, 0xa0), (0x1680, 0x1680), (0x2000, 0x200a),
    (0x2028, 0x2029), (0x202f, 0x202f), (0x205f, 0x205f), (0x3000, 0x3000)]

/-- A blank character. -/
def isBlank (c : Char) : Bool :=
  inRanges blankRanges c

/-- The characters with the blanks at the end left out. -/
def trimEnd (cs : List Char) : List Char :=
  (cs.reverse.dropWhile isBlank).reverse

theorem trimEnd_isPrefix (cs : List Char) : trimEnd cs <+: cs := by
  have hsuffix : cs.reverse.dropWhile isBlank <:+ cs.reverse := List.dropWhile_suffix _
  rw [← List.reverse_prefix, List.reverse_reverse] at hsuffix
  exact hsuffix

/-- Nothing before a character that is no blank is taken off. -/
theorem trimEnd_append_cons {c : Char} (hc : isBlank c = false) (before after : List Char) :
    trimEnd (before ++ c :: after) = before ++ c :: trimEnd after := by
  have hstop : (c :: before.reverse).dropWhile isBlank = c :: before.reverse := by
    rw [List.dropWhile_cons, if_neg (by rw [hc]; decide)]
  have hdrop : (after.reverse ++ c :: before.reverse).dropWhile isBlank =
      after.reverse.dropWhile isBlank ++ c :: before.reverse := by
    rw [List.dropWhile_append, hstop]
    split
    · next hempty => rw [List.isEmpty_iff.mp hempty, List.nil_append]
    · rfl
  rw [trimEnd, trimEnd, List.reverse_append, List.reverse_cons, List.append_assoc,
    List.singleton_append, hdrop, List.reverse_append, List.reverse_cons, List.reverse_reverse,
    List.append_assoc, List.singleton_append]

/-- No blank is left at the end. -/
theorem isBlank_of_getLast?_trimEnd {cs : List Char} {c : Char}
    (h : (trimEnd cs).getLast? = some c) : isBlank c = false := by
  have hstop := List.head?_dropWhile_not isBlank cs.reverse
  rw [trimEnd, List.getLast?_reverse] at h
  rw [h] at hstop
  exact hstop

/-- The characters with the blanks at both ends left out, for a blank class of the caller's. -/
def trimBoth (blank : Char → Bool) (cs : List Char) : List Char :=
  ((cs.dropWhile blank).reverse.dropWhile blank).reverse

end GrammarConflict.Text
