import GrammarConflict.Proofs.Layout.Columns

/-!
# Full justification

A reduction whose label does not fit is widened by exactly the room that it lacks.  The gaps between
its pieces share the room as evenly as whole columns allow, the leftmost gaps taking what is left
over (`share`); a single piece gets it behind.  No other gap changes.  So the columns up to the
reduction stay, those after it all move by the same amount, and its pieces end where the label needs
them to (`Justified`, `widen_justifies`).

The room can also be made in place: what comes after the reduction moves first, and then gap after
gap is widened by moving what follows it, up to the end of the reduction (`widenedInPlace`).  The
moves overlap, and add up to the same (`justify_eq_widenedInPlace`): once `n` gaps are widened, a
piece has moved by the shares of those among them that lie before it.
-/

namespace GrammarConflict

namespace Layout

/-! ### The gaps after one step -/

/-- How far it is from a column to the next one. -/
def gap (P : List Int) (j : Nat) : Int :=
  P.getD (j + 1) 0 - P.getD j 0

/-- How far it is from the column of the first piece under a reduction to the end of the last. -/
def span (lengths P : List Int) (start stop : Nat) : Int :=
  P.getD (stop - 1) 0 + lengths.getD (stop - 1) 0 - P.getD start 0

/-- The second list of columns is the first one with the pieces from `start` up to `stop` justified
to the missing room. -/
structure Justified (start stop : Nat) (missing : Int) (P Q : List Int) : Prop where
  length_eq : Q.length = P.length
  /-- The gaps between the pieces share the room. -/
  gap_inside : ∀ j, start ≤ j → j + 1 < stop →
    gap Q j = gap P j + share (stop - start - 1 : Nat) missing (j - start : Nat)
  /-- Without a gap between pieces, the room is behind the piece. -/
  gap_behind : start + 1 = stop → gap Q start = gap P start + missing
  gap_outside : ∀ j, j + 1 < P.length → j < start ∨ stop ≤ j + 1 → (start + 1 = stop → j ≠ start) →
    gap Q j = gap P j
  stays : ∀ k ≤ start, Q.getD k 0 = P.getD k 0
  moves : ∀ k, stop ≤ k → k < P.length → Q.getD k 0 = P.getD k 0 + missing
  moves_within : ∀ k, start < k → k < stop →
    P.getD k 0 ≤ Q.getD k 0 ∧ Q.getD k 0 ≤ P.getD k 0 + missing

/-- The last of several pieces moves by all of the missing room, for the gap behind it does not
change. -/
theorem Justified.span_eq {start stop : Nat} {missing : Int} {lengths P Q : List Int}
    (h : Justified start stop missing P Q) (hseveral : start + 1 < stop) (hstop : stop < P.length) :
    span lengths Q start stop = span lengths P start stop + missing := by
  have hgap := h.gap_outside (stop - 1) (by omega) (.inr (by omega)) (by omega)
  have hbefore := h.stays start (Nat.le_refl _)
  have hafter := h.moves stop (Nat.le_refl _) hstop
  have hnext : stop - 1 + 1 = stop := by omega
  rw [gap, gap, hnext, hafter] at hgap
  rw [span, span, hbefore]
  omega

section Justify

variable {start stop : Nat} {missing : Int} {P : List Int}

theorem gap_justify (hspan : start < stop) (hmissing : 0 ≤ missing) {j : Nat}
    (hj : j + 1 < P.length) : gap (justify P start stop missing) j =
      gap P j + (shift start stop missing (j + 1) - shift start stop missing j) := by
  have hspan' : (start : Int) < stop := by omega
  rw [gap, getD_justify (by omega) hspan' hmissing hj,
    getD_justify (by omega) hspan' hmissing (by omega), Int.natCast_succ, gap]
  omega

theorem justified_justify (hspan : start < stop) (hstop : stop < P.length)
    (hmissing : 0 ≤ missing) : Justified start stop missing P (justify P start stop missing) := by
  have hspan' : (start : Int) < stop := by omega
  have hstays : ∀ k ≤ start, (justify P start stop missing).getD k 0 = P.getD k 0 := by
    intro k hk
    rw [getD_justify (by omega) hspan' hmissing (by omega),
      shift_of_le_start hspan' hmissing (by omega), Int.add_zero]
  have hmoves : ∀ k, stop ≤ k → k < P.length →
      (justify P start stop missing).getD k 0 = P.getD k 0 + missing := by
    intro k hk hlt
    rw [getD_justify (by omega) hspan' hmissing hlt, shift_of_stop_le (by omega)]
  refine ⟨length_justify .., ?_, ?_, ?_, hstays, hmoves, ?_⟩
  case refine_1 =>
    intro j hstart hj
    rw [gap_justify hspan hmissing (by omega), shift_succ (by omega) (by omega)]
    have hgaps : ((stop - start - 1 : Nat) : Int) = stop - start - 1 := by omega
    have hplace : ((j - start : Nat) : Int) = j - start := by omega
    rw [hgaps, hplace]
    omega
  case refine_2 =>
    intro hsingle
    rw [gap, gap, hstays start (Nat.le_refl _), hmoves (start + 1) (by omega) (by omega)]
    omega
  case refine_3 =>
    intro j hj hplace hsingle
    rw [gap_justify hspan hmissing hj]
    rcases hplace with hbefore | hafter
    · rw [shift_of_le_start hspan' hmissing (by omega),
        shift_of_le_start hspan' hmissing (by omega)]
      omega
    · have hnext : shift start stop missing (j + 1) = missing := shift_of_stop_le (by omega)
      -- The last piece under the reduction has moved as far as what comes after it.
      have hhere : shift start stop missing j = missing := by
        rcases Nat.eq_or_lt_of_le hafter with hlast | hlt
        · exact shift_of_succ_eq_stop (by omega) (by omega)
        · exact shift_of_stop_le (by omega)
      rw [hnext, hhere]
      omega
  case refine_4 =>
    intro k hstart hk
    have hspreads : Spreads P (justify P start stop missing) :=
      spreads_justify (by omega) hspan' hmissing
    have hbefore := hspreads.span_le (Nat.le_of_lt hstart) (by omega)
    have hafter := hspreads.span_le (Nat.le_of_lt hk) hstop
    rw [hstays start (Nat.le_refl _)] at hbefore
    rw [hmoves stop (Nat.le_refl _) hstop] at hafter
    omega

end Justify

/-! ### Making room in place -/

/-- The columns with those from `start` up to `stop` moved by an amount. -/
def moved (P : List Int) (start stop : Nat) (amount : Int) : List Int :=
  P.mapIdx fun k column => if start ≤ k ∧ k < stop then column + amount else column

/-- The columns after what comes after the reduction has moved, and the first `n` gaps have been
widened one after another by moving the pieces that follow each of them. -/
def widenedInPlace (P : List Int) (start stop : Nat) (missing : Int) : Nat → List Int
  | 0 => moved P stop P.length missing
  | n + 1 => moved (widenedInPlace P start stop missing n) (start + 1 + n) stop
      (share (stop - start - 1 : Nat) missing n)

section InPlace

variable {start stop : Nat} {missing : Int} {P : List Int}

theorem length_moved (P : List Int) (start stop : Nat) (amount : Int) :
    (moved P start stop amount).length = P.length := by
  rw [moved, List.length_mapIdx]

theorem getD_moved {start stop k : Nat} (amount : Int) (hk : k < P.length) :
    (moved P start stop amount).getD k 0 =
      if start ≤ k ∧ k < stop then P.getD k 0 + amount else P.getD k 0 := by
  rw [moved, List.getD_eq_getElem?_getD, List.getElem?_mapIdx, List.getD_eq_getElem?_getD,
    List.getElem?_eq_getElem hk]
  rfl

theorem length_widenedInPlace (n : Nat) :
    (widenedInPlace P start stop missing n).length = P.length := by
  induction n with
  | zero => exact length_moved ..
  | succ n ih => rw [widenedInPlace, length_moved, ih]

/-- Once `n` gaps are widened, a piece under the reduction has moved as far as it is to move if it
lies before the last one of them, and else as far as the piece behind that one is to move. -/
theorem getD_widenedInPlace (hspan : start < stop) (hmissing : 0 ≤ missing) {n : Nat}
    (hn : start + n < stop) {k : Nat} (hk : k < P.length) :
    (widenedInPlace P start stop missing n).getD k 0 = P.getD k 0 +
      if stop ≤ k then missing else shift start stop missing (min (start + n) k : Nat) := by
  have hspan' : (start : Int) < stop := by omega
  induction n with
  | zero =>
    have hstays : shift start stop missing (min (start + 0) k : Nat) = 0 :=
      shift_of_le_start hspan' hmissing (by omega)
    rw [widenedInPlace, getD_moved missing hk, hstays]
    split <;> split <;> omega
  | succ n ih =>
    have hk' : k < (widenedInPlace P start stop missing n).length := by
      rwa [length_widenedInPlace]
    rw [widenedInPlace, getD_moved _ hk', ih (by omega)]
    by_cases hmoved : start + 1 + n ≤ k ∧ k < stop
    · have hbefore : min (start + n) k = start + n := by omega
      have hafter : min (start + (n + 1)) k = start + n + 1 := by omega
      have hgaps : ((stop - start - 1 : Nat) : Int) = stop - start - 1 := by omega
      have hplace : ((start + n : Nat) : Int) - start = n := by omega
      have hstep : shift start stop missing ((start + n : Nat) + 1) =
          shift start stop missing (start + n : Nat) +
            share (stop - start - 1) missing ((start + n : Nat) - start) :=
        shift_succ (by omega) (by omega)
      rw [if_pos hmoved, if_neg (by omega), if_neg (by omega), hbefore, hafter, hgaps,
        Int.natCast_succ, hstep, hplace, Int.add_assoc]
    · have hsame : ¬ stop ≤ k → min (start + (n + 1)) k = min (start + n) k := by omega
      rw [if_neg hmoved]
      by_cases hk : stop ≤ k
      · rw [if_pos hk, if_pos hk]
      · rw [if_neg hk, if_neg hk, hsame hk]

/-- **Moves in place add up.**  Moving what comes after the reduction and then widening gap after
gap moves each piece just as far as it is to move. -/
theorem justify_eq_widenedInPlace (hspan : start < stop) (hmissing : 0 ≤ missing) :
    justify P start stop missing = widenedInPlace P start stop missing (stop - start - 1) := by
  apply List.ext_getElem
  · rw [length_justify, length_widenedInPlace]
  · intro k hk hk'
    rw [length_justify] at hk
    rw [List.getElem_eq_getD 0, List.getElem_eq_getD 0,
      getD_justify (by omega) (by omega) hmissing hk,
      getD_widenedInPlace hspan hmissing (by omega) hk]
    split
    · next hafter => rw [shift_of_stop_le (by omega)]
    · next hwithin =>
      have hlast : min (start + (stop - start - 1)) k = k := by omega
      rw [hlast]

end InPlace

/-! ### Justification in the course of a layout -/

/-- Making room adds no column and removes none. -/
theorem length_of_widen {lengths P Q : List Int} {r : Reduction}
    (h : widen lengths P r = .ok Q) : Q.length = P.length := by
  rw [widen] at h
  split at h
  · cases h
  · obtain ⟨missing, -, hQ⟩ := bind_eq_ok_iff.mp h
    rw [← pure_eq_ok_iff.mp hQ, length_justify]

/-- At any point of a layout there are as many columns as lengths. -/
theorem length_of_columns {lengths P : List Int} {reductions : List Reduction}
    (h : columns lengths reductions = .ok P) : P.length = lengths.length := by
  have hrun : ∀ {Q : List Int}, reductions.foldlM (widen lengths) Q = .ok P →
      P.length = Q.length := by
    clear h
    intro Q h
    induction reductions generalizing Q with
    | nil => rw [pure_eq_ok_iff.mp h]
    | cons r rest ih =>
      rw [List.foldlM_cons] at h
      obtain ⟨R, hR, hrest⟩ := bind_eq_ok_iff.mp h
      rw [ih hrest, length_of_widen hR]
  rw [hrun h, length_spaced]

/-- A layout goes on from the columns that it has reached. -/
theorem columns_append {lengths P : List Int} {reductions : List Reduction}
    (h : columns lengths reductions = .ok P) (rest : List Reduction) :
    columns lengths (reductions ++ rest) = rest.foldlM (widen lengths) P := by
  rw [columns] at h
  rw [columns, List.foldlM_append, h]
  rfl

/-- The step for a reduction over pieces that there are. -/
theorem widen_eq_justify {lengths P : List Int} {start stop : Nat} (label : Value)
    (hspan : start < stop) (hlengths : stop < lengths.length) (hstop : stop < P.length) :
    widen lengths P ⟨start, stop, label⟩ = .ok (justify P start stop
      (max 0 (label.shown.length + 4 - span lengths P start stop))) := by
  have hwithin : Reduction.Within ⟨start, stop, label⟩ stop :=
    ⟨Int.natCast_nonneg _, Int.ofNat_lt.mpr hspan, Int.le_refl _⟩
  have hlast : ((stop : Int) - 1).toNat = stop - 1 := by omega
  rw [widen_eq_ok hwithin hlengths hstop]
  simp only [lack, span, labelRoom, hlast, Int.toNat_natCast]

/-- **Full justification is exact.**  At any point of a layout, the next reduction makes exactly the
room that its label lacks.  The gaps between its pieces share it, so that the pieces then end where
the label needs them to if they ended before; a single piece has it behind; all else keeps its
distances.  Making the room in place, gap after gap, gives the same columns. -/
theorem widen_justifies {lengths P : List Int} {done : List Reduction} {start stop : Nat}
    (reached : columns lengths done = .ok P) (hspan : start < stop) (hstop : stop < P.length)
    (label : Value) :
    ∃ missing Q, missing = max 0 (label.shown.length + 4 - span lengths P start stop) ∧
      widen lengths P ⟨start, stop, label⟩ = .ok Q ∧
      columns lengths (done ++ [⟨start, stop, label⟩]) = .ok Q ∧
      Justified start stop missing P Q ∧
      (start + 1 < stop →
        span lengths Q start stop = max (span lengths P start stop) (label.shown.length + 4)) ∧
      Q = widenedInPlace P start stop missing (stop - start - 1) := by
  have hlengths : stop < lengths.length := by rwa [← length_of_columns reached]
  have hstep := widen_eq_justify label hspan hlengths hstop
  have hmissing : 0 ≤ max 0 (label.shown.length + 4 - span lengths P start stop) :=
    Int.le_max_left ..
  have hjustified := justified_justify hspan hstop hmissing
  refine ⟨_, _, rfl, hstep, ?_, hjustified, ?_, justify_eq_widenedInPlace hspan hmissing⟩
  · rw [columns_append reached, List.foldlM_cons, hstep]
    rfl
  · intro hseveral
    rw [hjustified.span_eq hseveral hstop]
    omega

/-- Six pieces of which the second and the third have been moved apart. -/
def remainderSample : List Int :=
  [0, 3, 10, 13, 16, 19, 22]

/-- Five columns are missing for three gaps, so the first two of them get one column more. -/
theorem widen_justifies_remainderSample :
    columns [2, 2, 2, 2, 2, 2, 0] [⟨1, 3, .text "Label"⟩] = .ok remainderSample ∧
    0 < 4 ∧ 4 < remainderSample.length ∧
    ∃ Q, widen [2, 2, 2, 2, 2, 2, 0] remainderSample ⟨0, 4, .text "SixteenLetters.."⟩ = .ok Q ∧
      Justified 0 4 5 remainderSample Q ∧ Q = [0, 5, 14, 18, 21, 24, 27] ∧
      span [2, 2, 2, 2, 2, 2, 0] Q 0 4 = 20 := by
  have reached : columns [2, 2, 2, 2, 2, 2, 0] [⟨1, 3, .text "Label"⟩] = .ok remainderSample := by
    rfl
  have hstop : 4 < remainderSample.length := by decide
  obtain ⟨missing, Q, hmissing, hQ, -, hjustified, hspan, hinPlace⟩ :=
    widen_justifies reached (by decide : 0 < 4) hstop (.text "SixteenLetters..")
  obtain rfl : missing = 5 := hmissing
  exact ⟨reached, by decide, hstop, Q, hQ, hjustified, hinPlace, hspan (by decide)⟩

end Layout

end GrammarConflict
