import GrammarConflict.Layout
import GrammarConflict.Proofs.Attempt

/-!
# Columns leave room

Making room for a label moves the pieces after it and spreads those above it, and never brings two
pieces closer together (`Spreads`).  So what holds of the gaps between pieces once holds ever after:
the pieces keep the blank between them that they start with, and every label that has been given
room keeps it, whichever reductions come after it (`exists_columns`, `columns_leave_room`).  This
takes only that the reductions are over pieces that there are (`Reduction.Within`); they may overlap
in any way, and lengths may be negative.
-/

namespace GrammarConflict

/-- The reduction is over one or more of the first `n` pieces. -/
structure Reduction.Within (r : Reduction) (n : Nat) : Prop where
  start_nonneg : 0 ≤ r.start
  start_lt_stop : r.start < r.stop
  stop_le : r.stop ≤ n

instance (r : Reduction) (n : Nat) : Decidable (r.Within n) :=
  decidable_of_iff (0 ≤ r.start ∧ r.start < r.stop ∧ r.stop ≤ n)
    ⟨fun h => ⟨h.1, h.2.1, h.2.2⟩, fun h => ⟨h.start_nonneg, h.start_lt_stop, h.stop_le⟩⟩

namespace Layout

/-! ### How far a piece moves -/

/-- What one of so many gaps gets of the missing room: an equal share, and in the leftmost gaps one
column more as long as there is a remainder. -/
def share (gaps missing i : Int) : Int :=
  missing / gaps + if i < missing % gaps then 1 else 0

theorem share_nonneg {gaps missing i : Int} (hgaps : 0 < gaps) (hmissing : 0 ≤ missing) :
    0 ≤ share gaps missing i := by
  have hequal : 0 ≤ missing / gaps := Int.ediv_nonneg hmissing (Int.le_of_lt hgaps)
  rw [share]
  split <;> omega

section Shift

variable {start stop missing i : Int}

theorem shift_of_stop_le (h : stop ≤ i) : shift start stop missing i = missing := by
  rw [shift, if_pos h]

/-- Up to the start of the reduction nothing moves. -/
theorem shift_of_le_start (hspan : start < stop) (hmissing : 0 ≤ missing) (h : i ≤ start) :
    shift start stop missing i = 0 := by
  have hpassed : max 0 (i - start) = 0 := by omega
  have hleft : 0 ≤ missing % (stop - start - 1) := by
    by_cases hgaps : stop - start - 1 = 0
    · rw [hgaps, Int.emod_zero]
      exact hmissing
    · exact Int.emod_nonneg _ hgaps
  rw [shift, if_neg (by omega)]
  simp only [hpassed, Int.zero_mul, Int.zero_add]
  omega

/-- Under the reduction a piece moves further than the one before it by the share of the gap between
them. -/
theorem shift_succ (hstart : start ≤ i) (hstop : i + 1 < stop) :
    shift start stop missing (i + 1) =
      shift start stop missing i + share (stop - start - 1) missing (i - start) := by
  have hpassed : max 0 (i + 1 - start) = max 0 (i - start) + 1 := by omega
  rw [shift, shift, if_neg (by omega), if_neg (by omega), share]
  simp only [hpassed, Int.add_mul, Int.one_mul]
  split <;> omega

/-- The last of several pieces has all the gaps before it, and their shares are the missing room. -/
theorem shift_of_succ_eq_stop (hstart : start < i) (hstop : i + 1 = stop) :
    shift start stop missing i = missing := by
  have hpassed : max 0 (i - start) = stop - start - 1 := by omega
  have hsum := Int.mul_ediv_add_emod missing (stop - start - 1)
  have hlt := Int.emod_lt_of_pos missing (by omega : 0 < stop - start - 1)
  rw [shift, if_neg (by omega)]
  simp only [hpassed]
  omega

/-- A piece moves at least as far as the one before it. -/
theorem shift_le_shift_succ (hspan : start < stop) (hmissing : 0 ≤ missing) :
    shift start stop missing i ≤ shift start stop missing (i + 1) := by
  rcases Int.lt_or_le (i + 1) stop with hstop | hstop
  · rcases Int.lt_or_le i start with hstart | hstart
    · have hbefore : shift start stop missing i = 0 :=
        shift_of_le_start hspan hmissing (by omega)
      have hafter : shift start stop missing (i + 1) = 0 :=
        shift_of_le_start hspan hmissing hstart
      omega
    · have hshare := share_nonneg (i := i - start) (by omega : 0 < stop - start - 1) hmissing
      rw [shift_succ hstart hstop]
      omega
  · rw [shift_of_stop_le hstop]
    rcases Int.lt_or_le i stop with hlast | hafter
    · rcases Int.lt_or_le start i with hstart | hstart
      · exact Int.le_of_eq (shift_of_succ_eq_stop hstart (by omega))
      · rw [shift_of_le_start hspan hmissing hstart]
        exact hmissing
    · exact Int.le_of_eq (shift_of_stop_le hafter)

end Shift

/-! ### Gaps never shrink -/

/-- The second list of columns has the first column of the first one and gaps that are no smaller.
-/
structure Spreads (P Q : List Int) : Prop where
  length_eq : Q.length = P.length
  first_eq : Q.getD 0 0 = P.getD 0 0
  gap_le : ∀ j, j + 1 < P.length → P.getD (j + 1) 0 - P.getD j 0 ≤ Q.getD (j + 1) 0 - Q.getD j 0

namespace Spreads

theorem refl (P : List Int) : Spreads P P :=
  ⟨rfl, rfl, fun _ _ => Int.le_refl _⟩

theorem trans {P Q R : List Int} (h₁ : Spreads P Q) (h₂ : Spreads Q R) : Spreads P R := by
  refine ⟨h₂.length_eq.trans h₁.length_eq, h₂.first_eq.trans h₁.first_eq, ?_⟩
  intro j hj
  have hj' : j + 1 < Q.length := by rwa [h₁.length_eq]
  exact Int.le_trans (h₁.gap_le j hj) (h₂.gap_le j hj')

/-- The distance of any two pieces does not shrink. -/
theorem span_le {P Q : List Int} (h : Spreads P Q) {i j : Nat} (hij : i ≤ j)
    (hj : j < P.length) : P.getD j 0 - P.getD i 0 ≤ Q.getD j 0 - Q.getD i 0 := by
  induction hij with
  | refl => omega
  | @step j hij ih =>
    have hgap := h.gap_le j hj
    have hspan := ih (by omega)
    show P.getD (j + 1) 0 - P.getD i 0 ≤ Q.getD (j + 1) 0 - Q.getD i 0
    omega

end Spreads

/-! ### Making room for one label -/

theorem member_eq_ok (xs : List Int) {i : Int} (h₀ : 0 ≤ i) (h : i < xs.length) :
    member xs i = .ok (xs.getD i.toNat 0) := by
  obtain ⟨k, rfl⟩ := Int.eq_ofNat_of_zero_le h₀
  have hk : k < xs.length := by omega
  rw [member, SignedIndex.get?_natCast, List.getElem?_eq_getElem hk]
  simp [hk]

/-- The number of columns that a reduction lacks for its label. -/
def lack (lengths columns : List Int) (r : Reduction) : Int :=
  max 0 (labelRoom r - (columns.getD (r.stop - 1).toNat 0 + lengths.getD (r.stop - 1).toNat 0 -
    columns.getD r.start.toNat 0))

theorem lack_nonneg (lengths columns : List Int) (r : Reduction) : 0 ≤ lack lengths columns r :=
  Int.le_max_left ..

section Widen

variable {n : Nat} {lengths columns : List Int} {r : Reduction}

theorem widen_eq_ok (hr : r.Within n) (hlengths : n < lengths.length)
    (hcolumns : n < columns.length) :
    widen lengths columns r =
      .ok (justify columns r.start r.stop (lack lengths columns r)) := by
  obtain ⟨h₀, hlt, hle⟩ := hr
  have hleft := member_eq_ok columns (i := r.start) h₀ (by omega)
  have hlast := member_eq_ok columns (i := r.stop - 1) (by omega) (by omega)
  have hlength := member_eq_ok lengths (i := r.stop - 1) (by omega) (by omega)
  have hspan : ¬ r.stop - r.start ≤ 0 := by omega
  rw [widen, if_neg hspan, missingRoom, hleft, hlast, hlength]
  rfl

theorem length_justify (start stop missing : Int) :
    (justify columns start stop missing).length = columns.length := by
  rw [justify, List.length_mapIdx]

/-- The index from the end moves no column when the one from the start names a place. -/
theorem getD_justify {start stop missing : Int} (hstart : 0 ≤ start) (hspan : start < stop)
    (hmissing : 0 ≤ missing) {k : Nat} (hk : k < columns.length) :
    (justify columns start stop missing).getD k 0 =
      columns.getD k 0 + shift start stop missing k := by
  have hback : shift start stop missing (k - columns.length) = 0 :=
    shift_of_le_start hspan hmissing (by omega)
  rw [justify, List.getD_eq_getElem?_getD, List.getElem?_mapIdx, List.getD_eq_getElem?_getD,
    List.getElem?_eq_getElem hk, Option.map_some, Option.getD_some, Option.getD_some, hback]
  omega

/-- Making room brings no two pieces closer together. -/
theorem spreads_justify {start stop missing : Int} (hstart : 0 ≤ start) (hspan : start < stop)
    (hmissing : 0 ≤ missing) : Spreads columns (justify columns start stop missing) := by
  refine ⟨length_justify .., ?_, ?_⟩
  · by_cases hpos : 0 < columns.length
    · rw [getD_justify hstart hspan hmissing hpos, shift_of_le_start hspan hmissing (by omega)]
      omega
    · rw [List.eq_nil_of_length_eq_zero (by omega : columns.length = 0)]
      rfl
  · intro j hj
    have hshift : shift start stop missing j ≤ shift start stop missing (j + 1 : Nat) :=
      shift_le_shift_succ hspan hmissing
    rw [getD_justify hstart hspan hmissing hj, getD_justify hstart hspan hmissing (by omega)]
    omega

theorem spreads_of_widen {Q : List Int} (hr : r.Within n) (hlengths : n < lengths.length)
    (hcolumns : n < columns.length) (h : widen lengths columns r = .ok Q) : Spreads columns Q := by
  rw [widen_eq_ok hr hlengths hcolumns] at h
  obtain rfl := Except.ok.inj h
  exact spreads_justify hr.start_nonneg hr.start_lt_stop (lack_nonneg ..)

/-! ### Making room for all labels -/

/-- The pieces stand apart: each is followed by a blank before the next one. -/
def Apart (lengths columns : List Int) : Prop :=
  ∀ j, j + 1 < columns.length → columns.getD j 0 + lengths.getD j 0 + 1 ≤ columns.getD (j + 1) 0

theorem Apart.spread {P Q : List Int} (h : Apart lengths P) (hspread : Spreads P Q) :
    Apart lengths Q := by
  intro j hj
  rw [hspread.length_eq] at hj
  have hgap := hspread.gap_le j hj
  have hapart := h j hj
  omega

theorem getD_nonneg (h : ∀ length ∈ lengths, 0 ≤ length) (k : Nat) : 0 ≤ lengths.getD k 0 := by
  rw [List.getD_eq_getElem?_getD]
  rcases hk : lengths[k]? with _ | length
  · exact Int.le_refl 0
  · exact h length (List.mem_of_getElem? hk)

/-- Over pieces whose lengths are not negative the columns grow. -/
theorem Apart.add_le (h : Apart lengths columns) (hlengths : ∀ k, 0 ≤ lengths.getD k 0) {i j : Nat}
    (hij : i < j) (hj : j < columns.length) :
    columns.getD i 0 + lengths.getD i 0 + 1 ≤ columns.getD j 0 := by
  induction hij with
  | refl => exact h i hj
  | @step j hij ih =>
    have hbefore := ih (by omega)
    have hnext : columns.getD j 0 + lengths.getD j 0 + 1 ≤ columns.getD j.succ 0 := h j hj
    have hlength := hlengths j
    omega

theorem Apart.le (h : Apart lengths columns) (hlengths : ∀ k, 0 ≤ lengths.getD k 0) {i j : Nat}
    (hij : i ≤ j) (hj : j < columns.length) : columns.getD i 0 ≤ columns.getD j 0 := by
  rcases Nat.eq_or_lt_of_le hij with rfl | hij
  · exact Int.le_refl _
  · have hadd := h.add_le hlengths hij hj
    have hlength := hlengths i
    omega

/-- The label of a reduction fits between its columns, with the ends of its bracket. -/
def HasRoom (columns : List Int) (r : Reduction) : Prop :=
  labelRoom r + 1 ≤ columns.getD r.stop.toNat 0 - columns.getD r.start.toNat 0

theorem HasRoom.spread {P Q : List Int} (h : HasRoom P r) (hr : r.Within n) (hP : n < P.length)
    (hspread : Spreads P Q) : HasRoom Q r := by
  obtain ⟨h₀, hlt, hle⟩ := hr
  have hspan := hspread.span_le (i := r.start.toNat) (j := r.stop.toNat) (by omega) (by omega)
  rw [HasRoom] at h ⊢
  omega

/-- A reduction that has been given room has room. -/
theorem hasRoom_justify (hr : r.Within n) (hcolumns : n < columns.length)
    (hapart : Apart lengths columns) :
    HasRoom (justify columns r.start r.stop (lack lengths columns r)) r := by
  obtain ⟨h₀, hlt, hle⟩ := hr
  have hlack := lack_nonneg lengths columns r
  have hlast := hapart (r.stop - 1).toNat (by omega)
  have hnext : (r.stop - 1).toNat + 1 = r.stop.toNat := by omega
  rw [HasRoom, getD_justify h₀ hlt hlack (by omega), getD_justify h₀ hlt hlack (by omega),
    shift_of_stop_le (by omega), shift_of_le_start hlt hlack (by omega), lack]
  rw [hnext] at hlast
  omega

/-- Each reduction is given room in turn, and what has been given stays. -/
theorem exists_foldlM_widen {reductions : List Reduction} (hlengths : n < lengths.length)
    (hcolumns : n < columns.length) (hapart : Apart lengths columns)
    (hwithin : ∀ r ∈ reductions, r.Within n) :
    ∃ Q, reductions.foldlM (widen lengths) columns = .ok Q ∧ Spreads columns Q ∧
      ∀ r ∈ reductions, HasRoom Q r := by
  -- The room for the first reduction outlives the rest, since columns only spread from there on.
  induction reductions generalizing columns with
  | nil => exact ⟨columns, rfl, .refl columns, fun _ hr => nomatch hr⟩
  | cons r rest ih =>
    have hr : r.Within n := hwithin r List.mem_cons_self
    set P := justify columns r.start r.stop (lack lengths columns r)
    have hspread : Spreads columns P :=
      spreads_justify hr.start_nonneg hr.start_lt_stop (lack_nonneg ..)
    have hPlength : n < P.length := by rwa [hspread.length_eq]
    obtain ⟨Q, hQ, hPQ, hroom⟩ := ih hPlength (hapart.spread hspread)
      fun s hs => hwithin s (List.mem_cons_of_mem _ hs)
    refine ⟨Q, ?_, hspread.trans hPQ, ?_⟩
    · rw [List.foldlM_cons, widen_eq_ok hr hlengths hcolumns]
      exact hQ
    · rw [List.forall_mem_cons]
      exact ⟨(hasRoom_justify hr hcolumns hapart).spread hr hPlength hPQ, hroom⟩

end Widen

/-! ### The columns of an example -/

theorem length_spaced (left : Int) (lengths : List Int) :
    (spaced left lengths).length = lengths.length := by
  induction lengths generalizing left with
  | nil => rfl
  | cons length rest ih => rw [spaced, List.length_cons, ih, List.length_cons]

theorem apart_spaced (left : Int) (lengths : List Int) : Apart lengths (spaced left lengths) := by
  induction lengths generalizing left with
  | nil =>
    intro j hj
    exact absurd hj (Nat.not_lt_zero _)
  | cons length rest ih =>
    intro j hj
    rw [spaced, List.length_cons] at hj
    cases j with
    | zero =>
      cases rest with
      | nil => exact absurd hj (Nat.lt_irrefl _)
      | cons => exact Int.le_refl _
    | succ j => exact ih _ j (by omega)

/-- The columns suit the lengths of pieces and the labels of reductions over them. -/
structure Suits (lengths : List Int) (reductions : List Reduction) (columns : List Int) : Prop where
  length_eq : columns.length = lengths.length
  first_eq : columns.getD 0 0 = 0
  apart : Apart lengths columns
  hasRoom : ∀ r ∈ reductions, HasRoom columns r

/-- Reductions over pieces that there are always have columns, and these leave room for every piece
and every label. -/
theorem exists_columns {n : Nat} {lengths : List Int} {reductions : List Reduction}
    (hlengths : n < lengths.length) (hwithin : ∀ r ∈ reductions, r.Within n) :
    ∃ P, columns lengths reductions = .ok P ∧ Suits lengths reductions P := by
  have hspaced : n < (spaced 0 lengths).length := by rwa [length_spaced]
  obtain ⟨P, hP, hspread, hroom⟩ :=
    exists_foldlM_widen hlengths hspaced (apart_spaced 0 lengths) hwithin
  refine ⟨P, hP, ?_, ?_, (apart_spaced 0 lengths).spread hspread, hroom⟩
  · rw [hspread.length_eq, length_spaced]
  · rw [hspread.first_eq]
    cases lengths <;> rfl

/-- **Columns leave room.**  Reductions over pieces that there are have columns, the first one zero,
with a blank after each piece and five columns more than its label between the ends of every
reduction.  If no length is negative, the columns grow, no two pieces touch, and every label has
room within the bracket that ends before the next piece. -/
theorem columns_leave_room {n : Nat} {lengths : List Int} {reductions : List Reduction}
    (hlengths : lengths.length = n + 1) (hwithin : ∀ r ∈ reductions, r.Within n) :
    ∃ P, columns lengths reductions = .ok P ∧ P.length = n + 1 ∧ P[0]? = some 0 ∧
      (∀ j < n, lengths.getD j 0 + 1 ≤ P.getD (j + 1) 0 - P.getD j 0) ∧
      (∀ r ∈ reductions, (r.nonterminal.shown.length : Int) + 5 ≤
        P.getD r.stop.toNat 0 - P.getD r.start.toNat 0) ∧
      ((∀ length ∈ lengths, 0 ≤ length) → P.Pairwise (· < ·) ∧
        (∀ i j, i < j → j ≤ n → P.getD i 0 + lengths.getD i 0 < P.getD j 0) ∧
        ∀ r ∈ reductions, (("+-" ++ r.nonterminal.shown ++ "-+").length : Int) ≤
          P.getD r.stop.toNat 0 - 1 - P.getD r.start.toNat 0) := by
  have hlt : n < lengths.length := by omega
  obtain ⟨P, hP, hlength, hfirst, hapart, hroom⟩ := exists_columns hlt hwithin
  have hcount : P.length = n + 1 := hlength.trans hlengths
  have hlabel : ∀ r ∈ reductions, (r.nonterminal.shown.length : Int) + 5 ≤
      P.getD r.stop.toNat 0 - P.getD r.start.toNat 0 := by
    intro r hr
    have hle := hroom r hr
    rw [HasRoom, labelRoom] at hle
    omega
  refine ⟨P, hP, hcount, ?_, ?_, hlabel, ?_⟩
  · rw [List.getElem?_eq_getElem (by omega), ← hfirst, List.getElem_eq_getD 0]
  · intro j hj
    have hle := hapart j (by omega)
    omega
  · intro hnonneg
    have hgrow : ∀ i j, i < j → j ≤ n → P.getD i 0 + lengths.getD i 0 < P.getD j 0 := by
      intro i j hij hj
      have hle := hapart.add_le (getD_nonneg hnonneg) hij (by omega)
      omega
    refine ⟨List.pairwise_iff_getElem.mpr ?_, hgrow, ?_⟩
    · intro i j hi hj hij
      have hlt := hgrow i j hij (by omega)
      have hlength := getD_nonneg hnonneg i
      rw [List.getElem_eq_getD 0, List.getElem_eq_getD 0]
      omega
    · intro r hr
      have hle := hlabel r hr
      rw [String.length_append, String.length_append]
      show ((2 + r.nonterminal.shown.length + 2 : Nat) : Int) ≤ _
      omega

/-- Lengths of either sign under reductions that cross. -/
def crossingLengths : List Int :=
  [2, -3, 0, 4, 0]

/-- The second reduction moves the pieces under the first one, and the third one lies within it. -/
def crossingReductions : List Reduction :=
  [⟨1, 4, .text "Term"⟩, ⟨0, 2, .text "Expression"⟩, ⟨2, 3, .text "T"⟩, ⟨0, 4, .text "S"⟩]

theorem columns_leave_room_crossingSample :
    crossingLengths.length = 4 + 1 ∧ (∀ r ∈ crossingReductions, r.Within 4) ∧
    columns crossingLengths crossingReductions = .ok [0, 17, 18, 26, 31] ∧
    (-3 : Int) + 1 ≤ 18 - 17 ∧ ("Term".length : Int) + 5 ≤ 31 - 17 := by
  have hlengths : crossingLengths.length = 4 + 1 := rfl
  have hwithin : ∀ r ∈ crossingReductions, r.Within 4 := by decide
  have hcolumns : columns crossingLengths crossingReductions = .ok [0, 17, 18, 26, 31] := by rfl
  obtain ⟨P, hP, -, -, hapart, hlabel, -⟩ := columns_leave_room hlengths hwithin
  obtain rfl := Except.ok.inj (hcolumns.symm.trans hP)
  exact ⟨hlengths, hwithin, hcolumns, hapart 1 (by decide), hlabel _ List.mem_cons_self⟩

end Layout

/-- The end of an example has a length too. -/
theorem Example.length_lengths (e : Example) : e.lengths.length = e.pieces.length + 1 := by
  rw [lengths, List.length_append, List.length_map]
  rfl

end GrammarConflict
