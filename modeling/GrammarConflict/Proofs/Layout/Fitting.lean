import GrammarConflict.Proofs.Layout.Justification

/-!
# When nothing moves

A reduction moves pieces if and only if its label does not fit between the first of its pieces and
the end of the last one (`Fits`, `widen_eq_self_iff`).  So one more reduction leaves the columns of
an example as they are just when its label fits there (`Example.columns_withReduction`).  Labels
that fit once fit ever after, and a reduction over several pieces fits as soon as it has been given
room (`fits_of_foldlM_widen`): the same label over the same pieces moves nothing again.

A bracket is drawn up to the next piece.  It ends where the last of its pieces does if one blank
stands between the two; but where the gap behind that piece has been widened, the bracket may have
room for a label that does not fit.  So a single piece is given room anew for each of its reductions
(`Example.columns_change_despite_bracketRoom`).
-/

namespace GrammarConflict

theorem Reduction.Within.exists_eq_natCast {r : Reduction} {n : Nat} (h : r.Within n) :
    ∃ (start stop : Nat) (label : Value), start < stop ∧ stop ≤ n ∧ r = ⟨start, stop, label⟩ := by
  obtain ⟨start, stop, label⟩ := r
  obtain ⟨hstart, hspan, hstop⟩ := h
  obtain ⟨i, rfl⟩ := Int.eq_ofNat_of_zero_le hstart
  obtain ⟨j, rfl⟩ := Int.eq_ofNat_of_zero_le (Int.le_trans hstart (Int.le_of_lt hspan))
  exact ⟨i, j, label, Int.ofNat_lt.mp hspan, Int.ofNat_le.mp hstop, rfl⟩

namespace Layout

/-- The label of a reduction, with the ends of its bracket, is no wider than the pieces under it. -/
def Fits (lengths P : List Int) (r : Reduction) : Prop :=
  r.nonterminal.shown.length + 4 ≤ span lengths P r.start.toNat r.stop.toNat

section

variable {n : Nat} {lengths P Q : List Int} {r : Reduction}

/-- Justifying to no room at all moves nothing, and to any other room it moves what comes after. -/
theorem justify_eq_self_iff {start stop : Nat} {missing : Int} (hspan : start < stop)
    (hstop : stop < P.length) (hmissing : 0 ≤ missing) :
    justify P start stop missing = P ↔ missing = 0 := by
  have hjustified := justified_justify hspan hstop hmissing
  constructor
  · intro h
    have hmoves := hjustified.moves stop (Nat.le_refl _) hstop
    rw [h] at hmoves
    omega
  · rintro rfl
    apply List.ext_getElem hjustified.length_eq
    intro k _ hk
    rw [List.getElem_eq_getD 0, List.getElem_eq_getD 0]
    rcases Nat.lt_or_ge start k with hstart | hstart
    · rcases Nat.lt_or_ge k stop with hlt | hge
      · have hwithin := hjustified.moves_within k hstart hlt
        omega
      · have hmoves := hjustified.moves k hge hk
        omega
    · exact hjustified.stays k hstart

/-- A reduction moves nothing just when its label fits. -/
theorem widen_eq_self_iff (hr : r.Within n) (hlengths : n < lengths.length) (hP : n < P.length) :
    widen lengths P r = .ok P ↔ Fits lengths P r := by
  obtain ⟨start, stop, label, hspan, hstop, rfl⟩ := hr.exists_eq_natCast
  rw [widen_eq_justify label hspan (by omega) (by omega), Except.ok.injEq,
    justify_eq_self_iff hspan (by omega) (Int.le_max_left ..), Fits]
  simp only [Int.toNat_natCast]
  omega

/-- What fits once fits ever after, since columns only spread. -/
theorem Fits.spread (h : Fits lengths P r) (hr : r.Within n) (hP : n < P.length)
    (hspread : Spreads P Q) : Fits lengths Q r := by
  obtain ⟨start, stop, label, hspan, hstop, rfl⟩ := hr.exists_eq_natCast
  simp only [Fits, span, Int.toNat_natCast] at h ⊢
  have hle := hspread.span_le (i := start) (j := stop - 1) (by omega) (by omega)
  omega

/-- A reduction over several pieces fits when it has been given room. -/
theorem fits_of_widen (hr : r.Within n) (hlengths : n < lengths.length) (hP : n < P.length)
    (hseveral : r.start + 1 < r.stop) (h : widen lengths P r = .ok Q) : Fits lengths Q r := by
  obtain ⟨start, stop, label, hspan, hstop, rfl⟩ := hr.exists_eq_natCast
  have hseveral : start + 1 < stop := Int.ofNat_lt.mp hseveral
  rw [widen_eq_justify label hspan (by omega) (by omega)] at h
  obtain rfl := Except.ok.inj h
  have hjustified := justified_justify hspan (by omega : stop < P.length)
    (Int.le_max_left 0 (label.shown.length + 4 - span lengths P start stop))
  rw [Fits]
  simp only [Int.toNat_natCast]
  rw [hjustified.span_eq hseveral (by omega)]
  omega

/-- In the course of a layout every reduction over several pieces comes to fit, and what fits stays
so to the end. -/
theorem fits_of_foldlM_widen {reductions : List Reduction} (hlengths : n < lengths.length)
    (hP : n < P.length) (hwithin : ∀ r ∈ reductions, r.Within n)
    (h : reductions.foldlM (widen lengths) P = .ok Q) :
    Spreads P Q ∧ ∀ r ∈ reductions, r.start + 1 < r.stop → Fits lengths Q r := by
  induction reductions generalizing P with
  | nil =>
    obtain rfl := pure_eq_ok_iff.mp h
    exact ⟨.refl P, fun _ hr => nomatch hr⟩
  | cons r rest ih =>
    obtain ⟨hr, hrest⟩ := List.forall_mem_cons.mp hwithin
    rw [List.foldlM_cons] at h
    obtain ⟨R, hR, hrun⟩ := bind_eq_ok_iff.mp h
    have hspread := spreads_of_widen hr hlengths hP hR
    have hRlength : n < R.length := by rwa [hspread.length_eq]
    obtain ⟨hspread', hfits⟩ := ih hRlength hrest hrun
    refine ⟨hspread.trans hspread', List.forall_mem_cons.mpr ⟨fun hseveral => ?_, hfits⟩⟩
    exact (fits_of_widen hr hlengths hP hseveral hR).spread hr hRlength hspread'

/-- With a single blank behind its last piece, a reduction fits just when its label has room in the
bracket, which ends before the next piece. -/
theorem fits_iff_of_gap_eq (hr : r.Within n)
    (hgap : gap P (r.stop.toNat - 1) = lengths.getD (r.stop.toNat - 1) 0 + 1) :
    Fits lengths P r ↔
      r.nonterminal.shown.length + 4 ≤ P.getD r.stop.toNat 0 - 1 - P.getD r.start.toNat 0 := by
  obtain ⟨start, stop, label, hspan, hstop, rfl⟩ := hr.exists_eq_natCast
  simp only [Int.toNat_natCast] at hgap ⊢
  have hnext : stop - 1 + 1 = stop := by omega
  rw [gap, hnext] at hgap
  rw [Fits]
  simp only [span, Int.toNat_natCast]
  omega

/-- The label alone decides whether a reduction fits, once its pieces are given. -/
theorem Fits.of_length_le {s : Reduction} (h : Fits lengths P s) (hstart : s.start = r.start)
    (hstop : s.stop = r.stop)
    (hlabel : r.nonterminal.shown.length ≤ s.nonterminal.shown.length) : Fits lengths P r := by
  rw [Fits, hstart, hstop] at h
  rw [Fits]
  omega

end

end Layout

/-! ### One more reduction -/

namespace Example

open Layout

/-- The example with one more reduction, after all others. -/
def withReduction (e : Example) (r : Reduction) : Example :=
  { e with reductions := e.reductions ++ [r] }

/-- **Symbols are spread only when a label does not fit.**  One more reduction leaves the columns of
an example as they are just when its label fits between the first of its pieces and the end of the
last.  If one blank stands behind that piece, this is the room in the bracket that is drawn.  A
reduction over the pieces of an earlier one, two or more, whose label is no longer, moves nothing.
-/
theorem columns_withReduction {e : Example}
    (hwithin : ∀ r ∈ e.reductions, r.Within e.pieces.length) :
    ∃ P, e.columns = .ok P ∧ ∀ r : Reduction, r.Within e.pieces.length →
      ((e.withReduction r).columns = .ok P ↔
        r.nonterminal.shown.length + 4 ≤ span e.lengths P r.start.toNat r.stop.toNat) ∧
      (gap P (r.stop.toNat - 1) = e.lengths.getD (r.stop.toNat - 1) 0 + 1 →
        ((e.withReduction r).columns = .ok P ↔ r.nonterminal.shown.length + 4 ≤
          P.getD r.stop.toNat 0 - 1 - P.getD r.start.toNat 0)) ∧
      (∀ s ∈ e.reductions, s.start = r.start → s.stop = r.stop → r.start + 1 < r.stop →
        r.nonterminal.shown.length ≤ s.nonterminal.shown.length →
        (e.withReduction r).columns = .ok P) := by
  have hlengths : e.pieces.length < e.lengths.length := by
    rw [length_lengths]
    omega
  have hspaced : e.pieces.length < (spaced 0 e.lengths).length := by rwa [length_spaced]
  obtain ⟨P, hcolumns, hsuits⟩ := exists_columns hlengths hwithin
  have hP : e.pieces.length < P.length := by rwa [hsuits.length_eq]
  obtain ⟨-, hfits⟩ := fits_of_foldlM_widen hlengths hspaced hwithin hcolumns
  refine ⟨P, hcolumns, fun r hr => ?_⟩
  have hiff : (e.withReduction r).columns = .ok P ↔ Fits e.lengths P r := by
    rw [← widen_eq_self_iff hr hlengths hP]
    show Layout.columns e.lengths (e.reductions ++ [r]) = .ok P ↔ _
    rw [columns_append hcolumns, List.foldlM_cons]
    simp only [List.foldlM_nil, bind_pure]
  refine ⟨hiff, fun hgap => hiff.trans (fits_iff_of_gap_eq hr hgap), ?_⟩
  intro s hs hstart hstop hseveral hlabel
  have hseveral' : s.start + 1 < s.stop := by rwa [hstart, hstop]
  exact hiff.mpr ((hfits s hs hseveral').of_length_le hstart hstop hlabel)

/-- Two symbols, and a label that is longer than the first of them. -/
def unitChainSample : Example :=
  ⟨0, [.symbol (.text "AB"), .symbol (.text "c")], [⟨0, 1, .text "VeryLongName"⟩]⟩

/-- Room in the bracket that is drawn is not enough, not even for the same label over the same
piece. -/
theorem columns_change_despite_bracketRoom :
    (¬ ∀ (e : Example) (P : List Int) (r : Reduction),
      (∀ s ∈ e.reductions, s.Within e.pieces.length) → e.columns = .ok P →
      r.Within e.pieces.length →
      r.nonterminal.shown.length + 4 ≤ P.getD r.stop.toNat 0 - 1 - P.getD r.start.toNat 0 →
      (e.withReduction r).columns = .ok P) ∧
    ¬ ∀ (e : Example) (P : List Int), (∀ s ∈ e.reductions, s.Within e.pieces.length) →
      e.columns = .ok P → ∀ r ∈ e.reductions, (e.withReduction r).columns = .ok P := by
  have hwithin : ∀ s ∈ unitChainSample.reductions, s.Within unitChainSample.pieces.length := by
    decide
  have hcolumns : unitChainSample.columns = .ok [0, 17, 19] := by rfl
  have hmoved : (unitChainSample.withReduction ⟨0, 1, .text "VeryLongName"⟩).columns =
      .ok [0, 31, 33] := by rfl
  have hne : ([0, 31, 33] : List Int) ≠ [0, 17, 19] := by decide
  constructor
  · intro h
    have hsame := h unitChainSample _ _ hwithin hcolumns (hwithin _ List.mem_cons_self) (by decide)
    exact hne (Except.ok.inj (hmoved.symm.trans hsame))
  · intro h
    have hsame := h unitChainSample _ hwithin hcolumns _ List.mem_cons_self
    exact hne (Except.ok.inj (hmoved.symm.trans hsame))

/-- The gap behind the second piece of four is widened for the label of that piece alone. -/
def widenedGapSample : Example :=
  ⟨0, [.symbol (.text "A1"), .symbol (.text "B2"), .symbol (.text "C3"), .symbol (.text "D4")],
    [⟨0, 3, .text "LongLabel22"⟩, ⟨1, 2, .text "Foo"⟩]⟩

/-- The first label fits once more; another one over the first two pieces has room in its bracket,
which ends in column 16, and does not fit. -/
theorem columns_withReduction_widenedGapSample :
    let again : Reduction := ⟨0, 3, .text "LongLabel22"⟩
    let other : Reduction := ⟨0, 2, .text "LongName"⟩
    (∀ r ∈ widenedGapSample.reductions, r.Within widenedGapSample.pieces.length) ∧
    widenedGapSample.columns = .ok [0, 7, 18, 21, 24] ∧
    again.Within widenedGapSample.pieces.length ∧
    (widenedGapSample.withReduction again).columns = .ok [0, 7, 18, 21, 24] ∧
    other.Within widenedGapSample.pieces.length ∧
    other.nonterminal.shown.length + 4 ≤ 18 - 1 - 0 ∧
    (widenedGapSample.withReduction other).columns ≠ .ok [0, 7, 18, 21, 24] := by
  intro again other
  have hwithin : ∀ r ∈ widenedGapSample.reductions,
      r.Within widenedGapSample.pieces.length := by decide
  have hagain : again.Within widenedGapSample.pieces.length := by decide
  have hother : other.Within widenedGapSample.pieces.length := by decide
  have hcolumns : widenedGapSample.columns = .ok [0, 7, 18, 21, 24] := by rfl
  obtain ⟨P, hP, hrest⟩ := columns_withReduction hwithin
  obtain rfl := Except.ok.inj (hcolumns.symm.trans hP)
  obtain ⟨-, -, hsame⟩ := hrest again hagain
  obtain ⟨hiff, -, -⟩ := hrest other hother
  refine ⟨hwithin, hcolumns, hagain, ?_, hother, by decide, fun h => ?_⟩
  · exact hsame again List.mem_cons_self rfl rfl (by decide) (Nat.le_refl _)
  · exact absurd (hiff.mp h) (by decide)

end Example

end GrammarConflict
