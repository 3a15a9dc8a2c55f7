import GrammarConflict.Explanation
import GrammarConflict.Proofs.Walk.Enumeration

/-!
# How many examples are shown

An explanation shows the first examples of its trace, as many as the request allows, and is
truncated just when there are more.  It finds out by asking for one example more than it shows, so
the two facts that matter are that a tour gives the first histories of those that remain
(`Walk.Ready.tour`), and that there are `Trace.pathCount` of them in all
(`Trace.length_histories`).

`Trace.explain_shows_first` puts them together.  A trace has at least one path, so no explanation
is without an example.  What is explained does not depend on the level of the records
(`Trace.result_explained`), and only a limit out of bounds is refused (`Trace.kind_of_explain`).
-/

namespace GrammarConflict

namespace Walk

/-- A walk to the end gives all the histories that remain. -/
theorem Ready.rest_eq {w : Walk} (ready : w.Ready) : w.rest = .ok w.remaining := by
  induction w using rest.induct with
  | case1 w e h =>
    obtain ⟨hover, -⟩ | ⟨step, hstep, -⟩ := ready.next_cases
    · exact nomatch hover.symm.trans h
    · exact nomatch hstep.symm.trans h
  | case2 w h =>
    rw [rest, ready.next_eq_none_iff.mp h]
    split
    · next h' => exact nomatch h.symm.trans h'
    · rfl
    · next h' => exact nomatch h.symm.trans h'
  | case3 w step h ih =>
    obtain ⟨hready, hremaining⟩ := ready.history_of_next h
    rw [rest, hremaining]
    split
    · next h' => exact nomatch h.symm.trans h'
    · next h' => exact nomatch h.symm.trans h'
    · next h' =>
      obtain rfl := Option.some.inj (Except.ok.inj (h.symm.trans h'))
      rw [ih hready]
      rfl

theorem rest_start (t : Trace) : (start t).rest = .ok t.histories := by
  rw [(ready_start t).rest_eq, remaining_start]

end Walk

namespace Trace

/-- There are as many histories as paths. -/
theorem length_histories (t : Trace) : t.histories.length = t.pathCount := by
  rw [histories, List.length_map, length_paths]

variable {t : Trace} {request : Request}

/-! ### Limits out of bounds -/

theorem explained_of_nonpos (hlimit : request.limit ≤ 0) (level : Level) :
    t.explained level request = ⟨.error (.notPositive request.limit), []⟩ := by
  unfold explained
  rw [if_pos hlimit]

theorem explained_of_limitBound_le (hlimit : limitBound ≤ request.limit) (level : Level) :
    t.explained level request =
      ⟨.error .tooLarge, Record.atLeast level ((Walk.startMoves t).map Move.record)⟩ := by
  have hbound : 0 < limitBound := by decide
  unfold explained
  rw [if_neg (by omega), if_pos hlimit]
  simp only [Record.flatMap_emit_eq]

/-! ### Limits in bounds -/

/-- With a limit in bounds, what is explained are the first histories, and there are records of the
walk and of the report. -/
theorem explained_of_limit (hpos : 1 ≤ request.limit) (hlt : request.limit < limitBound)
    (level : Level) :
    t.explained level request =
      { result := .ok
          { examples := (t.histories.take request.limit.toNat).map History.unwind
            truncated := decide (request.limit < t.pathCount)
            lookahead := request.lookahead
            description := request.description }
        records := Record.atLeast level
          ((Walk.startMoves t ++
              ((Walk.start t).tour (request.limit.toNat + 1)).moves).map Move.record ++
            [t.reportRecord (min t.pathCount request.limit.toNat)
              (request.limit < t.pathCount)]) } := by
  obtain ⟨hfailure, -, htake, -⟩ := (Walk.ready_start t).tour (request.limit.toNat + 1)
  rw [Walk.remaining_start] at htake
  -- Of the one history more than are shown, only its being there counts.
  have hshown : (t.histories.take (request.limit.toNat + 1)).take request.limit.toNat =
      t.histories.take request.limit.toNat := by
    rw [List.take_take, Nat.min_eq_left (Nat.le_succ _)]
  have hcount : ((t.histories.take request.limit.toNat).map History.unwind).length =
      min t.pathCount request.limit.toNat := by
    rw [List.length_map, List.length_take, length_histories, Nat.min_comm]
  have hmore : decide (request.limit.toNat < (t.histories.take (request.limit.toNat + 1)).length) =
      decide (request.limit < t.pathCount) := by
    rw [List.length_take, length_histories, decide_eq_decide]
    omega
  unfold explained
  rw [if_neg (by omega), if_neg (by omega)]
  simp only [hfailure, htake, hshown, hcount, hmore, Record.flatMap_emit_eq]
  rw [Record.emit_eq, List.map_append, Record.atLeast_append, Record.atLeast_append]

theorem explain_of_limit (hpos : 1 ≤ request.limit) (hlt : request.limit < limitBound) :
    t.explain request = .ok
      { examples := (t.histories.take request.limit.toNat).map History.unwind
        truncated := decide (request.limit < t.pathCount)
        lookahead := request.lookahead
        description := request.description } := by
  rw [explain, explained_of_limit hpos hlt]

/-! ### Any limit -/

/-- A limit out of bounds is refused in one way for all traces and levels. -/
theorem refused_or_in_bounds (request : Request) :
    (∃ error : ExplainError, error.kind = .value ∧
      ∀ t level, (explained t level request).result = .error error) ∨
    1 ≤ request.limit ∧ request.limit < limitBound := by
  by_cases hnonpos : request.limit ≤ 0
  · refine .inl ⟨.notPositive request.limit, rfl, fun t level => ?_⟩
    rw [explained_of_nonpos hnonpos]
  by_cases hbound : limitBound ≤ request.limit
  · refine .inl ⟨.tooLarge, rfl, fun t level => ?_⟩
    rw [explained_of_limitBound_le hbound]
  · exact .inr ⟨Int.not_le.mp hnonpos, Int.not_le.mp hbound⟩

/-- What is explained does not depend on the level of the records. -/
theorem result_explained (t : Trace) (level : Level) (request : Request) :
    (t.explained level request).result = t.explain request := by
  obtain ⟨error, -, hrefused⟩ | ⟨hpos, hlt⟩ := refused_or_in_bounds request
  · rw [explain, hrefused, hrefused]
  · rw [explain, explained_of_limit hpos hlt, explained_of_limit hpos hlt]

/-- Only a limit is refused: no step of the walk fails. -/
theorem kind_of_explain {e : ExplainError} (h : t.explain request = .error e) :
    e.kind = .value := by
  obtain ⟨error, hkind, hrefused⟩ | ⟨hpos, hlt⟩ := refused_or_in_bounds request
  · rw [explain, hrefused] at h
    rwa [← Except.error.inj h]
  · rw [explain_of_limit hpos hlt] at h
    cases h

/-- **What is shown.**  A walk to the end has one history for each path.  With a limit in bounds the
explanation shows the examples of the first ones, as many as the limit allows and at least one, and
is truncated just when there are more paths than that.  Any other limit is an error. -/
theorem explain_shows_first (t : Trace) (request : Request) :
    ∃ all, (Walk.start t).rest = .ok all ∧ all.length = t.pathCount ∧
    (1 ≤ request.limit ∧ request.limit < limitBound → ∃ e, t.explain request = .ok e ∧
      e.examples = (all.map History.unwind).take request.limit.toNat ∧
      e.examples.length = min request.limit.toNat t.pathCount ∧ e.examples ≠ [] ∧
      (e.truncated ↔ request.limit < t.pathCount)) ∧
    (request.limit ≤ 0 → t.explain request = .error (.notPositive request.limit)) ∧
    (limitBound ≤ request.limit → t.explain request = .error .tooLarge) := by
  refine ⟨t.histories, Walk.rest_start t, t.length_histories, fun ⟨hpos, hlt⟩ => ?_,
    fun hlimit => ?_, fun hlimit => ?_⟩
  · let shown := (t.histories.map History.unwind).take request.limit.toNat
    have hcount : shown.length = min request.limit.toNat t.pathCount := by
      rw [List.length_take, List.length_map, t.length_histories]
    have hne : shown ≠ [] := by
      have hpaths := t.pathCount_pos
      exact List.ne_nil_of_length_pos (by omega)
    have hexplain := explain_of_limit (t := t) hpos hlt
    rw [List.map_take] at hexplain
    exact ⟨_, hexplain, rfl, hcount, hne, decide_eq_true_iff⟩
  · rw [explain, explained_of_nonpos hlimit]
  · rw [explain, explained_of_limitBound_le hlimit]

/-- Three traces where a history may begin, one of them a parent in two places: four paths. -/
def forkSample : Trace :=
  let leaf (tag : Nat) (name : String) : Trace := ⟨tag, ⟨⟨.text name, [.text "Foo"]⟩, 0⟩, []⟩
  let inner : Trace := ⟨3, ⟨⟨.text "Foo", [.text "Foo"]⟩, 0⟩, [leaf 0 "S", leaf 1 "T"]⟩
  ⟨4, ⟨⟨.text "Foo", [.text "W"]⟩, 0⟩, [inner, leaf 0 "S", leaf 2 "U"]⟩

theorem explain_shows_first_forkSample :
    (∃ e, forkSample.explain { limit := 3 } = .ok e ∧ e.examples.length = 3 ∧ e.truncated) ∧
    (∃ e, forkSample.explain { limit := 4 } = .ok e ∧ e.examples.length = 4 ∧ ¬ e.truncated) ∧
    forkSample.explain { limit := 0 } = .error (.notPositive 0) ∧
    forkSample.explain { limit := limitBound } = .error .tooLarge := by
  have hcount : forkSample.pathCount = 4 := by rfl
  obtain ⟨_, -, -, hthree, -, -⟩ := explain_shows_first forkSample { limit := 3 }
  obtain ⟨_, -, -, hfour, -, -⟩ := explain_shows_first forkSample { limit := 4 }
  obtain ⟨_, -, -, -, hzero, -⟩ := explain_shows_first forkSample { limit := 0 }
  obtain ⟨_, -, -, -, -, hlarge⟩ := explain_shows_first forkSample { limit := limitBound }
  obtain ⟨e, he, -, hlength, -, htruncated⟩ := hthree (by decide)
  obtain ⟨e', he', -, hlength', -, htruncated'⟩ := hfour (by decide)
  rw [hcount] at hlength htruncated hlength' htruncated'
  exact ⟨⟨e, he, hlength, htruncated.mpr (by decide)⟩,
    ⟨e', he', hlength', fun h => absurd (htruncated'.mp h) (by decide)⟩, hzero (by decide),
    hlarge (Int.le_refl _)⟩

end Trace

end GrammarConflict
