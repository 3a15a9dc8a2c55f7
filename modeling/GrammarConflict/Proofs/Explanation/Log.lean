import GrammarConflict.CommandLine.Run
import GrammarConflict.Proofs.Explanation.Plain
import GrammarConflict.Proofs.Walk.Traversal

/-!
# The log of a run

Explaining a trace and formatting the explanation leaves records in three stages: what the walk
enters and leaves, the report, and the brackets that are drawn.  The walk asks for one history more
than is shown, and so the first part ends where the history after that one begins, if there is one
(`RunLog`).  A run that is asked for records of a level leaves those of the lowest level that are at
that level or above, which is the report or nothing, and gives the same text
(`Trace.explained_logs`).
-/

namespace GrammarConflict

/-! ### What the records say -/

/-- The record of a visit: what is entered or left, and how many traces are on the way then. -/
def Visit.record : Visit → Record
  | .enter t depth =>
    ⟨"lrexample.iterate", .debug, "push " ++ t.item.text ++ " (depth " ++ toString depth ++ ")"⟩
  | .leave t depth =>
    ⟨"lrexample.iterate", .debug, "pop " ++ t.item.text ++ " (depth " ++ toString depth ++ ")"⟩

/-- The record of the report: how many examples are shown, and whether there are more. -/
def Trace.shownRecord (t : Trace) (limit : Nat) : Record :=
  ⟨"lrexample.report", .info, t.item.text ++ ": " ++ toString (min t.pathCount limit) ++
    " examples" ++ if limit < t.pathCount then " (truncated)" else ""⟩

/-- The records of drawing an example over the given columns: for each reduction the columns of its
bracket, the last one excluded, and its row. -/
def Example.drawRecords (e : Example) (P : List Int) : List Record :=
  e.reductions.mapIdx fun i r =>
    ⟨"lrexample.paint", .debug, "Reduction(start=" ++ toString r.start ++ ", end=" ++
      toString r.stop ++ ", nonterminal=" ++ r.nonterminal.quoted ++ ")" ++ " columns=" ++
      toString (P.getD r.start.toNat 0) ++ ".." ++ toString (P.getD r.stop.toNat 0 - 1) ++
      " row=" ++ toString (2 + 2 * i)⟩

theorem Bracket.text_ofReduction (P : List Int) (row : Nat) (r : Reduction) :
    (Bracket.ofReduction P row r).text = "Reduction(start=" ++ toString r.start ++ ", end=" ++
      toString r.stop ++ ", nonterminal=" ++ r.nonterminal.quoted ++ ")" ++ " columns=" ++
      toString (P.getD r.start.toNat 0) ++ ".." ++ toString (P.getD r.stop.toNat 0 - 1) ++
      " row=" ++ toString row := by
  unfold Bracket.text Reduction.text Bracket.ofReduction
  dsimp only

theorem Example.map_bracketsOver (e : Example) (P : List Int) :
    (e.bracketsOver P).map (fun b => Record.mk "lrexample.paint" .debug b.text) =
      e.drawRecords P := by
  apply List.ext_getElem?
  intro i
  rw [bracketsOver, drawRecords, List.getElem?_map, List.getElem?_mapIdx, List.getElem?_mapIdx,
    Option.map_map]
  refine Option.map_congr fun r _ => ?_
  rw [Function.comp_apply, Bracket.text_ofReduction]

theorem Visit.record_move (v : Visit) : v.move.record = v.record := by
  cases v <;> rfl

theorem Trace.reportRecord_eq (t : Trace) (limit : Nat) :
    t.reportRecord (min t.pathCount limit) (limit < t.pathCount) = t.shownRecord limit := by
  simp only [reportRecord, shownRecord, decide_eq_true_eq]

/-- Drawing leaves one record for each reduction. -/
theorem Explanation.exists_records {e : Explanation} {hs : List History}
    (h : e.examples = hs.map History.unwind) : ∃ P : Example → List Int,
      (∀ ex ∈ e.examples, ex.columns = .ok (P ex)) ∧
      ∀ level, e.records level =
        Record.atLeast level (e.examples.flatMap fun ex => ex.drawRecords (P ex)) := by
  have hlaid : ∀ ex ∈ e.examples, ∃ P, ex.Laid P := by
    rw [h]
    intro ex hex
    obtain ⟨history, _, rfl⟩ := List.mem_map.mp hex
    exact history.exists_laid
  let P (ex : Example) : List Int := ex.columns.toOption.getD []
  have hP : ∀ ex ∈ e.examples, ex.Laid (P ex) := by
    intro ex hex
    obtain ⟨Q, laid⟩ := hlaid ex hex
    have hQ : P ex = Q := by
      show ex.columns.toOption.getD [] = Q
      rw [laid.columns_eq]
      rfl
    rwa [hQ]
  refine ⟨P, fun ex hex => (hP ex hex).columns_eq, fun level => ?_⟩
  rw [records, Record.atLeast, List.filter_flatMap]
  apply List.flatMap_congr
  intro ex hex
  rw [(hP ex hex).brackets_eq_ok]
  show List.flatMap _ _ = Record.atLeast level _
  rw [Record.flatMap_emit_eq, Example.map_bracketsOver]

/-! ### The whole run -/

/-- The records are those of a run that walks over the visits, shows the examples of the explanation
and draws them over their columns. -/
structure RunLog (t : Trace) (limit : Nat) (e : Explanation) (vs : List Visit)
    (P : Example → List Int) (records : List Record) : Prop where
  traversed : vs <+: t.traversal 1
  /-- One history more than are shown is asked for.  If there is none after it, the walk is over. -/
  whole : t.pathCount ≤ limit + 1 → vs = t.traversal 1
  /-- Else the walk has come to where the next one begins. -/
  endsAt : limit + 1 < t.pathCount → Visit.EndsAt (limit + 2) vs
  columns_eq : ∀ ex ∈ e.examples, ex.columns = .ok (P ex)
  records_eq : records = vs.map Visit.record ++ t.shownRecord limit ::
    e.examples.flatMap fun ex => ex.drawRecords (P ex)

namespace RunLog

variable {t : Trace} {limit : Nat} {e : Explanation} {vs : List Visit} {P : Example → List Int}
  {records : List Record}

/-- Every record but the report is at the lowest level. -/
theorem exists_debug (h : RunLog t limit e vs P records) : ∃ walked drawn,
    records = walked ++ t.shownRecord limit :: drawn ∧
    (∀ r ∈ walked, r.level = .debug) ∧ ∀ r ∈ drawn, r.level = .debug := by
  refine ⟨_, _, h.records_eq, ?_, ?_⟩
  · intro r hr
    obtain ⟨v, _, rfl⟩ := List.mem_map.mp hr
    cases v <;> rfl
  · intro r hr
    obtain ⟨ex, _, hr⟩ := List.mem_flatMap.mp hr
    obtain ⟨i, _, rfl⟩ := List.mem_mapIdx.mp hr
    rfl

/-- At the middle level only the report is left. -/
theorem atLeast_info (h : RunLog t limit e vs P records) :
    Record.atLeast .info records = [t.shownRecord limit] := by
  obtain ⟨walked, drawn, rfl, hwalked, hdrawn⟩ := h.exists_debug
  have hnone (rs : List Record) (hrs : ∀ r ∈ rs, r.level = .debug) :
      Record.atLeast .info rs = [] := by
    rw [Record.atLeast, List.filter_eq_nil_iff]
    intro r hr
    rw [hrs r hr]
    decide
  unfold Record.atLeast at hnone ⊢
  rw [List.filter_append, hnone walked hwalked, List.filter_cons_of_pos rfl, hnone drawn hdrawn]
  rfl

theorem atLeast_warning (h : RunLog t limit e vs P records) :
    Record.atLeast .warning records = [] := by
  obtain ⟨walked, drawn, rfl, hwalked, hdrawn⟩ := h.exists_debug
  rw [Record.atLeast, List.filter_eq_nil_iff]
  intro r hr
  rcases List.mem_append.mp hr with hr | hr
  · rw [hwalked r hr]
    decide
  rcases List.mem_cons.mp hr with rfl | hr
  · simp [Trace.shownRecord, Level.rank]
  · rw [hdrawn r hr]
    decide

end RunLog

/-- At the lowest level there are all records. -/
theorem Record.atLeast_debug (records : List Record) : atLeast .debug records = records := by
  rw [atLeast, List.filter_eq_self]
  intro r _
  cases r.level <;> decide

namespace Trace

variable {t : Trace} {request : Request} {e : Explanation}

theorem exists_runLog (hpos : 1 ≤ request.limit) (hlt : request.limit < limitBound)
    (he : t.explain request = .ok e) :
    ∃ vs P records, RunLog t request.limit.toNat e vs P records ∧
      ∀ level, (t.explained level request).records ++ e.records level =
        Record.atLeast level records := by
  obtain ⟨vs, hmoves, hbegins, hwhole, hends⟩ := Walk.exists_visits (request.limit.toNat + 1) t
  have hexamples : e.examples = (t.histories.take request.limit.toNat).map History.unwind := by
    rw [explain_of_limit hpos hlt] at he
    rw [← Except.ok.inj he]
  obtain ⟨P, hP, hdrawn⟩ := Explanation.exists_records hexamples
  have hreport : (request.limit < t.pathCount) = (request.limit.toNat < t.pathCount) :=
    propext (by omega)
  refine ⟨vs, P, _, ⟨hbegins, hwhole, hends (Nat.succ_pos _), hP, rfl⟩, fun level => ?_⟩
  rw [explained_of_limit hpos hlt, hdrawn, ← Record.atLeast_append, hmoves, List.map_map]
  simp only [hreport, reportRecord_eq, List.append_assoc, List.singleton_append, Function.comp_def,
    Visit.record_move]

/-- **The log of a run.**  With a limit in bounds a trace is explained by the examples of its first
histories, and there are records of such a run.  At every level, explaining and formatting gives the
same explanation and the same text, and leaves those of the records that are at the level or above:
all of them at the lowest level, the report at the middle one, and none at the highest. -/
theorem explained_logs (t : Trace) (request : Request) (hpos : 1 ≤ request.limit)
    (hlt : request.limit < limitBound) :
    ∃ e text vs P records,
      e.examples = (t.histories.take request.limit.toNat).map History.unwind ∧
      e.text = .ok text ∧
      RunLog t request.limit.toNat e vs P records ∧
      (∀ level, (t.explained level request).result = .ok e ∧
        (t.explained level request).records ++ e.records level = Record.atLeast level records ∧
        CommandLine.answer t level request = .ok ⟨0, text ++ "\n",
          CommandLine.unlines ((Record.atLeast level records).map Record.line)⟩) ∧
      Record.atLeast .debug records = records ∧
      Record.atLeast .info records = [t.shownRecord request.limit.toNat] ∧
      Record.atLeast .warning records = [] := by
  have he := explain_of_limit (t := t) hpos hlt
  obtain ⟨text, htext⟩ := Explanation.exists_text (t.histories.take request.limit.toNat)
    (decide (request.limit < t.pathCount)) request.lookahead request.description
  obtain ⟨vs, P, records, hlog, hrecords⟩ := exists_runLog hpos hlt he
  refine ⟨_, text, vs, P, records, rfl, htext, hlog, fun level => ?_, Record.atLeast_debug _,
    hlog.atLeast_info, hlog.atLeast_warning⟩
  have hresult := (t.result_explained level request).trans he
  refine ⟨hresult, hrecords level, ?_⟩
  simp only [CommandLine.answer, hresult, htext, CommandLine.unlines_singleton, hrecords]

/-- With four paths, a walk that shows one of them comes to the third, and a walk that shows three
of them goes to the end. -/
theorem explained_logs_forkSample :
    (∃ e vs P records, forkSample.explain { limit := 1 } = .ok e ∧
      RunLog forkSample 1 e vs P records ∧ Visit.EndsAt 3 vs ∧
      (forkSample.explained .info { limit := 1 }).records ++ e.records .info =
        [⟨"lrexample.report", .info, "Foo -> * W: 1 examples (truncated)"⟩]) ∧
    ∃ e vs P records, forkSample.explain { limit := 3 } = .ok e ∧
      RunLog forkSample 3 e vs P records ∧ vs = forkSample.traversal 1 := by
  have hcount : forkSample.pathCount = 4 := by rfl
  obtain ⟨e, _, vs, P, records, -, -, hlog, hlevel, -, hinfo, -⟩ :=
    explained_logs forkSample { limit := 1 } (by decide) (by decide)
  obtain ⟨e', _, vs', P', records', -, -, hlog', hlevel', -⟩ :=
    explained_logs forkSample { limit := 3 } (by decide) (by decide)
  refine ⟨⟨e, vs, P, records, (hlevel .warning).1, hlog, hlog.endsAt ?_, ?_⟩,
    e', vs', P', records', (hlevel' .warning).1, hlog', hlog'.whole ?_⟩
  · rw [hcount]
    decide
  · rw [(hlevel .info).2.1, hinfo, shownRecord, hcount]
    rfl
  · rw [hcount]
    decide

end Trace

end GrammarConflict
