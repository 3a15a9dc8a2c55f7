import GrammarConflict.CommandLine.Run
import GrammarConflict.Proofs.Arena.Refusal
import GrammarConflict.Proofs.Explanation.Plain
import Mathlib.Logic.Basic

/-!
# How a run ends

Once its arguments are understood the command goes through stages: the file is read, decoded,
parsed, loaded, and explained within the limit.  Either all of them succeed and the explanation is
printed (`Prints`), or one is the first that fails and its message is the last line of the errors
(`FailsFirst`).  A run would break off with an error that is not caught; but the stages only fail
with errors that are (`FailsFirst.caught`), and what comes after them never fails: an explanation
has a text.

There is one exception.  A limit that was left without a value is not noticed before it is used, and
the run then breaks off where explaining would begin (`BreaksOff`).  `run_ends` has all three.
-/

namespace GrammarConflict

/-- The run succeeds with a text. -/
structure Outcome.Shows (outcome : Outcome) (text : String) : Prop where
  status_eq : outcome.status = 0
  output_eq : outcome.output = text ++ "\n"

/-- The run fails, and the last line of its errors gives the message. -/
structure Outcome.Reports (outcome : Outcome) (failure : Failure) : Prop where
  status_eq : outcome.status = 1
  output_eq : outcome.output = ""
  errors_eq : ∃ before, outcome.errors = before ++ ("lrexample: " ++ failure.message ++ "\n")

/-- With nothing left out of it, an explanation of a trace has a text. -/
theorem Trace.exists_text_of_explain {t : Trace} {request : Request} {e : Explanation}
    (h : t.explain request = .ok e) : ∃ text, e.text = .ok text := by
  rcases explain_alike (t := t) (u := t) rfl request with
    ⟨error, herror, -⟩ | ⟨e', -, he', -, -, htext⟩
  · rw [h] at herror
    cases herror
  · obtain rfl := Except.ok.inj (h.symm.trans he')
    exact htext

namespace CommandLine

/-! ### The stages -/

section

variable (read : String → Except FileError (List UInt8))

/-- The file at the path is read, and its bytes give the text. -/
def Decodes (path : String) (text : List Char) : Prop :=
  ∃ bytes, read path = .ok bytes ∧ Text.Utf8.decode bytes = .ok text

/-- The file at the path holds the value. -/
def Parses (path : String) (data : Value) : Prop :=
  ∃ text, Decodes read path text ∧ Json.read (Text.unifyNewlines text) = .ok data

/-- The trace is loaded from the file at the path. -/
def Loads (path : String) (t : Trace) : Prop :=
  ∃ data, Parses read path data ∧ Trace.load data = .ok t

/-- The failure is that of the first stage that fails. -/
inductive FailsFirst (options : Options) : Failure → Prop
  | reading {error : FileError} (fails : read options.trace = .error error) :
      FailsFirst options (.file options.trace error)
  | decoding {bytes : List UInt8} {fault : Text.Utf8.Fault} (reads : read options.trace = .ok bytes)
      (fails : Text.Utf8.decode bytes = .error fault) : FailsFirst options (.encoding fault)
  | parsing {text : List Char} {fault : Json.Fault} (decodes : Decodes read options.trace text)
      (fails : Json.read (Text.unifyNewlines text) = .error fault) :
      FailsFirst options (.format fault)
  | loading {data : Value} {error : LoadError} (parses : Parses read options.trace data)
      (fails : Trace.load data = .error error) : FailsFirst options (.trace error)
  | explaining {t : Trace} {request : Request} {error : ExplainError}
      (loads : Loads read options.trace t) (asks : options.request? = some request)
      (fails : t.explain request = .error error) : FailsFirst options (.conflict error)

/-- The trace is loaded, and there is no limit to explain it with. -/
def BreaksOff (options : Options) : Prop :=
  options.limit? = none ∧ ∃ t, Loads read options.trace t

/-- All stages succeed, and the text is that of the explanation. -/
def Prints (options : Options) (text : String) : Prop :=
  ∃ t request e, Loads read options.trace t ∧ options.request? = some request ∧
    t.explain request = .ok e ∧ e.text = .ok text

end

section

variable {read : String → Except FileError (List UInt8)} {options : Options} {failure : Failure}

theorem traceOfFile_eq_ok_iff {path : String} {t : Trace} :
    traceOfFile read path = .ok t ↔ Loads read path t := by
  simp only [traceOfFile, traceOfBytes, bind_eq_ok_iff, mapError_eq_ok_iff, Loads, Parses, Decodes]
  constructor
  · rintro ⟨bytes, hread, text, hdecode, data, hparse, hload⟩
    exact ⟨data, ⟨text, ⟨bytes, hread, hdecode⟩, hparse⟩, hload⟩
  · rintro ⟨data, ⟨text, ⟨bytes, hread, hdecode⟩, hparse⟩, hload⟩
    exact ⟨bytes, hread, text, hdecode, data, hparse, hload⟩

theorem failsFirst_of_error (h : traceOfFile read options.trace = .error failure) :
    FailsFirst read options failure := by
  simp only [traceOfFile, traceOfBytes, bind_eq_error_iff, mapError_eq_error_iff,
    mapError_eq_ok_iff] at h
  rcases h with ⟨error, hread, rfl⟩ | ⟨bytes, hread, h⟩
  · exact .reading hread
  rcases h with ⟨fault, hdecode, rfl⟩ | ⟨text, hdecode, h⟩
  · exact .decoding hread hdecode
  rcases h with ⟨fault, hparse, rfl⟩ | ⟨data, hparse, error, hload, rfl⟩
  · exact .parsing ⟨bytes, hread, hdecode⟩ hparse
  · exact .loading ⟨text, ⟨bytes, hread, hdecode⟩, hparse⟩ hload

/-- A stage fails before explaining, or it is explaining that fails. -/
theorem FailsFirst.error_or (h : FailsFirst read options failure) :
    traceOfFile read options.trace = .error failure ∨
    ∃ t request error, traceOfFile read options.trace = .ok t ∧ options.request? = some request ∧
      t.explain request = .error error ∧ failure = .conflict error := by
  simp only [traceOfFile, traceOfBytes, bind_eq_error_iff, mapError_eq_error_iff,
    mapError_eq_ok_iff]
  cases h with
  | reading fails => exact .inl (.inl ⟨_, fails, rfl⟩)
  | decoding reads fails => exact .inl (.inr ⟨_, reads, .inl ⟨_, fails, rfl⟩⟩)
  | parsing decodes fails =>
    obtain ⟨bytes, hread, hdecode⟩ := decodes
    exact .inl (.inr ⟨_, hread, .inr ⟨_, hdecode, .inl ⟨_, fails, rfl⟩⟩⟩)
  | loading parses fails =>
    obtain ⟨text, ⟨bytes, hread, hdecode⟩, hparse⟩ := parses
    exact .inl (.inr ⟨_, hread, .inr ⟨_, hdecode, .inr ⟨_, hparse, _, fails, rfl⟩⟩⟩)
  | explaining loads asks fails =>
    exact .inr ⟨_, _, _, traceOfFile_eq_ok_iff.mpr loads, asks, fails, rfl⟩

/-- **The errors of the stages are caught.** -/
theorem FailsFirst.caught (h : FailsFirst read options failure) : failure.caught = true := by
  rw [Failure.caught, decide_eq_true_eq]
  cases h with
  | @reading error _ => cases error <;> first | exact .inl rfl | exact .inr rfl
  | decoding => exact .inr rfl
  | parsing => exact .inr rfl
  | loading _ fails => exact .inr (Trace.load_refuses _ _ fails)
  | explaining _ _ fails => exact .inr (Trace.kind_of_explain fails)

/-! ### The outcome -/

/-- A failure that is caught is reported, after the records that the run left. -/
theorem ended_reports (records : List String) (hcaught : failure.caught = true) :
    ∃ outcome, ended records failure = .ok outcome ∧ outcome.Reports failure := by
  refine ⟨failed records failure, if_pos hcaught, rfl, rfl, unlines records, ?_⟩
  rw [failed, unlines_append, unlines_singleton]

theorem answer_reports {t : Trace} {request : Request} {error : ExplainError} (level : Level)
    (h : t.explain request = .error error) (hcaught : (Failure.conflict error).caught = true) :
    ∃ outcome, answer t level request = .ok outcome ∧ outcome.Reports (.conflict error) := by
  have hresult := (t.result_explained level request).trans h
  simp only [answer, hresult]
  exact ended_reports _ hcaught

theorem answer_shows {t : Trace} {request : Request} {e : Explanation} {text : String}
    (level : Level) (h : t.explain request = .ok e) (htext : e.text = .ok text) :
    ∃ outcome, answer t level request = .ok outcome ∧ outcome.Shows text := by
  have hresult := (t.result_explained level request).trans h
  simp only [answer, hresult, htext]
  exact ⟨_, rfl, rfl, unlines_singleton text⟩

/-! ### The run -/

variable {arguments : List String}

theorem BreaksOff.run_eq (h : Options.parse arguments = .ok options)
    (breaks : BreaksOff read options) : run read arguments = .error .limitWithoutValue := by
  obtain ⟨hlimit, t, loads⟩ := breaks
  have hrequest : options.request? = none := by simp [Options.request?, hlimit]
  simp only [run, h, traceOfFile_eq_ok_iff.mpr loads, hrequest]

theorem FailsFirst.run_reports (h : Options.parse arguments = .ok options)
    (fails : FailsFirst read options failure) :
    ∃ outcome, run read arguments = .ok outcome ∧ outcome.Reports failure := by
  have hcaught := fails.caught
  rcases fails.error_or with hfile | ⟨t, request, error, hfile, hrequest, hexplain, rfl⟩
  · simp only [run, h, hfile]
    exact ended_reports [] hcaught
  · simp only [run, h, hfile, hrequest]
    exact answer_reports _ hexplain hcaught

theorem Prints.run_shows {text : String} (h : Options.parse arguments = .ok options)
    (prints : Prints read options text) :
    ∃ outcome, run read arguments = .ok outcome ∧ outcome.Shows text := by
  obtain ⟨t, request, e, loads, hrequest, hexplain, htext⟩ := prints
  simp only [run, h, traceOfFile_eq_ok_iff.mpr loads, hrequest]
  exact answer_shows _ hexplain htext

/-- With an explanation at hand there is a text to print, so no other failure is left. -/
theorem prints_or_failsFirst (h : ¬ BreaksOff read options) :
    (∃ text, Prints read options text) ∨ ∃ failure, FailsFirst read options failure := by
  cases hfile : traceOfFile read options.trace with
  | error failure => exact .inr ⟨failure, failsFirst_of_error hfile⟩
  | ok t =>
    have loads := traceOfFile_eq_ok_iff.mp hfile
    cases hlimit : options.limit? with
    | none => exact absurd ⟨hlimit, t, loads⟩ h
    | some limit =>
      have hrequest : options.request? = some ⟨options.lookahead, options.description, limit⟩ := by
        simp [Options.request?, hlimit]
      cases hexplain : t.explain ⟨options.lookahead, options.description, limit⟩ with
      | error error => exact .inr ⟨_, .explaining loads hrequest hexplain⟩
      | ok e =>
        obtain ⟨text, htext⟩ := Trace.exists_text_of_explain hexplain
        exact .inl ⟨text, t, _, e, loads, hrequest, hexplain, htext⟩

/-- **A run ends in one of two ways** when its arguments are understood and it does not break off.
Either all stages succeed and the text of the explanation is printed, or the first stage that fails
is reported, and never both. -/
theorem run_ends (h : Options.parse arguments = .ok options) :
    (BreaksOff read options → run read arguments = .error .limitWithoutValue) ∧
    (¬ BreaksOff read options → ∃ outcome, run read arguments = .ok outcome ∧
      Xor (∃ text, Prints read options text) (∃ failure, FailsFirst read options failure) ∧
      (∀ text, Prints read options text → outcome.Shows text) ∧
      ∀ failure, FailsFirst read options failure → outcome.Reports failure) := by
  refine ⟨BreaksOff.run_eq h, fun hbreaks => ?_⟩
  have hor := prints_or_failsFirst hbreaks
  obtain ⟨outcome, hrun⟩ : ∃ outcome, run read arguments = .ok outcome := by
    rcases hor with ⟨text, prints⟩ | ⟨failure, fails⟩
    · exact (prints.run_shows h).imp fun _ => And.left
    · exact (fails.run_reports h).imp fun _ => And.left
  have hshows (text : String) (prints : Prints read options text) : outcome.Shows text := by
    obtain ⟨outcome', hrun', shows_text⟩ := prints.run_shows h
    rwa [Except.ok.inj (hrun.symm.trans hrun')]
  have hreports (failure : Failure) (fails : FailsFirst read options failure) :
      outcome.Reports failure := by
    obtain ⟨outcome', hrun', reports⟩ := fails.run_reports h
    rwa [Except.ok.inj (hrun.symm.trans hrun')]
  -- The exit status tells the two ways apart.
  have hnot : ¬ ((∃ text, Prints read options text) ∧
      ∃ failure, FailsFirst read options failure) := by
    rintro ⟨⟨text, prints⟩, failure, fails⟩
    have hzero := (hshows text prints).status_eq
    rw [(hreports failure fails).status_eq] at hzero
    contradiction
  exact ⟨outcome, hrun, (xor_iff_or_and_not_and _ _).mpr ⟨hor, hnot⟩, hshows, hreports⟩

/-- One trace file, whose conflict has one example. -/
def readSample (path : String) : Except FileError (List UInt8) :=
  let text := "\x7b\"productions\": [\x7b\"nonterminal\": \"S\", \"symbols\": []\x7d], " ++
    "\"nodes\": [\x7b\"production\": 0, \"position\": 0\x7d], \"root\": 0\x7d"
  if path = "t.json" then .ok (text.toList.map fun c => c.toNat.toUInt8) else .error .notFound

theorem run_ends_readSample :
    (∃ outcome text, run readSample ["--verbose", "t.json"] = .ok outcome ∧ outcome.Shows text) ∧
    (∃ outcome, run readSample ["--limit", "0", "t.json"] = .ok outcome ∧
      outcome.Reports (.conflict (.notPositive 0))) ∧
    (∃ outcome, run readSample ["u.json"] = .ok outcome ∧
      outcome.Reports (.file "u.json" .notFound)) ∧
    run readSample ["--limit=--", "t.json"] = .error .limitWithoutValue := by
  have hshown : Options.parse ["--verbose", "t.json"] =
      .ok ⟨"t.json", none, none, some 5, true⟩ := by decide +kernel
  have hzero : Options.parse ["--limit", "0", "t.json"] =
      .ok ⟨"t.json", none, none, some 0, false⟩ := by decide +kernel
  have hmissing : Options.parse ["u.json"] =
      .ok ⟨"u.json", none, none, some 5, false⟩ := by decide +kernel
  have hvalueless : Options.parse ["--limit=--", "t.json"] =
      .ok ⟨"t.json", none, none, none, false⟩ := by decide +kernel
  obtain ⟨t, loads⟩ : ∃ t, Loads readSample "t.json" t := by
    have hok : (traceOfFile readSample "t.json").isOk = true := by decide +kernel
    cases hfile : traceOfFile readSample "t.json" with
    | error failure =>
      rw [hfile] at hok
      cases hok
    | ok t => exact ⟨t, traceOfFile_eq_ok_iff.mp hfile⟩
  have hends {arguments : List String} {limit : Int} {options : Options}
      (h : Options.parse arguments = .ok options) (hlimit : options.limit? = some limit) :=
    (@run_ends readSample _ _ h).2 fun breaks => nomatch hlimit.symm.trans breaks.1
  obtain ⟨shown, hshown_eq, -, hshows, -⟩ := hends hshown rfl
  obtain ⟨refused, hzero_eq, -, -, hrefused⟩ := hends hzero rfl
  obtain ⟨missed, hmissing_eq, -, -, hmissed⟩ := hends hmissing rfl
  have hexplain : t.explain {} = .ok _ := Trace.explain_of_limit (by decide) (by decide)
  obtain ⟨text, htext⟩ := Trace.exists_text_of_explain hexplain
  exact ⟨⟨shown, text, hshown_eq, hshows text ⟨t, _, _, loads, rfl, hexplain, htext⟩⟩,
    ⟨refused, hzero_eq, hrefused _ (.explaining loads rfl rfl)⟩,
    ⟨missed, hmissing_eq, hmissed _ (.reading rfl)⟩, (run_ends hvalueless).1 ⟨rfl, t, loads⟩⟩

end

end CommandLine

end GrammarConflict
