import GrammarConflict.Diagram
import GrammarConflict.Record

/-!
# Explanations

An explanation of a conflict says what has been read when it shows up, and gives examples.
`Trace.explain` takes the examples from the first histories of a trace and says whether there are
more.  It walks no further than it needs to know that, so a trace with very many histories is no
harder than others.

A run is asked for records of some level (`Trace.explained`, `Explanation.records`); what it gives
is the same at every level.
-/

namespace GrammarConflict

/-- What there is to say about one conflict. -/
structure Explanation where
  examples : List Example
  /-- Whether there are more examples than these. -/
  truncated : Bool
  lookahead : Option String
  description : Option String

namespace Explanation

/-- The symbols read before the conflict, by the first example. -/
def path (e : Explanation) : String :=
  match e.examples with
  | [] => ""
  | first :: _ => first.path

/-- What has been read and seen, and what the conflict is. -/
def header (e : Explanation) : String :=
  "When we have parsed '" ++ e.path ++ "'" ++
    (match e.lookahead with
      | some token => " and see '" ++ token ++ "'"
      | none => "") ++
    ", the grammar is ambiguous" ++
    (match e.description with
      | some description => if description.isEmpty then "" else ": " ++ description
      | none => "")

/-- A row of a diagram, two blanks to the right. -/
def indented (row : String) : String :=
  String.ofList (Text.trimEnd ("  " ++ row).toList)

/-- The lines for the example of a number. -/
def exampleLines (number : Nat) (e : Example) : Except DiagramError (List String) := do
  let diagram ← e.diagram
  return "" :: ("Example " ++ toString number ++ ":") :: ("  " ++ e.line) :: diagram.map indented

/-- The lines for the examples that are numbered from `number` on. -/
def examplesLines (number : Nat) : List Example → Except DiagramError (List String)
  | [] => .ok []
  | e :: rest => do
    let these ← exampleLines number e
    let others ← examplesLines (number + 1) rest
    return these ++ others

/-- The lines of an explanation. -/
def lines (e : Explanation) : Except DiagramError (List String) := do
  let shown ← examplesLines 1 e.examples
  let ending :=
    if e.truncated then
      ["", "(only the first " ++ toString e.examples.length ++ " examples are shown)"]
    else []
  return e.header :: (shown ++ ending)

/-- An explanation as text. -/
def text (e : Explanation) : Except DiagramError String :=
  e.lines.map ("\n".intercalate ·)

/-- The records that drawing the examples leaves at a level. -/
def records (e : Explanation) (level : Level) : List Record :=
  e.examples.flatMap fun e =>
    match e.brackets with
    | .ok brackets =>
      brackets.flatMap fun b => Record.emit level ⟨"lrexample.paint", .debug, b.text⟩
    | .error _ => []

/-- Several explanations as one text. -/
def textOfAll (explanations : List Explanation) : Except DiagramError String := do
  let texts ← explanations.mapM text
  return toString explanations.length ++ " ambiguities:\n\n" ++ "\n\n".intercalate texts

end Explanation

/-! ### Explaining a trace -/

/-- The most examples to show unless a request says otherwise. -/
def defaultLimit : Int := 5

/-- What to show of a conflict. -/
structure Request where
  lookahead : Option String := none
  description : Option String := none
  /-- The most examples to show. -/
  limit : Int := defaultLimit

/-- Why a conflict is not explained. -/
inductive ExplainError where
  | notPositive (limit : Int)
  | tooLarge
  /-- A step of the walk fails. -/
  | notALeaf (error : Walk.NotALeaf)

/-- The kind of an error: a limit is refused, or a check of the walk fails. -/
def ExplainError.kind : ExplainError → ErrorKind
  | .notPositive _ | .tooLarge => .value
  | .notALeaf _ => .assertion

/-- The words for an error. -/
def ExplainError.message : ExplainError → String
  | .notPositive limit => "The example limit must be positive, not " ++ toString limit
  | .tooLarge =>
    "Stop argument for islice() must be None or an integer: 0 <= x <= sys.maxsize."
  | .notALeaf error => error.message

/-- The number of examples that is too large to ask for. -/
def limitBound : Int := Nat.pow 2 63 - 1

/-- What explaining a conflict gives, and the records that it leaves in any case. -/
structure Explained where
  result : Except ExplainError Explanation
  records : List Record

/-- The record of a move. -/
def Move.record (m : Move) : Record :=
  ⟨"lrexample.iterate", .debug, m.message⟩

namespace Trace

/-- The record of what is shown. -/
def reportRecord (t : Trace) (count : Nat) (truncated : Bool) : Record :=
  ⟨"lrexample.report", .info, t.item.text ++ ": " ++ toString count ++ " examples" ++
    (if truncated then " (truncated)" else "")⟩

/-- Explains the conflict at the end of a trace, in a run that is asked for records of a level.  One
example more than the limit is asked for, to find out whether there is one. -/
def explained (t : Trace) (level : Level) (request : Request) : Explained :=
  let emitMoves (moves : List Move) := moves.flatMap fun m => m.record.emit level
  if request.limit ≤ 0 then ⟨.error (.notPositive request.limit), []⟩
  else if limitBound ≤ request.limit then ⟨.error .tooLarge, emitMoves (Walk.startMoves t)⟩
  else
    let limit := request.limit.toNat
    let tour := (Walk.start t).tour (limit + 1)
    let walked := emitMoves (Walk.startMoves t) ++ emitMoves tour.moves
    match tour.failure? with
    | some error => ⟨.error (.notALeaf error), walked⟩
    | none =>
      let truncated := limit < tour.histories.length
      let examples := (tour.histories.take limit).map History.unwind
      { result := .ok ⟨examples, truncated, request.lookahead, request.description⟩
        records := walked ++ (t.reportRecord examples.length truncated).emit level }

/-- Explains the conflict at the end of a trace, whatever the records. -/
def explain (t : Trace) (request : Request) : Except ExplainError Explanation :=
  (t.explained .warning request).result

end Trace

end GrammarConflict
