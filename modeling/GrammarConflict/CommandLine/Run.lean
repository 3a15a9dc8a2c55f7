import GrammarConflict.CommandLine.Folder
import GrammarConflict.CommandLine.Options
import GrammarConflict.Json.Reader
import GrammarConflict.Text.Newline
import GrammarConflict.Text.Utf8
import GrammarConflict.Trace.Build

/-!
# The command

The command reads a trace file and prints the explanation of its conflict.  The stages are reading,
decoding, parsing, loading and explaining; the first that fails says so on the error output, if its
error is of a kind that is caught.  A run breaks off (`Breakdown`) with an error of any other kind,
with an error in printing, which comes after the stages, and with a limit that has no value, where
explaining would begin.
-/

namespace GrammarConflict

/-- What the command prints, and its exit status. -/
structure Outcome where
  status : Nat
  output : String
  errors : String
deriving DecidableEq, Repr

/-- Why a stage fails. -/
inductive Failure where
  | file (path : String) (error : FileError)
  | encoding (fault : Text.Utf8.Fault)
  | format (fault : Json.Fault)
  | trace (error : LoadError)
  | conflict (error : ExplainError)

/-- The kind of a failure. -/
def Failure.kind : Failure → ErrorKind
  | .file _ error => error.kind
  | .encoding _ | .format _ => .value
  | .trace error => error.kind
  | .conflict error => error.kind

/-- The words for a failure. -/
def Failure.message : Failure → String
  | .file path error => error.message path
  | .encoding fault => fault.message
  | .format fault => fault.message
  | .trace error => error.message
  | .conflict error => error.message

/-- Whether the command catches a failure and reports it. -/
def Failure.caught (failure : Failure) : Bool :=
  failure.kind = .system ∨ failure.kind = .value

/-- Why a run breaks off and has no outcome. -/
inductive Breakdown where
  /-- An empty list of values is not comparable to a number. -/
  | limitWithoutValue
  | uncaught (failure : Failure)
  /-- An example cannot be drawn. -/
  | printing (error : DiagramError)

/-- The kind of error that a run breaks off with. -/
def Breakdown.kind : Breakdown → ErrorKind
  | .limitWithoutValue => .type
  | .uncaught failure => failure.kind
  | .printing error => error.kind

/-- The words for a breakdown. -/
def Breakdown.message : Breakdown → String
  | .limitWithoutValue => "'<=' not supported between instances of 'list' and 'int'"
  | .uncaught failure => failure.message
  | .printing error => error.message

namespace CommandLine

/-! ### Texts -/

/-- How the command is used. -/
def usage : String :=
  "usage: lrexample [-h] [--limit LIMIT] [--lookahead LOOKAHEAD]\n" ++
  "                 [--description DESCRIPTION] [--verbose]\n" ++
  "                 trace\n"

/-- What the command and its options do. -/
def help : String :=
  usage ++
  "\n" ++
  "Draw examples for the conflict described by a backtrace\n" ++
  "\n" ++
  "positional arguments:\n" ++
  "  trace                 Path to a JSON file containing the backtrace\n" ++
  "\n" ++
  "options:\n" ++
  "  -h, --help            show this help message and exit\n" ++
  "  --limit LIMIT         The most examples to show. The default is 5.\n" ++
  "  --lookahead LOOKAHEAD\n" ++
  "                        The token that was being looked at when the conflict\n" ++
  "                        happened.\n" ++
  "  --description DESCRIPTION\n" ++
  "                        A short description of the conflict, like\n" ++
  "                        'shift/reduce'.\n" ++
  "  --verbose             Turn on debug logging.\n"

/-- Each line with its end. -/
def unlines (lines : List String) : String :=
  String.join (lines.map (· ++ "\n"))

theorem unlines_append (lines others : List String) :
    unlines (lines ++ others) = unlines lines ++ unlines others := by
  simp [unlines]

theorem unlines_singleton (line : String) : unlines [line] = line ++ "\n" := by
  simp [unlines]

/-! ### Stages -/

/-- The trace in the bytes of a file. -/
def traceOfBytes (bytes : List UInt8) : Except Failure Trace := do
  let text ← (Text.Utf8.decode bytes).mapError .encoding
  let data ← (Json.read (Text.unifyNewlines text)).mapError .format
  (Trace.load data).mapError .trace

/-- The trace in a file. -/
def traceOfFile (read : String → Except FileError (List UInt8)) (path : String) :
    Except Failure Trace := do
  traceOfBytes (← (read path).mapError (.file path))

/-- The end of a run that fails, after the records that it left. -/
def failed (records : List String) (failure : Failure) : Outcome :=
  ⟨1, "", unlines (records ++ ["lrexample: " ++ failure.message])⟩

/-- What becomes of a run in which a stage fails. -/
def ended (records : List String) (failure : Failure) : Except Breakdown Outcome :=
  if failure.caught then .ok (failed records failure) else .error (.uncaught failure)

/-- Explains the conflict at the end of a trace and prints the explanation, with the records of a
level. -/
def answer (t : Trace) (level : Level) (request : Request) : Except Breakdown Outcome :=
  let explained := t.explained level request
  match explained.result with
  | .error error => ended (explained.records.map Record.line) (.conflict error)
  | .ok explanation =>
    match explanation.text with
    | .error error => .error (.printing error)
    | .ok text =>
      let records := explained.records ++ explanation.records level
      .ok ⟨0, unlines [text], unlines (records.map Record.line)⟩

/-- Runs the command on its arguments, with a way to read files. -/
def run (read : String → Except FileError (List UInt8)) (arguments : List String) :
    Except Breakdown Outcome :=
  match Options.parse arguments with
  | .error .help => .ok ⟨0, help, ""⟩
  | .error (.usage error) => .ok ⟨2, "", usage ++ "lrexample: error: " ++ error.message ++ "\n"⟩
  | .ok options =>
    match traceOfFile read options.trace with
    | .error failure => ended [] failure
    | .ok t =>
      match options.request? with
      | none => .error .limitWithoutValue
      | some request => answer t (if options.verbose then .debug else .warning) request

end CommandLine

end GrammarConflict
