import GrammarConflict.CommandLine.Run

/-!
# The program

Reads the file that the arguments name, and prints what `CommandLine.run` gives, or why it broke
off.
-/

open GrammarConflict

/-- The words of the system for a cause. -/
def systemMessage (path : String) (code : UInt32) (details : String) : String :=
  "[Errno " ++ toString code ++ "] " ++ details ++ ": " ++ Text.quote path

/-- Whether a code is the system's number for a cause.  It may come with its sign changed. -/
def isCause (number code : UInt32) : Bool :=
  code = number ∨ code = -number

/-- Why a file cannot be read. -/
def fileError (path : String) : IO.Error → FileError
  | .noFileOrDirectory .. => .notFound
  | .inappropriateType _ code _ => if isCause 20 code then .notAFolder else .isAFolder
  | .invalidArgument _ code details =>
    if isCause 36 code then .nameTooLong else .other (systemMessage path code details)
  | .permissionDenied _ code details => .other (systemMessage path code details)
  | .resourceExhausted _ code details => .other (systemMessage path code details)
  | error => .other (toString error)

/-- The content of a file, or why it cannot be read. -/
def readContent (path : String) : IO (Except FileError (List UInt8)) := do
  try
    return .ok (← IO.FS.readBinFile path).toList
  catch error =>
    return .error (fileError path error)

def main (arguments : List String) : IO UInt32 := do
  let content ← match Options.parse arguments with
    | .ok options => readContent options.trace
    | .error _ => pure (.error .notFound)
  match CommandLine.run (fun _ => content) arguments with
  | .ok outcome =>
    IO.print outcome.output
    IO.eprint outcome.errors
    return outcome.status.toUInt32
  | .error breakdown =>
    IO.eprintln (breakdown.kind.name ++ ": " ++ breakdown.message)
    return 1
