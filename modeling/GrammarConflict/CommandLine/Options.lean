import GrammarConflict.Explanation
import GrammarConflict.Text.Digit

/-!
# The arguments of the command

The command takes the path of a trace file, and options.  An option may be shortened as long as no
other option starts the same; its value follows in the same argument after an equals sign, or as the
next argument.  After `--` every argument is a path.  As a value, `--` is none: it leaves the option
with an empty list of values.

Arguments are first told apart by their form (`Word.ofArguments`), then taken from left to right
(`Options.collect`), and last it is checked that nothing is missing and nothing left over.
-/

namespace GrammarConflict

/-- An option of the command. -/
inductive Flag where
  | help
  | limit
  | lookahead
  | description
  | verbose
deriving DecidableEq, Repr

namespace Flag

/-- How the options are spelled. -/
def spellings : List (String × Flag) :=
  [("-h", .help), ("--help", .help), ("--limit", .limit), ("--lookahead", .lookahead),
    ("--description", .description), ("--verbose", .verbose)]

/-- An option in messages. -/
def name : Flag → String
  | .help => "-h/--help"
  | .limit => "--limit"
  | .lookahead => "--lookahead"
  | .description => "--description"
  | .verbose => "--verbose"

end Flag

/-- Why arguments are refused. -/
inductive UsageError where
  | ambiguous (argument : String) (candidates : List String)
  | valueMissing (flag : Flag)
  | valueIgnored (flag : Flag) (value : String)
  | notAnInteger (value : String)
  | traceMissing
  | unrecognized (arguments : List String)
deriving DecidableEq, Repr

/-- The words for a usage error. -/
def UsageError.message : UsageError → String
  | .ambiguous argument candidates =>
    "ambiguous option: " ++ argument ++ " could match " ++ ", ".intercalate candidates
  | .valueMissing flag => "argument " ++ flag.name ++ ": expected one argument"
  | .valueIgnored flag value =>
    "argument " ++ flag.name ++ ": ignored explicit argument " ++ Text.quote value
  | .notAnInteger value => "argument --limit: invalid int value: " ++ Text.quote value
  | .traceMissing => "the following arguments are required: trace"
  | .unrecognized arguments => "unrecognized arguments: " ++ " ".intercalate arguments

/-! ### Forms of arguments -/

/-- An argument by its form. -/
inductive Word where
  | operand (text : String)
  | separator
  | option (flag : Flag) (value? : Option String)
  /-- Looks like an option, and is none. -/
  | unknown (text : String)
deriving DecidableEq, Repr

namespace Word

/-- A negative number: it is never an option. -/
def isNegativeNumber (cs : List Char) : Bool :=
  match cs with
  | '-' :: unsigned =>
    let number := if unsigned.getLast? = some '\n' then unsigned.dropLast else unsigned
    let whole := number.takeWhile Text.isDecimalDigit
    match number.dropWhile Text.isDecimalDigit with
    | [] => !whole.isEmpty
    | '.' :: fraction => !fraction.isEmpty && fraction.all Text.isDecimalDigit
    | _ => false
  | _ => false

/-- The part before the first equals sign and the part after it. -/
def splitValue (argument : String) : String × Option String :=
  let cs := argument.toList
  let name := String.ofList (cs.takeWhile (· != '='))
  match cs.dropWhile (· != '=') with
  | _ :: value => (name, some (String.ofList value))
  | [] => (name, none)

/-- The value that `-h` gets from what is joined to it, with an equals sign or without.  A leading
`h` repeats the option; what is left after all of them is a value, and so is nothing at all after
an equals sign. -/
def shortHelpValue (joined : String) : Option String :=
  match joined.toList.dropWhile (· == 'h') with
  | [] => if joined.isEmpty then some "" else none
  | rest => some (String.ofList rest)

/-- The readings of an argument as the start of an option, each with the option's full spelling. -/
def candidates (argument : String) : List (String × Flag × Option String) :=
  if argument.startsWith "--" then
    let (name, value?) := splitValue argument
    (Flag.spellings.filter fun s => s.1.startsWith name).map fun (s, flag) => (s, flag, value?)
  else if argument.startsWith "-h" then
    [("-h", .help, shortHelpValue (String.ofList (argument.toList.drop 2)))]
  else []

/-- An option spelled in full, with or without a value. -/
def inFull? (argument : String) : Option Word :=
  match Flag.spellings.lookup argument with
  | some flag => some (.option flag none)
  | none =>
    match splitValue argument with
    | (name, some value) =>
      if name = "-h" then some (.option .help (shortHelpValue value))
      else (Flag.spellings.lookup name).map fun flag => .option flag (some value)
    | (_, none) => none

/-- The form of one argument, before any `--`. -/
def ofArgument (argument : String) : Except UsageError Word :=
  if !argument.startsWith "-" || argument = "-" then .ok (.operand argument)
  else match inFull? argument with
    | some word => .ok word
    | none =>
      match candidates argument with
      | [(_, flag, value?)] => .ok (.option flag value?)
      | [] =>
        if isNegativeNumber argument.toList || argument.toList.contains ' ' then
          .ok (.operand argument)
        else .ok (.unknown argument)
      | several => .error (.ambiguous argument (several.map (·.1)))

/-- The forms of all arguments. -/
def ofArguments : List String → Except UsageError (List Word)
  | [] => .ok []
  | argument :: rest =>
    if argument = "--" then .ok (.separator :: rest.map .operand)
    else do
      let word ← ofArgument argument
      let words ← ofArguments rest
      return word :: words

end Word

/-! ### Options -/

/-- What the command is asked to do. -/
structure Options where
  trace : String
  lookahead : Option String
  description : Option String
  /-- The most examples to show, unless the limit was left without a value. -/
  limit? : Option Int
  verbose : Bool
deriving DecidableEq, Repr

/-- Why the command does not go on to a trace. -/
inductive Halt where
  | help
  | usage (error : UsageError)
deriving DecidableEq, Repr

namespace Options

/-- What has been collected from the arguments so far. -/
structure Draft where
  trace? : Option String := none
  lookahead : Option String := none
  description : Option String := none
  limit? : Option Int := some defaultLimit
  verbose : Bool := false
  extras : List String := []

/-- Sets an option that has a value.  The value `--`, which only stands after an equals sign, is
taken out as if it were the separator.  That is the rule of older releases of the option parser;
later ones keep it as a value like any other.  What is left is an empty list of values: it is shown
as a lookahead, it leaves out the description, and it is no limit. -/
def Draft.set (draft : Draft) (value : String) : Flag → Except UsageError Draft
  | .limit =>
    if value = "--" then .ok { draft with limit? := none }
    else match Text.integer? value.toList with
      | some limit => .ok { draft with limit? := some limit }
      | none => .error (.notAnInteger value)
  | .lookahead => .ok { draft with lookahead := some (if value = "--" then "[]" else value) }
  | .description => .ok { draft with description := if value = "--" then none else some value }
  | flag => .error (.valueIgnored flag value)

/-- Puts aside an argument that nothing takes. -/
def Draft.putAside (draft : Draft) (argument : String) : Draft :=
  { draft with extras := draft.extras ++ [argument] }

/-- What to show, if the limit has a value. -/
def request? (options : Options) : Option Request :=
  options.limit?.map fun limit => ⟨options.lookahead, options.description, limit⟩

/-- Takes the words from left to right.  The separator goes with the path next to it. -/
def collect (draft : Draft) : List Word → Except Halt Draft
  | [] => .ok draft
  | .unknown text :: rest => collect (draft.putAside text) rest
  | .operand text :: .separator :: rest =>
    if draft.trace?.isNone then collect { draft with trace? := some text } rest
    else collect (draft.putAside text) (.separator :: rest)
  | .operand text :: rest =>
    if draft.trace?.isNone then collect { draft with trace? := some text } rest
    else collect (draft.putAside text) rest
  | .separator :: .operand text :: rest =>
    if draft.trace?.isNone then collect { draft with trace? := some text } rest
    else collect (draft.putAside "--") (.operand text :: rest)
  | .separator :: rest => collect (draft.putAside "--") rest
  | .option .help none :: _ => .error .help
  | .option .verbose none :: rest => collect { draft with verbose := true } rest
  | .option flag (some value) :: rest =>
    match draft.set value flag with
    | .ok draft => collect draft rest
    | .error e => .error (.usage e)
  | .option flag none :: .operand value :: rest =>
    match draft.set value flag with
    | .ok draft => collect draft rest
    | .error e => .error (.usage e)
  | .option flag none :: _ => .error (.usage (.valueMissing flag))

/-- The options in the arguments. -/
def parse (arguments : List String) : Except Halt Options := do
  let words ← (Word.ofArguments arguments).mapError .usage
  let draft ← collect {} words
  match draft.trace? with
  | none => throw (.usage .traceMissing)
  | some trace =>
    if draft.extras.isEmpty then
      return ⟨trace, draft.lookahead, draft.description, draft.limit?, draft.verbose⟩
    else throw (.usage (.unrecognized draft.extras))

end Options

end GrammarConflict
