/-!
# Log records

The stages of an explanation leave records.  A record has a level.  A run is asked for records of
some level, and a stage leaves a record only if that is the level of the record or below it
(`Record.emit`).
-/

namespace GrammarConflict

/-- How much a record matters. -/
inductive Level where
  | debug
  | info
  | warning
deriving DecidableEq, Repr

namespace Level

/-- The rank of a level: the more it matters, the higher. -/
def rank : Level → Nat
  | .debug => 10
  | .info => 20
  | .warning => 30

/-- The name of a level. -/
def name : Level → String
  | .debug => "DEBUG"
  | .info => "INFO"
  | .warning => "WARNING"

end Level

/-- What a stage has to say. -/
structure Record where
  /-- The name of the stage. -/
  logger : String
  level : Level
  message : String
deriving DecidableEq, Repr

namespace Record

/-- Leaves a record, if its level is one that is asked for. -/
def emit (level : Level) (r : Record) : List Record :=
  if level.rank ≤ r.level.rank then [r] else []

/-- The records at a level and above. -/
def atLeast (level : Level) (records : List Record) : List Record :=
  records.filter fun r => level.rank ≤ r.level.rank

theorem atLeast_append (level : Level) (records others : List Record) :
    atLeast level (records ++ others) = atLeast level records ++ atLeast level others :=
  List.filter_append ..

theorem emit_eq (level : Level) (r : Record) : r.emit level = atLeast level [r] := by
  rw [emit, atLeast, List.filter_cons, List.filter_nil]
  simp only [decide_eq_true_eq]

/-- Leaving one record after another leaves those at the level and above. -/
theorem flatMap_emit_eq {α : Type} (level : Level) (f : α → Record) (xs : List α) :
    xs.flatMap (fun x => (f x).emit level) = atLeast level (xs.map f) := by
  induction xs with
  | nil => rfl
  | cons x xs ih =>
    rw [List.flatMap_cons, ih, emit_eq, ← atLeast_append, List.map_cons, List.singleton_append]

/-- The record on one line. -/
def line (r : Record) : String :=
  r.level.name ++ ":" ++ r.logger ++ ":" ++ r.message

end Record

end GrammarConflict
