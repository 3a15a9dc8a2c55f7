import GrammarConflict.Walk

/-!
# Examples

An example is an input that leads to a conflict: its symbols, the place in it where the conflict
shows up, and the reductions over it.  `History.unwind` makes the example of a history.  In each
item but the last the symbol at the position is expanded by the item after it, so that

    S -> A * Foo C
    Foo -> W X * Y

gives `A W X * Y C`, with a reduction to `Foo` over `W X Y` and one to `S` over all.
-/

namespace GrammarConflict

/-- One place of an example: a symbol, or what an empty rule leaves. -/
inductive Piece where
  | symbol (value : Value)
  | epsilon

/-- The text of a piece. -/
def Piece.shown : Piece → String
  | .symbol value => value.shown
  | .epsilon => ""

/-- The text of a symbol; an empty place has none. -/
def Piece.shown? : Piece → Option String
  | .symbol value => some value.shown
  | .epsilon => none

/-- The pieces from `start` up to but not including `stop` are reduced to the nonterminal. -/
structure Reduction where
  start : Int
  stop : Int
  nonterminal : Value

/-- The text of a reduction in messages. -/
def Reduction.text (r : Reduction) : String :=
  "Reduction(start=" ++ toString r.start ++ ", end=" ++ toString r.stop ++ ", nonterminal=" ++
    r.nonterminal.quoted ++ ")"

/-- An input with the place of the conflict, a number of pieces before it, and its reductions, an
inner one before an outer one. -/
structure Example where
  cursor : Int
  pieces : List Piece
  reductions : List Reduction

namespace Example

/-- The texts of the symbols on one line, with a star at the conflict. -/
def line (e : Example) : String :=
  let marked := e.pieces.mapIdx fun i piece =>
    (if (i : Int) = e.cursor then ["*"] else []) ++ piece.shown?.toList
  let ending := if e.cursor = e.pieces.length then ["*"] else []
  " ".intercalate (marked.flatten ++ ending)

/-- The texts of the symbols before the conflict. -/
def path (e : Example) : String :=
  " ".intercalate ((SignedIndex.upTo e.pieces e.cursor).filterMap Piece.shown?)

end Example

/-- Why items are no history. -/
inductive HistoryError where
  | empty
deriving DecidableEq, Repr

/-- The words for a history error. -/
def HistoryError.message : HistoryError → String
  | .empty => "Cannot unwind an empty path"

namespace History

/-- The example of an item and the items after it, for an input whose first `start` pieces come from
before: cursor and reductions count them, the pieces do not hold them. -/
def unwindFrom (start : Nat) (item : Item) : List Item → Example
  | [] =>
    let symbols := (item.before ++ item.ahead).map Piece.symbol
    let pieces := if symbols.isEmpty then [.epsilon] else symbols
    { cursor := (start + item.before.length : Nat)
      pieces
      reductions := [⟨start, (start + pieces.length : Nat), item.rule.nonterminal⟩] }
  | next :: later =>
    let inner := unwindFrom (start + item.before.length) next later
    let pieces := item.before.map Piece.symbol ++ inner.pieces ++ item.after.map Piece.symbol
    { cursor := inner.cursor
      pieces
      reductions :=
        inner.reductions ++ [⟨start, (start + pieces.length : Nat), item.rule.nonterminal⟩] }

/-- The example of a history. -/
def unwind (h : History) : Example :=
  unwindFrom 0 h.first h.later

/-- The history of the items, the earliest first. -/
def ofItems : List Item → Except HistoryError History
  | [] => .error .empty
  | first :: later => .ok ⟨first, later⟩

end History

end GrammarConflict
