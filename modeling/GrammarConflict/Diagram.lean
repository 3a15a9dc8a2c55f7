import GrammarConflict.Canvas
import GrammarConflict.Layout

/-!
# Diagrams

A diagram shows an example: its symbols in the first row, and under them one bracket a reduction,

    Expr + Expr + Expr
    |         |
    +-Expr----+

two rows each, an inner one above an outer one.  The ends of a bracket reach up to the symbols.
Labels are written last, so that no stroke runs through them.
-/

namespace GrammarConflict

/-- A reduction with its place in a diagram: it ends before column `stop`. -/
structure Bracket where
  reduction : Reduction
  start : Int
  stop : Int
  row : Nat

/-- Why an example has no diagram. -/
inductive DiagramError where
  | layout (error : LayoutError)
  | canvas (error : CanvasError)

/-- The kind of a diagram error. -/
def DiagramError.kind : DiagramError → ErrorKind
  | .layout error => error.kind
  | .canvas error => error.kind

/-- The words for a diagram error. -/
def DiagramError.message : DiagramError → String
  | .layout error => error.message
  | .canvas error => error.message

namespace Bracket

/-- The brackets of reductions over the given columns, the next one in row `row`. -/
def ofReductions (columns : List Int) (row : Nat) :
    List Reduction → Except LayoutError (List Bracket)
  | [] => .ok []
  | r :: rest => do
    let start ← Layout.member columns r.start
    let stop ← Layout.member columns r.stop
    let brackets ← ofReductions columns (row + 2) rest
    return ⟨r, start, stop - 1, row⟩ :: brackets

/-- The bracket in messages. -/
def text (b : Bracket) : String :=
  b.reduction.text ++ " columns=" ++ toString b.start ++ ".." ++ toString b.stop ++ " row=" ++
    toString b.row

/-- Draws the two ends and the foot of a bracket. -/
def draw (b : Bracket) : Draw Unit := do
  let rows := Stride.between 1 (b.row + 1)
  Canvas.strokeDown rows b.start
  Canvas.strokeDown rows (b.stop - 1)
  Canvas.strokeAlong b.row (Stride.between b.start b.stop)

/-- Writes the label of a bracket. -/
def drawLabel (b : Bracket) : Draw Unit :=
  Canvas.writeChars b.row (b.start + 2) b.reduction.nonterminal.shown.toList

end Bracket

namespace Example

/-- The brackets of the reductions, the first one in row 2. -/
def brackets (e : Example) : Except LayoutError (List Bracket) := do
  Bracket.ofReductions (← e.columns) 2 e.reductions

/-- Draws an example whose pieces stand at the given columns. -/
def draw (e : Example) (columns : List Int) (brackets : List Bracket) : Draw Unit := do
  (e.pieces.zip columns).forM fun (piece, column) =>
    Canvas.writeChars 0 column piece.shown.toList
  brackets.forM Bracket.draw
  brackets.forM Bracket.drawLabel

/-- The rows of the diagram of an example. -/
def diagram (e : Example) : Except DiagramError (List String) := do
  let columns ← e.columns.mapError .layout
  let brackets ← (Bracket.ofReductions columns 2 e.reductions).mapError .layout
  let canvas := Canvas.blank (1 + 2 * e.reductions.length) (columns.getLast?.getD 0)
  match e.draw columns brackets canvas with
  | .ok _ drawn => return drawn.lines
  | .error error _ => throw (.canvas error)

end Example

end GrammarConflict
