import GrammarConflict.ErrorKind
import GrammarConflict.Example

/-!
# The columns of an example

Each piece of an example gets a column to start at, and one more column marks the end.  At first one
blank stands between two pieces.  A reduction is drawn under its pieces as a bracket with a label,

    A1   B2  C3  D4 E5 F6
    |             |
    +-LongLabel22-+

and if the label does not fit, the pieces are spread: what comes after the reduction moves right,
and the gaps inside it share the missing room as evenly as whole columns allow, the leftmost gaps
taking what is left over.

Reductions may refer to pieces by any `SignedIndex`.
-/

namespace GrammarConflict

/-- Why an example has no layout. -/
inductive LayoutError where
  | emptyReduction (reduction : Reduction)
  | noSuchPiece (miss : SignedIndex.Miss)

/-- The kind of a layout error. -/
def LayoutError.kind : LayoutError → ErrorKind
  | .emptyReduction _ => .assertion
  | .noSuchPiece _ => .index

/-- The words for a layout error. -/
def LayoutError.message : LayoutError → String
  | .emptyReduction reduction => "Empty reduction " ++ reduction.text
  | .noSuchPiece miss => miss.message

namespace Layout

/-- The columns of pieces of the given lengths from column `left` on, one blank between two. -/
def spaced (left : Int) : List Int → List Int
  | [] => []
  | length :: rest => left :: spaced (left + length + 1) rest

/-- The member of a list of columns or lengths that an index names. -/
def member (xs : List Int) (i : Int) : Except LayoutError Int :=
  match SignedIndex.get? xs i with
  | some x => .ok x
  | none => .error (.noSuchPiece (SignedIndex.missOf i))

/-- The room that a label takes, with the ends of its bracket: `+-Label-+`. -/
def labelRoom (r : Reduction) : Int :=
  r.nonterminal.shown.length + 4

/-- How far a piece moves when the gaps between the pieces from `start` up to `stop` are widened by
`missing` in all: a piece after them by all of it, one among them by the shares of the gaps before
it, the leftmost gaps taking one more as long as there is a remainder. -/
def shift (start stop missing i : Int) : Int :=
  if stop ≤ i then missing
  else
    let gaps := stop - start - 1
    let passed := max 0 (i - start)
    passed * (missing / gaps) + min passed (missing % gaps)

/-- The columns after the gaps between the pieces from `start` up to `stop` have been widened by
`missing` in all.  Each column moves by what its two indices say, the one from the start and the one
from the end. -/
def justify (columns : List Int) (start stop missing : Int) : List Int :=
  let count := columns.length
  columns.mapIdx fun k column =>
    column + shift start stop missing k + shift start stop missing (k - count)

/-- The number of columns by which a reduction is too narrow for its label. -/
def missingRoom (lengths columns : List Int) (r : Reduction) : Except LayoutError Int := do
  let left ← member columns r.start
  let lastColumn ← member columns (r.stop - 1)
  let lastLength ← member lengths (r.stop - 1)
  return max 0 (labelRoom r - (lastColumn + lastLength - left))

/-- Makes room for the label of a reduction. -/
def widen (lengths columns : List Int) (r : Reduction) : Except LayoutError (List Int) := do
  if r.stop - r.start ≤ 0 then throw (.emptyReduction r)
  return justify columns r.start r.stop (← missingRoom lengths columns r)

/-- The columns for pieces of the given lengths under the given reductions. -/
def columns (lengths : List Int) (reductions : List Reduction) : Except LayoutError (List Int) :=
  reductions.foldlM (widen lengths) (spaced 0 lengths)

end Layout

namespace Example

/-- The lengths of the pieces, and zero for the end.  An empty place is one blank wide. -/
def lengths (e : Example) : List Int :=
  (e.pieces.map fun
    | .symbol value => (value.shown.length : Int)
    | .epsilon => 1) ++ [0]

/-- The columns of the pieces and of the end. -/
def columns (e : Example) : Except LayoutError (List Int) :=
  Layout.columns e.lengths e.reductions

end Example

end GrammarConflict
