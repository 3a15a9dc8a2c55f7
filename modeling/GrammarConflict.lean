import GrammarConflict.CommandLine.Run
import GrammarConflict.Main
import GrammarConflict.Proofs.Arena.Load
import GrammarConflict.Proofs.Example.Replay
import GrammarConflict.Trace.Dump
import GrammarConflict.Proofs.Explanation.Limit
import GrammarConflict.Proofs.Trace.Correspond
import GrammarConflict.Proofs.Dump.Reload
import GrammarConflict.Proofs.Dump.Canonical
import GrammarConflict.Proofs.Canvas.Cells
import GrammarConflict.Proofs.Canvas.Marks
import GrammarConflict.Proofs.Example.Nesting
import GrammarConflict.Proofs.Diagram.Marks
import GrammarConflict.Proofs.Diagram.Legible
import GrammarConflict.Proofs.Example.Plain
import GrammarConflict.Proofs.Explanation.Plain
import GrammarConflict.Proofs.Dump.Explained
import GrammarConflict.Proofs.Walk.Traversal
import GrammarConflict.Proofs.Explanation.Log
import GrammarConflict.Proofs.Explanation.Unfolding
import GrammarConflict.Proofs.CommandLine.Ending
import GrammarConflict.Proofs.Diagram.Picture
import GrammarConflict.Proofs.Layout.Justification
import GrammarConflict.Proofs.Example.Contribution
import GrammarConflict.Proofs.Layout.Fitting
import GrammarConflict.Proofs.Example.Drawable
import GrammarConflict.Proofs.Walk.Stack
import GrammarConflict.Proofs.Arena.Search
import GrammarConflict.Proofs.Trace.Preorder
import GrammarConflict.Proofs.Dump.Numbering
import GrammarConflict.Proofs.Canvas.Dabs
import GrammarConflict.Proofs.Canvas.Failure
import GrammarConflict.Proofs.Canvas.Crossing
import GrammarConflict.Proofs.Canvas.Grid
import GrammarConflict.Proofs.Dump.Stability
import GrammarConflict.Proofs.Example.Place
import GrammarConflict.Proofs.Diagram.Rows
import GrammarConflict.Proofs.Explanation.Lines
