import GrammarConflict.Value.Shown
import GrammarConflict.Value.Key

/-!
# Grammar rules

A rule says which symbols a nonterminal expands to.  Symbols and nonterminals are any values that
can be shown.
-/

namespace GrammarConflict

/-- A rule of a grammar. -/
structure Rule where
  nonterminal : Value
  symbols : List Value

namespace Rule

/-- The rule on one line, with an arrow. -/
def text (rule : Rule) : String :=
  rule.nonterminal.shown ++ " -> " ++ " ".intercalate (rule.symbols.map Value.shown)

/-- What a rule shows: the texts of its nonterminal and of its symbols. -/
structure Face where
  nonterminal : String
  symbols : List String
deriving DecidableEq, Repr

/-- The texts of a rule. -/
def face (rule : Rule) : Face :=
  ⟨rule.nonterminal.shown, rule.symbols.map Value.shown⟩

/-- The key of a rule, by which equal rules are recognized.  Fails at the first value without one,
the nonterminal before the symbols. -/
def key (rule : Rule) : Except Keyless (Key × List Key) := do
  let nonterminal ← rule.nonterminal.key
  let symbols ← rule.symbols.mapM Value.key
  return (nonterminal, symbols)

end Rule

end GrammarConflict
