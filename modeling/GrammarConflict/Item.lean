import GrammarConflict.Rule
import GrammarConflict.SignedIndex

/-!
# Items

An item is a rule with a position in it: so many of its symbols have been recognized.  `Rule.itemAt`
builds only items whose position lies within the rule.  The other operations take any position, in
the way of `SignedIndex`.
-/

namespace GrammarConflict

/-- A rule with a position in it. -/
structure Item where
  rule : Rule
  position : Int

/-- A position that lies outside of its rule. -/
structure OutOfRange where
  rule : Rule
  position : Int

/-- The words for a position outside of its rule. -/
def OutOfRange.message (e : OutOfRange) : String :=
  "Position " ++ toString e.position ++ " is out of range for `" ++ e.rule.text ++
    "`, which has " ++ toString e.rule.symbols.length ++ " symbols"

/-- The item at a position of the rule: before a symbol, or after the last. -/
def Rule.itemAt (rule : Rule) (position : Int) : Except OutOfRange Item :=
  if position < 0 ∨ rule.symbols.length < position then .error ⟨rule, position⟩
  else .ok ⟨rule, position⟩

namespace Item

/-- Whether all symbols have been recognized. -/
def atEnd (item : Item) : Bool :=
  item.position = item.rule.symbols.length

/-- The recognized symbols. -/
def before (item : Item) : List Value :=
  SignedIndex.upTo item.rule.symbols item.position

/-- The symbols from the position on. -/
def ahead (item : Item) : List Value :=
  SignedIndex.since item.rule.symbols item.position

/-- The symbols after the one at the position. -/
def after (item : Item) : List Value :=
  SignedIndex.since item.rule.symbols (item.position + 1)

/-- The texts of the symbols, with a star before the one at the position, or after the last. -/
def markedSymbols (item : Item) : List String :=
  let symbols := item.rule.symbols.mapIdx fun i symbol =>
    if (i : Int) = item.position then "* " ++ symbol.shown else symbol.shown
  if item.atEnd then symbols ++ ["*"] else symbols

/-- The item on one line, its position marked by a star. -/
def text (item : Item) : String :=
  item.rule.nonterminal.shown ++ " -> " ++ " ".intercalate item.markedSymbols

/-! ### Positions within the rule -/

/-- The position is before a symbol of the rule or after the last. -/
def Valid (item : Item) : Prop :=
  0 ≤ item.position ∧ item.position ≤ item.rule.symbols.length

instance (item : Item) : Decidable item.Valid :=
  inferInstanceAs (Decidable (_ ∧ _))

/-- The symbol at the position, of an item that is not at its end. -/
def cursorSymbol? (item : Item) : Option Value :=
  SignedIndex.get? item.rule.symbols item.position

theorem itemAt_eq_ok_iff {rule : Rule} {position : Int} {item : Item} :
    rule.itemAt position = .ok item ↔ item = ⟨rule, position⟩ ∧ item.Valid := by
  unfold Rule.itemAt
  constructor
  · intro h
    split at h
    · cases h
    · next hin =>
      obtain rfl := Except.ok.inj h
      exact ⟨rfl, Int.not_lt.mp fun hlo => hin (Or.inl hlo),
        Int.not_lt.mp fun hhi => hin (Or.inr hhi)⟩
  · rintro ⟨rfl, hlo, hhi⟩
    exact if_neg fun h => h.elim (Int.not_lt.mpr hlo) (Int.not_lt.mpr hhi)

/-- A cut at the position, wherever it lies, loses no symbol. -/
theorem before_append_ahead (item : Item) : item.before ++ item.ahead = item.rule.symbols :=
  SignedIndex.upTo_append_since ..

/-- The symbol at a valid position stands between those before and those after it. -/
theorem symbols_eq_of_cursorSymbol? {item : Item} {symbol : Value} (valid : item.Valid)
    (h : item.cursorSymbol? = some symbol) :
    item.rule.symbols = item.before ++ symbol :: item.after := by
  obtain ⟨n, hn⟩ := Int.eq_ofNat_of_zero_le valid.1
  rw [cursorSymbol?, hn, SignedIndex.get?_natCast] at h
  obtain ⟨hlt, hget⟩ := List.getElem?_eq_some_iff.mp h
  have hbefore : item.before = item.rule.symbols.take n := by
    rw [before, hn, SignedIndex.upTo_natCast (Nat.le_of_lt hlt)]
  have hafter : item.after = item.rule.symbols.drop (n + 1) := by
    rw [after, hn, ← Int.natCast_succ, SignedIndex.since_natCast hlt]
  rw [hbefore, hafter, ← hget, ← List.drop_eq_getElem_cons hlt, List.take_append_drop]

end Item

end GrammarConflict
