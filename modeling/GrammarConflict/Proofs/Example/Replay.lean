import GrammarConflict.Proofs.Trace.Reach
import GrammarConflict.Proofs.Walk.Enumeration
import Mathlib.Data.List.Chain

/-!
# Examples are derivations

The reductions of an example are meant to be carried out on its pieces one after another, each
replacing the pieces under it by its nonterminal, until one nonterminal is left.  `Replay` carries
them out: places refer to the pieces as they were at first, so the number of pieces removed so far
is taken off the end of a reduction.  The pieces that a step replaces are its handle.

A trace is `Linked` when every parent expects what it is a parent of: its position is valid and
before a symbol, and that symbol is the nonterminal of the item that it leads to.  On the histories
of a linked trace every handle is the whole expansion of a rule, and the last string is the
nonterminal of the earliest item (`Linked.replay_unwind`).

The invariant is `run_unwindFrom`: the reductions of the items from one on turn what those items
contributed, wherever it stands in a string, into one nonterminal.
-/

namespace GrammarConflict

/-! ### Carrying out reductions -/

/-- A string in the course of a replay. -/
structure Replay where
  pieces : List Piece
  /-- By how much the steps so far have shortened the string. -/
  removed : Int

namespace Replay

/-- Carries out one reduction: its handle, and the string with the nonterminal in place of it.
Fails if the places do not lie in the string. -/
def step (s : Replay) (r : Reduction) : Option (List Piece × Replay) :=
  let stop := r.stop - s.removed
  if 0 ≤ r.start ∧ r.start ≤ stop ∧ stop ≤ s.pieces.length then
    let handle := (s.pieces.take stop.toNat).drop r.start.toNat
    let left := s.pieces.take r.start.toNat
    let right := s.pieces.drop stop.toNat
    some (handle, ⟨left ++ .symbol r.nonterminal :: right, s.removed + handle.length - 1⟩)
  else none

/-- Carries out one reduction after another. -/
def run : Replay → List Reduction → Option (List (List Piece) × Replay)
  | s, [] => some ([], s)
  | s, r :: rest =>
    match s.step r with
    | none => none
    | some (handle, s) => (s.run rest).map fun done => (handle :: done.1, done.2)

/-- A reduction whose places are those of a part of the string replaces that part. -/
theorem step_append {left handle right : List Piece} {removed : Int} {r : Reduction}
    (hstart : r.start = left.length) (hstop : r.stop = left.length + handle.length + removed) :
    step ⟨left ++ handle ++ right, removed⟩ r =
      some (handle, ⟨left ++ .symbol r.nonterminal :: right, removed + handle.length - 1⟩) := by
  have hstop' : r.stop - removed = ((left ++ handle).length : Nat) := by
    rw [hstop, List.length_append]
    omega
  have hstart' : r.start.toNat = left.length := by omega
  simp only [step, hstop', Int.toNat_natCast, hstart']
  rw [if_pos, List.take_left, List.drop_left, List.drop_left, List.append_assoc, List.take_left]
  simp only [hstart, List.length_append]
  omega

theorem run_append {s s' : Replay} {rs : List Reduction} {handles : List (List Piece)}
    (h : s.run rs = some (handles, s')) (rest : List Reduction) :
    s.run (rs ++ rest) = (s'.run rest).map fun done => (handles ++ done.1, done.2) := by
  induction rs generalizing s handles with
  | nil =>
    obtain ⟨rfl, rfl⟩ := Prod.mk.inj (Option.some.inj h)
    simp
  | cons r rs ih =>
    rw [run] at h
    rw [List.cons_append, run]
    split at h
    · cases h
    · next handle s₁ hstep =>
      obtain ⟨⟨handles₁, s₂⟩, hrun, heq⟩ := Option.map_eq_some_iff.mp h
      obtain ⟨rfl, rfl⟩ := Prod.mk.inj heq
      rw [ih hrun, Option.map_map]
      rfl

end Replay

/-- Carries out the reductions of an example on its pieces: the handles, and the last string. -/
def Example.replay (e : Example) : Option (List (List Piece) × List Piece) :=
  (Replay.run ⟨e.pieces, 0⟩ e.reductions).map fun done => (done.1, done.2.pieces)

/-! ### Linked traces -/

/-- What a rule expands to, as the pieces of an example. -/
def Rule.pieces (rule : Rule) : List Piece :=
  if rule.symbols = [] then [.epsilon] else rule.symbols.map .symbol

/-- The first item waits for the second: it has passed validation and stands before a symbol, the
nonterminal of the second. -/
structure Item.Expects (item next : Item) : Prop where
  valid : item.Valid
  not_atEnd : item.atEnd = false
  cursorSymbol?_eq : item.cursorSymbol? = some next.rule.nonterminal

/-- Every parent of a trace that is reached expects it. -/
def Trace.Linked (t : Trace) : Prop :=
  ∀ s, t.Reaches s → ∀ p ∈ s.parents, p.item.Expects s.item

/-- A trace is linked if its parents are and expect it. -/
theorem Trace.linked_iff {t : Trace} :
    t.Linked ↔ ∀ p ∈ t.parents, p.item.Expects t.item ∧ p.Linked := by
  rw [Linked, forall_reaches_iff, ← forall₂_and]
  rfl

namespace Item.Expects

variable {item next : Item}

/-- The rule is what comes before and after, with the nonterminal awaited in between. -/
theorem pieces_eq (h : item.Expects next) :
    item.rule.pieces =
      item.before.map .symbol ++ .symbol next.rule.nonterminal :: item.after.map .symbol := by
  have hsymbols := symbols_eq_of_cursorSymbol? h.valid h.cursorSymbol?_eq
  have hne : item.rule.symbols ≠ [] := by
    rw [hsymbols]
    exact List.append_ne_nil_of_right_ne_nil _ (List.cons_ne_nil _ _)
  rw [Rule.pieces, if_neg hne, hsymbols, List.map_append, List.map_cons]

theorem length_pieces (h : item.Expects next) :
    item.rule.pieces.length = item.before.length + item.after.length + 1 := by
  rw [h.pieces_eq, List.length_append, List.length_cons, List.length_map, List.length_map]
  rfl

end Item.Expects

/-- In a history of a linked trace each item expects the one after it. -/
theorem Trace.Path.isChain_items {t : Trace} {choices : List Nat} {h : History}
    (path : t.Path choices h) (linked : t.Linked) : h.items.IsChain Item.Expects := by
  induction path with
  | start _ => exact .singleton _
  | @through t p i choices h parent path ih =>
    have hp : p ∈ t.parents := hasParent_of_getElem? parent
    rw [History.items_followedBy, List.isChain_append]
    refine ⟨ih fun s hs => linked s (.head hp hs), .singleton _, ?_⟩
    intro x hx y hy
    obtain rfl : p.item = x := Option.some.inj (path.getLast?_items.symm.trans hx)
    obtain rfl : t.item = y := Option.some.inj hy
    exact linked t .refl p hp

/-! ### The example of a chain of items -/

namespace History

theorem unwindFrom_nil_pieces (start : Nat) (item : Item) :
    (unwindFrom start item []).pieces = item.rule.pieces := by
  simp only [unwindFrom, Item.before_append_ahead, Rule.pieces, List.isEmpty_iff,
    List.map_eq_nil_iff]

/-- **Replay in context.**  Wherever the pieces that the items contribute stand in a string, their
reductions turn them into the nonterminal of the first item, and each handle is the expansion of a
rule. -/
theorem run_unwindFrom (left right : List Piece) (item : Item) (later : List Item)
    (chain : (item :: later).IsChain Item.Expects) :
    Replay.run ⟨left ++ (unwindFrom left.length item later).pieces ++ right, 0⟩
        (unwindFrom left.length item later).reductions =
      some ((item :: later).reverse.map (·.rule.pieces),
        ⟨left ++ .symbol item.rule.nonterminal :: right,
          (unwindFrom left.length item later).pieces.length - 1⟩) := by
  induction later generalizing left right item with
  | nil =>
    have hpieces := unwindFrom_nil_pieces left.length item
    simp only [unwindFrom] at hpieces ⊢
    rw [hpieces, Replay.run, Replay.step_append rfl (by simp)]
    simp [Replay.run]
  | cons next later ih =>
    obtain ⟨hexpects, hchain⟩ := List.isChain_cons_cons.mp chain
    have hinner :=
      ih (left ++ item.before.map .symbol) (item.after.map .symbol ++ right) next hchain
    rw [List.length_append, List.length_map] at hinner
    simp only [unwindFrom]
    generalize unwindFrom (left.length + item.before.length) next later = inner at hinner ⊢
    -- To the inner example, what `item` has around its position belongs to the context.
    have hshape :
        left ++ (item.before.map .symbol ++ inner.pieces ++ item.after.map .symbol) ++ right =
          left ++ item.before.map .symbol ++ inner.pieces ++ (item.after.map .symbol ++ right) := by
      simp only [List.append_assoc]
    -- Once the inner reductions are done, the string holds the rule of `item` in full.
    have hstring : left ++ item.before.map .symbol ++
        .symbol next.rule.nonterminal :: (item.after.map .symbol ++ right) =
          left ++ item.rule.pieces ++ right := by
      rw [hexpects.pieces_eq]
      simp
    have hlength := hexpects.length_pieces
    rw [hshape, Replay.run_append hinner, hstring, Replay.run, Replay.step_append rfl ?_]
    · simp only [Replay.run, Option.map_some, List.reverse_cons, List.map_append, List.append_assoc,
        List.map_cons, List.map_nil, hlength, List.length_append, List.length_map]
      congr 3
      omega
    -- The end of the last reduction, less what the inner ones removed, is the end of the rule.
    · simp only [hlength, List.length_append, List.length_map]
      omega

/-- There is one reduction for each item, the last item's first. -/
theorem nonterminals_unwindFrom (start : Nat) (item : Item) (later : List Item) :
    (unwindFrom start item later).reductions.map (·.nonterminal) =
      (item :: later).reverse.map (·.rule.nonterminal) := by
  induction later generalizing start item with
  | nil => rfl
  | cons next later ih =>
    rw [unwindFrom, List.map_append, ih, List.reverse_cons (a := item), List.map_append]
    rfl

end History

/-- **Every example of a linked trace is a derivation.**  Its reductions are those of a path's items
from the conflict on; carried out on its pieces they replace the whole expansion of one rule after
another, and leave the nonterminal of the earliest item. -/
theorem Trace.Linked.replay_unwind {t : Trace} (linked : t.Linked) {k : Nat} {step : Walk.Step}
    (h : (Walk.tour k (Walk.start t)).walk.next = .ok (some step)) :
    ∃ choices, t.Path choices step.history ∧
      step.history.unwind.reductions.map (·.nonterminal) =
        step.history.items.reverse.map (·.rule.nonterminal) ∧
      step.history.unwind.replay =
        some (step.history.items.reverse.map (·.rule.pieces),
          [.symbol step.history.first.rule.nonterminal]) := by
  obtain ⟨choices, path⟩ := mem_histories.mp (Walk.mem_histories_of_next h)
  refine ⟨choices, path, History.nonterminals_unwindFrom .., ?_⟩
  have hrun := History.run_unwindFrom [] [] step.history.first step.history.later
    (path.isChain_items linked)
  rw [List.nil_append, List.append_nil] at hrun
  exact congrArg (Option.map fun done => (done.1, done.2.pieces)) hrun

/-- An empty rule that is awaited in two ways, one of them within another rule. -/
def Trace.emptyRuleSample : Trace :=
  let whole : Trace := ⟨0, ⟨⟨.text "S", [.text "A", .text "Bar", .text "C"]⟩, 1⟩, []⟩
  let inner : Trace := ⟨1, ⟨⟨.text "Bar", [.text "W", .text "Foo", .text "Y"]⟩, 1⟩, [whole]⟩
  let plain : Trace := ⟨2, ⟨⟨.text "S", [.text "Foo"]⟩, 0⟩, []⟩
  ⟨3, ⟨⟨.text "Foo", []⟩, 0⟩, [inner, plain]⟩

theorem Trace.replay_unwind_emptyRuleSample :
    emptyRuleSample.Linked ∧ ∃ step,
      (Walk.tour 0 (Walk.start emptyRuleSample)).walk.next = .ok (some step) ∧
      step.history.unwind.replay = some
        ([[.epsilon], [.symbol (.text "W"), .symbol (.text "Foo"), .symbol (.text "Y")],
            [.symbol (.text "A"), .symbol (.text "Bar"), .symbol (.text "C")]],
          [.symbol (.text "S")]) := by
  have linked : emptyRuleSample.Linked := by
    refine linked_iff.mpr (List.forall_mem_cons.mpr ⟨⟨⟨by decide, rfl, rfl⟩, ?_⟩, ?_⟩)
    · exact linked_iff.mpr (List.forall_mem_singleton.mpr
        ⟨⟨by decide, rfl, rfl⟩, linked_iff.mpr (List.forall_mem_nil _)⟩)
    · exact List.forall_mem_singleton.mpr
        ⟨⟨by decide, rfl, rfl⟩, linked_iff.mpr (List.forall_mem_nil _)⟩
  obtain ⟨-, -, -, hreplay⟩ := linked.replay_unwind (k := 0) rfl
  exact ⟨linked, _, rfl, hreplay⟩

end GrammarConflict
