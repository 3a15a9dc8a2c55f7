import GrammarConflict.Proofs.Example.Replay
import Mathlib.Algebra.Ring.Int.Defs

/-!
# What items contribute

In the example of a history each item puts the symbols before its position in front of what the
items after it contribute, and the symbols behind its position after that; in the middle stands the
whole rule of the conflicting item, or an empty place (`contribution`).  The reduction of an item is
over all that the items from it on contribute, and it begins after as many pieces as the positions
of the items before it add up to.  So the example is known without going through the items one by
one (`unwindFrom_eq`, `unwind_of_valid`).
-/

namespace GrammarConflict

namespace Item

variable {item : Item}

theorem Valid.length_before (valid : item.Valid) : (item.before.length : Int) = item.position := by
  obtain ⟨hnonneg, hle⟩ := valid
  obtain ⟨n, hn⟩ := Int.eq_ofNat_of_zero_le hnonneg
  rw [hn] at hle ⊢
  rw [before, hn, SignedIndex.upTo_natCast (Int.ofNat_le.mp hle), List.length_take,
    Nat.min_eq_left (Int.ofNat_le.mp hle)]

/-- Behind the position of an item at its end there is nothing. -/
theorem after_eq_nil (h : item.atEnd) : item.after = [] := by
  rw [atEnd, decide_eq_true_eq] at h
  apply List.drop_of_length_le
  rw [h, SignedIndex.cut, if_neg (by omega)]
  omega

end Item

namespace History

/-- What items contribute to an example, the last one being the conflicting item. -/
def contribution (outer : List Item) (last : Item) : List Piece :=
  (outer.flatMap Item.before).map .symbol ++ last.rule.pieces ++
    (outer.reverse.flatMap Item.after).map .symbol

theorem contribution_nil (last : Item) : contribution [] last = last.rule.pieces := by
  simp [contribution]

theorem contribution_cons (item : Item) (outer : List Item) (last : Item) :
    contribution (item :: outer) last =
      item.before.map .symbol ++ contribution outer last ++ item.after.map .symbol := by
  simp [contribution]

/-- The reduction of the item at a place, for an input whose first `start` pieces come from before.
-/
def reductionAt (start : Int) (outer : List Item) (last : Item) (j : Nat) : Reduction :=
  ⟨start + ((outer.take j).map Item.position).sum,
    start + ((outer.take j).map Item.position).sum + (contribution (outer.drop j) last).length,
    ((outer ++ [last]).getD j last).rule.nonterminal⟩

/-- The reductions of the items, the last item's first. -/
def reductionsFrom (start : Int) (outer : List Item) (last : Item) : List Reduction :=
  ((List.range (outer.length + 1)).map (reductionAt start outer last)).reverse

theorem reductionsFrom_nil (start : Int) (last : Item) :
    reductionsFrom start [] last =
      [⟨start, start + last.rule.pieces.length, last.rule.nonterminal⟩] := by
  simp [reductionsFrom, reductionAt, contribution_nil]

/-- One more item puts its position before the reductions of the others, and its own one after
them. -/
theorem reductionsFrom_cons (start : Int) (item : Item) (outer : List Item) (last : Item) :
    reductionsFrom start (item :: outer) last =
      reductionsFrom (start + item.position) outer last ++
        [⟨start, start + (contribution (item :: outer) last).length, item.rule.nonterminal⟩] := by
  have hothers : ∀ j, reductionAt start (item :: outer) last (j + 1) =
      reductionAt (start + item.position) outer last j := by
    intro j
    simp only [reductionAt, List.take_succ_cons, List.drop_succ_cons, List.map_cons, List.sum_cons,
      List.cons_append, List.getD_cons_succ, Int.add_assoc]
  have hown : reductionAt start (item :: outer) last 0 =
      ⟨start, start + (contribution (item :: outer) last).length, item.rule.nonterminal⟩ := by
    simp [reductionAt]
  rw [reductionsFrom, List.length_cons, List.range_succ_eq_map, List.map_cons, List.reverse_cons,
    List.map_map, hown, reductionsFrom]
  congr 2
  exact List.map_congr_left fun j _ => hothers j

theorem length_reductionsFrom (start : Int) (outer : List Item) (last : Item) :
    (reductionsFrom start outer last).length = outer.length + 1 := by
  rw [reductionsFrom, List.length_reverse, List.length_map, List.length_range]

/-- The reduction of an item has as many before it as there are items after it. -/
theorem getElem?_reductionsFrom (start : Int) {outer : List Item} {last item : Item} {j : Nat}
    (h : (outer ++ [last])[j]? = some item) :
    (reductionsFrom start outer last)[outer.length - j]? =
      some ⟨start + ((outer.take j).map Item.position).sum,
        start + ((outer.take j).map Item.position).sum + (contribution (outer.drop j) last).length,
        item.rule.nonterminal⟩ := by
  have hj : j < outer.length + 1 := by
    have hlt := (List.getElem?_eq_some_iff.mp h).1
    rwa [List.length_append] at hlt
  have hplace : outer.length + 1 - 1 - (outer.length - j) = j := by omega
  have hitem : (outer ++ [last]).getD j last = item := by
    rw [List.getD_eq_getElem?_getD, h, Option.getD_some]
  rw [reductionsFrom, List.getElem?_reverse (by rw [List.length_map, List.length_range]; omega),
    List.length_map, List.length_range, hplace, List.getElem?_map, List.getElem?_range hj,
    Option.map_some, reductionAt, hitem]

/-! ### The example of valid items -/

theorem unwindFrom_nil (start : Nat) (item : Item) :
    unwindFrom start item [] =
      ⟨(start + item.before.length : Nat), item.rule.pieces,
        [⟨start, (start + item.rule.pieces.length : Nat), item.rule.nonterminal⟩]⟩ := by
  have hpieces := unwindFrom_nil_pieces start item
  simp only [unwindFrom] at hpieces ⊢
  rw [hpieces]

/-- Valid items give the same example wherever it begins, moved to there. -/
theorem unwindFrom_eq (start : Nat) {first last : Item} {later outer : List Item}
    (hitems : first :: later = outer ++ [last]) (valid : ∀ item ∈ outer ++ [last], item.Valid) :
    unwindFrom start first later =
      ⟨start + ((outer ++ [last]).map Item.position).sum, contribution outer last,
        reductionsFrom start outer last⟩ := by
  induction outer generalizing start first later with
  | nil =>
    obtain ⟨rfl, rfl⟩ := List.cons.inj hitems
    have hposition := (valid first List.mem_cons_self).length_before
    rw [unwindFrom_nil, contribution_nil, reductionsFrom_nil]
    simp [hposition]
  | cons item outer ih =>
    obtain ⟨rfl, hlater⟩ : first = item ∧ later = outer ++ [last] := List.cons.inj hitems
    have hposition := (valid first List.mem_cons_self).length_before
    obtain ⟨next, rest, hnext⟩ := List.exists_cons_of_ne_nil
      (List.append_ne_nil_of_right_ne_nil outer (List.cons_ne_nil last []))
    have hinner := ih (start + first.before.length) hnext.symm fun item hitem =>
      valid item (List.mem_cons_of_mem _ hitem)
    have hstart : ((start + first.before.length : Nat) : Int) = start + first.position := by omega
    rw [hstart] at hinner
    rw [hlater, hnext, unwindFrom, hinner, ← contribution_cons, reductionsFrom_cons,
      List.cons_append, List.map_cons, List.sum_cons, Int.add_assoc, Int.natCast_add]

/-! ### The empty place -/

/-- The symbols before the positions of valid items are as many as the positions add up to. -/
theorem length_flatMap_before {items : List Item} (valid : ∀ item ∈ items, item.Valid) :
    ((items.flatMap Item.before).length : Int) = (items.map Item.position).sum := by
  induction items with
  | nil => rfl
  | cons item items ih =>
    obtain ⟨hitem, hitems⟩ := List.forall_mem_cons.mp valid
    have hposition := hitem.length_before
    have hrest := ih hitems
    rw [List.flatMap_cons, List.length_append, List.map_cons, List.sum_cons]
    omega

/-- Only the conflicting item can leave an empty place, and only in the middle. -/
theorem getElem?_contribution_eq_epsilon_iff {outer : List Item} {last : Item} {k : Nat} :
    (contribution outer last)[k]? = some .epsilon ↔
      last.rule.symbols = [] ∧ k = (outer.flatMap Item.before).length := by
  by_cases hempty : last.rule.symbols = []
  · rw [contribution, Rule.pieces, if_pos hempty, List.append_assoc, List.getElem?_append,
      List.length_map]
    split
    · next hlt =>
      simp only [List.getElem?_map, Option.map_eq_some_iff]
      constructor
      · rintro ⟨_, _, ⟨⟩⟩
      · omega
    · next hge =>
      obtain ⟨d, rfl⟩ := Nat.exists_eq_add_of_le (Nat.le_of_not_lt hge)
      rw [Nat.add_sub_cancel_left]
      cases d with
      | zero => simp [hempty]
      | succ d => simp [List.getElem?_map]
  · rw [contribution, Rule.pieces, if_neg hempty]
    constructor
    · intro h
      simpa using List.mem_of_getElem? h
    · rintro ⟨hnil, -⟩
      exact absurd hnil hempty

/-- **The example of a history in closed form.** -/
theorem unwind_of_valid (outer : List Item) (last : Item)
    (valid : ∀ item ∈ outer ++ [last], item.Valid) :
    ∃ h, ofItems (outer ++ [last]) = .ok h ∧
      h.unwind.pieces = (outer.flatMap Item.before).map .symbol ++ last.rule.pieces ++
        (outer.reverse.flatMap Item.after).map .symbol ∧
      (∀ item ∈ outer, item.atEnd → item.after = []) ∧
      h.unwind.cursor = ((outer ++ [last]).map Item.position).sum ∧
      h.unwind.reductions.length = outer.length + 1 ∧
      (∀ j item, (outer ++ [last])[j]? = some item →
        ∃ start : Int, start = ((outer.take j).map Item.position).sum ∧
          h.unwind.reductions[outer.length - j]? = some ⟨start,
            start + (contribution (outer.drop j) last).length, item.rule.nonterminal⟩) ∧
      ∀ k : Nat, h.unwind.pieces[k]? = some .epsilon ↔
        last.rule.symbols = [] ∧ k = h.unwind.cursor := by
  obtain ⟨first, later, hitems⟩ := List.exists_cons_of_ne_nil
    (List.append_ne_nil_of_right_ne_nil outer (List.cons_ne_nil last []))
  have hunwind := unwindFrom_eq 0 hitems.symm valid
  refine ⟨⟨first, later⟩, by rw [hitems]; rfl, ?_⟩
  rw [unwind, hunwind]
  refine ⟨rfl, fun item _ => item.after_eq_nil, Int.zero_add _, length_reductionsFrom .., ?_, ?_⟩
  · intro j item hj
    refine ⟨_, rfl, ?_⟩
    rw [getElem?_reductionsFrom _ hj, Int.natCast_zero, Int.zero_add]
  · intro k
    rw [getElem?_contribution_eq_epsilon_iff]
    refine and_congr_right fun hempty => ?_
    -- Nothing stands before the position in an empty rule, so the cursor is where the positions of
    -- the other items lead to.
    have hcursor := length_flatMap_before valid
    have hlast : last.before = [] := by rw [Item.before, hempty, SignedIndex.upTo, List.take_nil]
    rw [List.flatMap_append, List.flatMap_singleton, hlast, List.append_nil] at hcursor
    show k = _ ↔ (k : Int) = (0 : Nat) + ((outer ++ [last]).map Item.position).sum
    rw [← hcursor]
    omega

/-- An item at its end, one in the middle of its rule. -/
def outerSample : List Item :=
  [⟨⟨.text "T", [.text "B", .text "S"]⟩, 2⟩, ⟨⟨.text "S", [.text "A", .text "Foo", .text "C"]⟩, 1⟩]

/-- The empty rule leaves its place after the three symbols that are before the other positions. -/
theorem unwind_of_valid_emptyRuleSample :
    let empty : Item := ⟨⟨.text "Foo", []⟩, 0⟩
    (∀ item ∈ outerSample ++ [empty], item.Valid) ∧
    ∃ h, ofItems (outerSample ++ [empty]) = .ok h ∧ h.unwind.cursor = 3 ∧
      h.unwind.pieces = [.symbol (.text "B"), .symbol (.text "S"), .symbol (.text "A"), .epsilon,
        .symbol (.text "C")] ∧
      h.unwind.reductions.length = 3 ∧
      h.unwind.reductions[1]? = some ⟨2, 5, .text "S"⟩ := by
  intro empty
  have valid : ∀ item ∈ outerSample ++ [empty], item.Valid := by decide
  obtain ⟨h, hitems, hpieces, -, hcursor, hlength, hreductions, -⟩ :=
    unwind_of_valid outerSample empty valid
  obtain ⟨start, rfl, hreduction⟩ := hreductions 1 _ rfl
  exact ⟨valid, h, hitems, hcursor, hpieces, hlength, hreduction⟩

end History

end GrammarConflict
