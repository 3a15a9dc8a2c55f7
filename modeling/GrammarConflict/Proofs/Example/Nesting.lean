import GrammarConflict.Proofs.Example.Replay
import GrammarConflict.Proofs.Layout.Columns

/-!
# Reductions are nested

In the example of a history each reduction is over one or more pieces, and it lies inside every
later one.  This holds of all items, those too whose position is not one of their rule: an item
contributes what it contributes, and the reduction of the item before it is over that and more.
-/

namespace GrammarConflict

/-- The pieces of the first reduction are among those of the second. -/
def Reduction.Inside (inner outer : Reduction) : Prop :=
  outer.start ≤ inner.start ∧ inner.stop ≤ outer.stop

namespace History

theorem pieces_unwindFrom_ne_nil (start : Nat) (item : Item) (later : List Item) :
    (unwindFrom start item later).pieces ≠ [] := by
  induction later generalizing start item with
  | nil =>
    rw [unwindFrom_nil_pieces, Rule.pieces]
    split
    · exact List.cons_ne_nil _ _
    · next hne => simpa using hne
  | cons next later ih =>
    rw [unwindFrom]
    exact List.append_ne_nil_of_left_ne_nil
      (List.append_ne_nil_of_right_ne_nil _ (ih _ next)) _

/-- What the items from one on contribute begins at `start`, and their reductions are over it. -/
theorem bounds_unwindFrom (start : Nat) (item : Item) (later : List Item) :
    ∀ r ∈ (unwindFrom start item later).reductions, start ≤ r.start ∧ r.start < r.stop ∧
      r.stop ≤ (start + (unwindFrom start item later).pieces.length : Nat) := by
  have hpos := List.length_pos_of_ne_nil (pieces_unwindFrom_ne_nil start item later)
  induction later generalizing start item with
  | nil =>
    intro r hr
    obtain rfl := List.mem_singleton.mp hr
    refine ⟨Int.le_refl _, ?_, Int.le_refl _⟩
    show (start : Int) < (start + (unwindFrom start item []).pieces.length : Nat)
    omega
  -- The pieces of the later items stand between the two sides of the item; its own reduction is
  -- over all of them, and it is the last.
  | cons next later ih =>
    intro r hr
    have hinner := List.length_pos_of_ne_nil
      (pieces_unwindFrom_ne_nil (start + item.before.length) next later)
    have hlength : (unwindFrom start item (next :: later)).pieces.length = item.before.length +
        (unwindFrom (start + item.before.length) next later).pieces.length + item.after.length := by
      simp only [unwindFrom, List.length_append, List.length_map]
    rw [unwindFrom] at hr
    rcases List.mem_append.mp hr with hr | hr
    · have hbounds := ih _ next hinner r hr
      omega
    · obtain rfl := List.mem_singleton.mp hr
      refine ⟨Int.le_refl _, ?_, Int.le_refl _⟩
      show (start : Int) < (start + (unwindFrom start item (next :: later)).pieces.length : Nat)
      omega

/-- Each reduction lies inside every later one. -/
theorem pairwise_inside_unwindFrom (start : Nat) (item : Item) (later : List Item) :
    (unwindFrom start item later).reductions.Pairwise Reduction.Inside := by
  induction later generalizing start item with
  | nil => exact List.pairwise_singleton ..
  | cons next later ih =>
    rw [unwindFrom, List.pairwise_append]
    refine ⟨ih _ next, List.pairwise_singleton .., ?_⟩
    intro inner hinner outer houter
    obtain rfl := List.mem_singleton.mp houter
    have hbounds := bounds_unwindFrom _ next later inner hinner
    simp only [Reduction.Inside, List.length_append, List.length_map]
    omega

/-- Every reduction of an example is over pieces that there are. -/
theorem within_unwind (h : History) :
    ∀ r ∈ h.unwind.reductions, r.Within h.unwind.pieces.length := by
  intro r hr
  obtain ⟨hstart, hspan, hstop⟩ := bounds_unwindFrom 0 h.first h.later r hr
  exact ⟨hstart, hspan, by rwa [Nat.zero_add] at hstop⟩

theorem length_reductions_unwind (h : History) : h.unwind.reductions.length = h.items.length := by
  have hlength := congrArg List.length (nonterminals_unwindFrom 0 h.first h.later)
  rwa [List.length_map, List.length_map, List.length_reverse] at hlength

end History

end GrammarConflict
