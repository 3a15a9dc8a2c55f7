import GrammarConflict.Trace
import Mathlib.Logic.Relation

/-!
# What a trace leads to

One step leads from a trace to one of its parents.  `Trace.Reaches` is any number of steps, and
`Trace.Ancestor` at least one.
-/

namespace GrammarConflict.Trace

/-- The second trace is listed as a parent of the first. -/
def HasParent (t p : Trace) : Prop :=
  p ∈ t.parents

/-- Following parents leads from the first trace to the second. -/
abbrev Reaches : Trace → Trace → Prop :=
  Relation.ReflTransGen HasParent

/-- Following parents, at least one, leads from the first trace to the second. -/
abbrev Ancestor : Trace → Trace → Prop :=
  Relation.TransGen HasParent

theorem hasParent_of_getElem? {t p : Trace} {i : Nat} (h : t.parents[i]? = some p) :
    t.HasParent p :=
  List.mem_of_getElem? h

/-- A parent is smaller. -/
theorem sizeOf_lt_of_hasParent {t p : Trace} (h : t.HasParent p) : sizeOf p < sizeOf t := by
  obtain ⟨tag, item, parents⟩ := t
  have hlt : sizeOf p < sizeOf parents := List.sizeOf_lt_of_mem h
  simp only [Trace.mk.sizeOf_spec]
  omega

/-- No trace is its own ancestor: parents are smaller. -/
theorem not_ancestor_self (t : Trace) : ¬ t.Ancestor t := by
  have sizeOf_lt {s p : Trace} (h : s.Ancestor p) : sizeOf p < sizeOf s := by
    induction h with
    | single hp => exact sizeOf_lt_of_hasParent hp
    | tail _ hp ih => exact Nat.lt_trans (sizeOf_lt_of_hasParent hp) ih
  intro h
  exact Nat.lt_irrefl _ (sizeOf_lt h)

/-- A property of all the traces that are reached, one level at a time. -/
theorem forall_reaches_iff {P : Trace → Prop} {t : Trace} :
    (∀ s, t.Reaches s → P s) ↔ P t ∧ ∀ p ∈ t.parents, ∀ s, p.Reaches s → P s := by
  constructor
  · intro h
    exact ⟨h t .refl, fun p hp s hs => h s (.head hp hs)⟩
  · rintro ⟨ht, hparents⟩ s hs
    rcases hs.cases_head with rfl | ⟨p, hp, hs⟩
    · exact ht
    · exact hparents p hp s hs

end GrammarConflict.Trace
