import GrammarConflict.Proofs.FirstOccurrence
import GrammarConflict.Proofs.Trace.Nodes

/-!
# The preorder of first visits

Unfolded into a tree, a trace has a preorder (`Trace.preorder`): the trace itself, and then the
preorder of one parent after another.  A trace that is shared stands in it once for each way that
leads there.  The walk that lists the traces that are reached does not unfold anything, for it stops
at what it has seen; yet its list is the preorder with each trace left where it occurs first
(`Tagged.map_tag_nodes`).

What makes this true is that a trace met again is one whose visit is over, as no trace is its own
ancestor: all that it reaches has been seen, so nothing is missed by turning back (`Settled`).
-/

namespace GrammarConflict.Trace

/-! ### The unfolded trace -/

mutual

/-- The traces of the unfolded trace, each before its parents, one parent with all that it leads to
before the next. -/
def preorder : Trace → List Trace
  | ⟨tag, item, parents⟩ => ⟨tag, item, parents⟩ :: preorderOver parents

/-- The preorders of several traces, one after another. -/
def preorderOver : List Trace → List Trace
  | [] => []
  | t :: rest => t.preorder ++ preorderOver rest

end

theorem preorder_eq (t : Trace) : t.preorder = t :: preorderOver t.parents := by
  obtain ⟨tag, item, parents⟩ := t
  rw [preorder]

mutual

/-- The preorder has what is reached. -/
theorem mem_preorder_iff : (t : Trace) → {s : Trace} → s ∈ t.preorder ↔ t.Reaches s
  | ⟨tag, item, parents⟩, s => by
    rw [preorder, List.mem_cons, mem_preorderOver_iff parents]
    constructor
    · rintro (rfl | ⟨p, hp, hs⟩)
      · exact .refl
      · exact .head hp hs
    · intro hs
      obtain rfl | ⟨p, hp, hs⟩ := hs.cases_head
      · exact .inl rfl
      · exact .inr ⟨p, hp, hs⟩

theorem mem_preorderOver_iff : (ts : List Trace) → {s : Trace} →
    s ∈ preorderOver ts ↔ ∃ t ∈ ts, t.Reaches s
  | [], s => by simp [preorderOver]
  | t :: rest, s => by
    rw [preorderOver, List.mem_append, mem_preorder_iff t, mem_preorderOver_iff rest,
      List.exists_mem_cons_iff]

end

/-- The place where the unfolded trace first has a trace. -/
def firstVisit (t s : Trace) : Nat :=
  (t.preorder.map tag).idxOf s.tag

/-! ### Visits -/

/-- The trace reaches nothing that has been seen but what had its visit: all that this reaches has
been seen. -/
def Settled (s : Trace) (seen : List Trace) : Prop :=
  ∀ x ∈ seen, s.Reaches x → ∀ y, x.Reaches y → y.tag ∈ seen.map tag

/-- A trace is not reached by its parents, so it may be seen before them. -/
theorem Settled.parent {s p : Trace} {seen : List Trace} (settled : s.Settled seen)
    (hp : s.HasParent p) : p.Settled (seen ++ [s]) := by
  intro x hx hreach y hy
  rw [List.map_append]
  obtain hx | hx := List.mem_append.mp hx
  · exact List.mem_append_left _ (settled x hx (.head hp hreach) y hy)
  · obtain rfl := List.mem_singleton.mp hx
    exact absurd (Relation.TransGen.head' hp hreach) (not_ancestor_self x)

/-- A visit adds what is reached. -/
theorem mem_or_reaches_of_mem_visit {s x : Trace} {seen : List Trace} (h : x ∈ s.visit seen) :
    x ∈ seen ∨ s.Reaches x := by
  obtain ⟨added, heq, visits⟩ := exists_visits s seen
  rw [heq, List.mem_append] at h
  refine h.imp_right fun hx => ?_
  obtain ⟨_, hmem, hreach⟩ := visits.reached x hx
  rwa [List.mem_singleton.mp hmem] at hreach

/-- What is settled stays so when a trace is visited and all that this reaches is seen. -/
theorem Settled.visit {s r : Trace} {seen : List Trace} (settled : r.Settled seen)
    (h : ∀ y, s.Reaches y → y.tag ∈ (s.visit seen).map tag) : r.Settled (s.visit seen) := by
  intro x hx hreach y hy
  obtain hx | hx := mem_or_reaches_of_mem_visit hx
  · obtain ⟨added, heq, -⟩ := exists_visits s seen
    rw [heq, List.map_append]
    exact List.mem_append_left _ (settled x hx hreach y hy)
  · exact h y (hx.trans hy)

mutual

/-- **A visit** adds the first occurrences of what has not been seen. -/
theorem map_tag_visit {t : Trace} (tagged : t.Tagged) :
    (s : Trace) → (seen : List Trace) → t.Reaches s → (∀ x ∈ seen, t.Reaches x) →
      (seen.map tag).Nodup → s.Settled seen →
      (s.visit seen).map tag = (seen.map tag ++ s.preorder.map tag).eraseDups
  | ⟨k, item, parents⟩, seen, hs, hseen, hnodup, settled => by
    rw [visit]
    split
    · next h =>
      -- What bears the tag is the trace itself, and had its visit.
      obtain ⟨x, hx, htag⟩ := List.mem_map.mp (any_tag_eq_iff.mp h)
      obtain rfl := tagged x ⟨k, item, parents⟩ (hseen x hx) hs htag
      rw [eraseDups_append_of_subset, eraseDups_eq_self hnodup]
      intro j hj
      obtain ⟨y, hy, rfl⟩ := List.mem_map.mp hj
      exact settled _ hx .refl y ((mem_preorder_iff _).mp hy)
    · next h =>
      have hnodup' : (seen.map tag ++ [k]).Nodup :=
        List.concat_eq_append ▸ hnodup.concat (mt any_tag_eq_iff.mpr h)
      rw [map_tag_visitAll tagged parents _ (fun p hp => hs.tail hp) ?_ ?_
        fun p hp => settled.parent hp, preorder, List.map_append, List.map_singleton,
        List.append_assoc, List.singleton_append, List.map_cons]
      · exact List.forall_mem_append.mpr ⟨hseen, List.forall_mem_singleton.mpr hs⟩
      · rwa [List.map_append, List.map_singleton]

theorem map_tag_visitAll {t : Trace} (tagged : t.Tagged) :
    (ss : List Trace) → (seen : List Trace) → (∀ s ∈ ss, t.Reaches s) →
      (∀ x ∈ seen, t.Reaches x) → (seen.map tag).Nodup → (∀ s ∈ ss, s.Settled seen) →
      (visitAll ss seen).map tag = (seen.map tag ++ (preorderOver ss).map tag).eraseDups
  | [], seen, _, _, hnodup, _ => by
    rw [visitAll, preorderOver, List.map_nil, List.append_nil, eraseDups_eq_self hnodup]
  | s :: rest, seen, hss, hseen, hnodup, settled => by
    obtain ⟨hs, hrest⟩ := List.forall_mem_cons.mp hss
    obtain ⟨hsettled, hsettled'⟩ := List.forall_mem_cons.mp settled
    have hvisit := map_tag_visit tagged s seen hs hseen hnodup hsettled
    have hnodup' : ((s.visit seen).map tag).Nodup := hvisit ▸ nodup_eraseDups _
    have hmem (y : Trace) (hy : s.Reaches y) : y.tag ∈ (s.visit seen).map tag := by
      rw [hvisit, List.mem_eraseDups]
      exact List.mem_append_right _ (List.mem_map_of_mem (s.mem_preorder_iff.mpr hy))
    have hseen' (x : Trace) (hx : x ∈ s.visit seen) : t.Reaches x :=
      (mem_or_reaches_of_mem_visit hx).elim (hseen x) hs.trans
    rw [visitAll, map_tag_visitAll tagged rest _ hrest hseen' hnodup'
      fun r hr => (hsettled' r hr).visit hmem, hvisit, eraseDups_eraseDups_append, preorderOver,
      List.map_append, List.append_assoc]

end

/-- **The list of the traces that are reached** is the preorder without what occurs again. -/
theorem Tagged.map_tag_nodes {t : Trace} (tagged : t.Tagged) :
    t.nodes.map tag = (t.preorder.map tag).eraseDups :=
  map_tag_visit tagged t [] .refl (List.forall_mem_nil _) List.nodup_nil
    (List.forall_mem_nil _)

/-- The root is number 0. -/
theorem Tagged.numberIn_nodes_self {t : Trace} (tagged : t.Tagged) : numberIn t.nodes t = 0 := by
  rw [numberIn_eq_idxOf, tagged.map_tag_nodes, preorder_eq, List.map_cons, List.eraseDups_cons,
    List.idxOf_cons_self]

/-- **Numbers are in the order of a first visit.** -/
theorem Tagged.numberIn_nodes_lt_iff {t s s' : Trace} (tagged : t.Tagged) (hs : t.Reaches s)
    (hs' : t.Reaches s') :
    numberIn t.nodes s < numberIn t.nodes s' ↔ t.firstVisit s < t.firstVisit s' := by
  have hmem {r : Trace} (hr : t.Reaches r) : r.tag ∈ t.preorder.map tag :=
    List.mem_map_of_mem (t.mem_preorder_iff.mpr hr)
  rw [numberIn_eq_idxOf, numberIn_eq_idxOf, tagged.map_tag_nodes,
    idxOf_eraseDups_lt_iff (hmem hs) (hmem hs')]
  rfl

/-- Before a trace is first visited, only those listed before it are. -/
theorem Tagged.exists_preorder_eq {t s : Trace} (tagged : t.Tagged) {before after : List Trace}
    (h : t.nodes = before ++ s :: after) :
    ∃ visits rest, t.preorder = visits ++ s :: rest ∧ ∀ x ∈ visits, x ∈ before := by
  have hs : t.Reaches s := reaches_of_mem_nodes (by simp [h])
  obtain ⟨visits, rest, heq, hnot⟩ := List.eq_append_cons_of_mem (t.mem_preorder_iff.mpr hs)
  refine ⟨visits, rest, heq, fun x hx => ?_⟩
  have hreach {y : Trace} (hy : y ∈ visits) : t.Reaches y :=
    t.mem_preorder_iff.mp (heq ▸ List.mem_append_left _ hy)
  have hnot' : s.tag ∉ visits.map tag := by
    intro hmem
    obtain ⟨y, hy, htag⟩ := List.mem_map.mp hmem
    exact hnot (tagged y s (hreach hy) hs htag ▸ hy)
  have hlt : t.firstVisit x < t.firstVisit s := by
    rw [firstVisit, firstVisit, heq, List.map_append,
      List.idxOf_append_of_mem (List.mem_map_of_mem hx), List.idxOf_append_of_notMem hnot']
    exact Nat.lt_add_right _ (List.idxOf_lt_length_of_mem (List.mem_map_of_mem hx))
  -- The number of the trace is the length of what is listed before it.
  have hnumber : numberIn t.nodes s = before.length := numberIn_nodes_of_getElem? (by simp [h])
  rw [← tagged.numberIn_nodes_lt_iff (hreach hx) hs, hnumber] at hlt
  have hget := tagged.getElem?_numberIn (hreach hx)
  nth_rewrite 1 [h] at hget
  rw [List.getElem?_append_left hlt] at hget
  exact List.mem_of_getElem? hget

end GrammarConflict.Trace
