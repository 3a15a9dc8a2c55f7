import GrammarConflict.Proofs.Trace.Reach
import Mathlib.Data.List.Nodup
import Mathlib.Data.Set.Function

/-!
# The list of the traces that are reached

`Trace.nodes` is the list that a depth-first walk leaves behind.  What visiting adds to the traces
seen before is said by `Visits`: traces that are reached, each tag once, and with every trace the
tags of its parents.

When tags tell the traces apart (`Tagged`), tags may be read as traces, and the list holds just the
traces that are reached (`mem_nodes_iff`).  The place of a trace in it is its number: numbering is a
bijection between the traces that are reached and the numbers below the length of the list
(`bijOn_numberIn_nodes`).
-/

namespace GrammarConflict.Trace

/-- No two traces that are reached bear the same tag. -/
def Tagged (t : Trace) : Prop :=
  ∀ s s', t.Reaches s → t.Reaches s' → s.tag = s'.tag → s = s'

theorem visit_eq (t : Trace) (seen : List Trace) :
    t.visit seen =
      if seen.any (·.tag == t.tag) then seen else visitAll t.parents (seen ++ [t]) := by
  obtain ⟨tag, item, parents⟩ := t
  rw [visit]

theorem any_tag_eq_iff {seen : List Trace} {k : Nat} :
    seen.any (·.tag == k) = true ↔ k ∈ seen.map tag := by
  rw [List.any_eq_true, List.mem_map]
  simp only [beq_iff_eq]

/-! ### What a visit adds -/

/-- What visiting traces adds to those seen before. -/
structure Visits (ts seen added : List Trace) : Prop where
  reached : ∀ s ∈ added, ∃ t ∈ ts, t.Reaches s
  nodup : (seen.map tag).Nodup → ((seen ++ added).map tag).Nodup
  covered : ∀ t ∈ ts, t.tag ∈ (seen ++ added).map tag
  closed : ∀ s ∈ added, ∀ p ∈ s.parents, p.tag ∈ (seen ++ added).map tag

namespace Visits

variable {t : Trace} {ts seen added added' : List Trace}

/-- A trace whose tag has been seen adds nothing. -/
theorem of_seen (h : t.tag ∈ seen.map tag) : Visits [t] seen [] where
  reached := nofun
  nodup := by rw [List.append_nil]; exact id
  covered := by rw [List.append_nil]; exact List.forall_mem_singleton.mpr h
  closed := nofun

/-- A new trace adds itself and what visiting its parents adds. -/
theorem of_new (h : t.tag ∉ seen.map tag) (parents : Visits t.parents (seen ++ [t]) added) :
    Visits [t] seen (t :: added) := by
  have happend : seen ++ t :: added = seen ++ [t] ++ added := by simp
  refine ⟨fun s hs => ⟨t, List.mem_singleton_self t, ?_⟩, fun hnodup => ?_, ?_, fun s hs => ?_⟩
  · obtain rfl | hs := List.mem_cons.mp hs
    · exact .refl
    · obtain ⟨p, hp, hreach⟩ := parents.reached s hs
      exact .head hp hreach
  · rw [happend]
    refine parents.nodup ?_
    rw [List.map_append, List.map_singleton, List.nodup_append]
    refine ⟨hnodup, List.nodup_singleton _, fun k hk j hj heq => ?_⟩
    obtain rfl := List.mem_singleton.mp hj
    exact h (heq ▸ hk)
  · rw [List.forall_mem_singleton, List.map_append]
    exact List.mem_append_right _ (List.mem_cons_self ..)
  · rw [happend]
    obtain rfl | hs := List.mem_cons.mp hs
    · exact parents.covered
    · exact parents.closed s hs

/-- Visiting one trace and then others. -/
theorem cons (first : Visits [t] seen added) (rest : Visits ts (seen ++ added) added') :
    Visits (t :: ts) seen (added ++ added') := by
  have happend : seen ++ (added ++ added') = seen ++ added ++ added' := by simp
  have hsubset : (seen ++ added).map tag ⊆ (seen ++ added ++ added').map tag :=
    List.map_subset tag (List.subset_append_left ..)
  refine ⟨fun s hs => ?_, fun hnodup => ?_, ?_, fun s hs => ?_⟩
  · obtain hs | hs := List.mem_append.mp hs
    · obtain ⟨_, hmem, hreach⟩ := first.reached s hs
      exact ⟨t, List.mem_cons_self .., List.mem_singleton.mp hmem ▸ hreach⟩
    · obtain ⟨u, hu, hreach⟩ := rest.reached s hs
      exact ⟨u, List.mem_cons_of_mem _ hu, hreach⟩
  · rw [happend]
    exact rest.nodup (first.nodup hnodup)
  · rw [happend]
    exact List.forall_mem_cons.mpr
      ⟨hsubset (first.covered t (List.mem_singleton_self t)), rest.covered⟩
  · rw [happend]
    obtain hs | hs := List.mem_append.mp hs
    · exact fun p hp => hsubset (first.closed s hs p hp)
    · exact rest.closed s hs

end Visits

mutual

theorem exists_visits : (t : Trace) → (seen : List Trace) →
    ∃ added, t.visit seen = seen ++ added ∧ Visits [t] seen added
  | ⟨tag, item, parents⟩, seen => by
    rw [visit]
    split
    · next h => exact ⟨[], (List.append_nil _).symm, .of_seen (any_tag_eq_iff.mp h)⟩
    · next h =>
      obtain ⟨added, heq, visits⟩ := exists_visits_all parents (seen ++ [⟨tag, item, parents⟩])
      refine ⟨⟨tag, item, parents⟩ :: added, ?_, .of_new (mt any_tag_eq_iff.mpr h) visits⟩
      rw [heq, List.append_assoc, List.singleton_append]

theorem exists_visits_all : (ts : List Trace) → (seen : List Trace) →
    ∃ added, visitAll ts seen = seen ++ added ∧ Visits ts seen added
  | [], seen => ⟨[], by rw [visitAll, List.append_nil], nofun,
      by rw [List.append_nil]; exact id, nofun, nofun⟩
  | t :: rest, seen => by
    obtain ⟨added, heq, first⟩ := exists_visits t seen
    obtain ⟨added', heq', visits⟩ := exists_visits_all rest (seen ++ added)
    exact ⟨added ++ added', by rw [visitAll, heq, heq', List.append_assoc], first.cons visits⟩

end

/-! ### The whole list -/

theorem visits_nodes (t : Trace) : Visits [t] [] t.nodes := by
  obtain ⟨added, heq, visits⟩ := exists_visits t []
  rw [List.nil_append] at heq
  rwa [nodes, heq]

theorem reaches_of_mem_nodes {t s : Trace} (h : s ∈ t.nodes) : t.Reaches s := by
  obtain ⟨_, hmem, hreach⟩ := t.visits_nodes.reached s h
  rwa [List.mem_singleton.mp hmem] at hreach

/-- No tag is listed twice. -/
theorem nodup_map_tag_nodes (t : Trace) : (t.nodes.map tag).Nodup :=
  t.visits_nodes.nodup List.nodup_nil

/-- **The list holds the traces that are reached**, and nothing else. -/
theorem Tagged.mem_nodes_iff {t : Trace} (tagged : t.Tagged) {s : Trace} :
    s ∈ t.nodes ↔ t.Reaches s := by
  have mem_of_tag {s : Trace} (hs : t.Reaches s) (h : s.tag ∈ t.nodes.map tag) : s ∈ t.nodes := by
    obtain ⟨s', hmem, htag⟩ := List.mem_map.mp h
    rwa [tagged s s' hs (reaches_of_mem_nodes hmem) htag.symm]
  refine ⟨reaches_of_mem_nodes, fun hs => ?_⟩
  -- The list holds the root, and with a trace its parents.
  induction hs with
  | refl => exact mem_of_tag .refl (t.visits_nodes.covered t (List.mem_singleton_self t))
  | tail hreach hstep ih =>
    exact mem_of_tag (hreach.tail hstep) (t.visits_nodes.closed _ ih _ hstep)

/-! ### Numbers -/

theorem numberIn_eq_idxOf (order : List Trace) (s : Trace) :
    numberIn order s = (order.map tag).idxOf s.tag := by
  unfold numberIn List.idxOf
  rw [List.findIdx_map]
  rfl

/-- A trace is found at its number. -/
theorem Tagged.getElem?_numberIn {t : Trace} (tagged : t.Tagged) {s : Trace} (hs : t.Reaches s) :
    t.nodes[numberIn t.nodes s]? = some s := by
  have hmem : s.tag ∈ t.nodes.map tag := List.mem_map_of_mem (tagged.mem_nodes_iff.mpr hs)
  have hget := List.getElem?_idxOf hmem
  rw [← numberIn_eq_idxOf, List.getElem?_map, Option.map_eq_some_iff] at hget
  obtain ⟨s', hget, htag⟩ := hget
  rw [hget, tagged s' s (reaches_of_mem_nodes (List.mem_of_getElem? hget)) hs htag]

/-- The trace at a number has that number. -/
theorem numberIn_nodes_of_getElem? {t s : Trace} {i : Nat} (h : t.nodes[i]? = some s) :
    numberIn t.nodes s = i := by
  have hget : (t.nodes.map tag)[i]? = some s.tag := by rw [List.getElem?_map, h, Option.map_some]
  obtain ⟨hlt, htag⟩ := List.getElem?_eq_some_iff.mp hget
  rw [numberIn_eq_idxOf, ← htag, t.nodup_map_tag_nodes.idxOf_getElem]

/-- **Numbering** the traces that are reached is a bijection with the numbers of the list. -/
theorem Tagged.bijOn_numberIn_nodes {t : Trace} (tagged : t.Tagged) :
    Set.BijOn (numberIn t.nodes) {s | t.Reaches s} {i | i < t.nodes.length} := by
  refine ⟨fun s hs => ?_, fun s hs s' hs' heq => ?_, fun i hi => ?_⟩
  · exact (List.getElem?_eq_some_iff.mp (tagged.getElem?_numberIn hs)).1
  · have h := tagged.getElem?_numberIn hs
    rw [heq, tagged.getElem?_numberIn hs'] at h
    exact (Option.some.inj h).symm
  · have h : t.nodes[i]? = some t.nodes[i] := List.getElem?_eq_getElem hi
    exact ⟨t.nodes[i], reaches_of_mem_nodes (List.getElem_mem hi), numberIn_nodes_of_getElem? h⟩

end GrammarConflict.Trace
