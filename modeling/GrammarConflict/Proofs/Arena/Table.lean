import GrammarConflict.Proofs.Trace.Reach
import GrammarConflict.Trace.Build

/-!
# The table of a build

While an arena is built, a table holds the traces made so far with the nodes they stand for.  The
invariant is `Sound`: each entry was made after the entries of its parents and consists of the item
of the node and of their traces, and its tag is the number of entries before it.

How an entry was made (`Sound.exists_made`) tells all that is needed of a finished table: an entry
looks like its node (`Sound.item_eq`, `Sound.map_lookup_parents`), tags tell nodes apart
(`Sound.eq_of_tag_eq`), and parents have smaller tags (`Sound.tag_lt`), so that no node in the table
is its own ancestor (`Sound.not_ancestor_self`).
-/

namespace GrammarConflict.Arena

/-- The second node is listed as a parent of the first. -/
def HasParent (arena : Arena) (i p : Fin arena.size) : Prop :=
  p ∈ (arena.node i).parents

/-- Following parents leads from the first node to the second. -/
abbrev Reaches (arena : Arena) : Fin arena.size → Fin arena.size → Prop :=
  Relation.ReflTransGen arena.HasParent

/-- Following parents, at least one, leads from the first node to the second. -/
abbrev Ancestor (arena : Arena) : Fin arena.size → Fin arena.size → Prop :=
  Relation.TransGen arena.HasParent

/-- Every entry is the trace of its node, made from the traces of the parents. -/
inductive Sound (arena : Arena) : Built arena.size → Prop
  | nil : Sound arena []
  | cons {i : Fin arena.size} {built : Built arena.size} {parents : List Trace}
      (sound : Sound arena built) (fresh : built.lookup i = none)
      (made : (arena.node i).parents.map (List.lookup · built) = parents.map some) :
      Sound arena ((i, ⟨built.length, (arena.node i).item, parents⟩) :: built)

/-- What the second table has, it has in common with the first where that has anything. -/
def Extends {size : Nat} (built built' : Built size) : Prop :=
  ∀ i t, built.lookup i = some t → built'.lookup i = some t

section

variable {size : Nat} {built built' : Built size} {i j : Fin size} {t : Trace}

theorem lookup_cons_of_ne (h : j ≠ i) : List.lookup j ((i, t) :: built) = built.lookup j := by
  rw [List.lookup_cons, beq_false_of_ne h]

/-- What is found in a table with one more entry: that entry, or what was found before. -/
theorem lookup_cons_eq_some_iff {s : Trace} :
    List.lookup j ((i, t) :: built) = some s ↔
      (j = i ∧ t = s) ∨ (j ≠ i ∧ built.lookup j = some s) := by
  by_cases hji : j = i
  · subst hji
    simp
  · rw [lookup_cons_of_ne hji]
    simp [hji]

theorem extends_cons (fresh : built.lookup i = none) : Extends built ((i, t) :: built) := by
  intro j s hj
  have hne : j ≠ i := by
    rintro rfl
    rw [fresh] at hj
    cases hj
  rw [lookup_cons_of_ne hne, hj]

section

variable {indices : List (Fin size)} {ts : List Trace}

/-- Each of the nodes found has one of the traces. -/
theorem exists_mem_of_map_lookup (found : indices.map (List.lookup · built) = ts.map some)
    (hi : i ∈ indices) : ∃ s ∈ ts, built.lookup i = some s := by
  have hmem : built.lookup i ∈ ts.map some := by
    rw [← found]
    exact List.mem_map_of_mem hi
  obtain ⟨s, hs, heq⟩ := List.mem_map.mp hmem
  exact ⟨s, hs, heq.symm⟩

/-- Each of the traces is found at one of the nodes. -/
theorem exists_lookup_of_map_lookup (found : indices.map (List.lookup · built) = ts.map some)
    (ht : t ∈ ts) : ∃ i ∈ indices, built.lookup i = some t := by
  have hmem : some t ∈ indices.map (List.lookup · built) := by
    rw [found]
    exact List.mem_map_of_mem ht
  exact List.mem_map.mp hmem

/-- Nodes that are found in a table are found in a larger one. -/
theorem Extends.map_lookup (h : Extends built built')
    (found : indices.map (List.lookup · built) = ts.map some) :
    indices.map (List.lookup · built') = ts.map some := by
  rw [← found]
  refine List.map_congr_left fun i hi => ?_
  obtain ⟨t, -, ht⟩ := exists_mem_of_map_lookup found hi
  rw [ht, h i t ht]

end

end

/-- The entry of a node, and the table as it was when the entry was made. -/
structure Made (arena : Arena) (built : Built arena.size) (i : Fin arena.size) (t : Trace)
    (earlier : Built arena.size) : Prop where
  sound : Sound arena earlier
  larger : Extends earlier built
  shorter : earlier.length < built.length
  tag_eq : t.tag = earlier.length
  item_eq : t.item = (arena.node i).item
  map_lookup_parents : (arena.node i).parents.map (List.lookup · earlier) = t.parents.map some

/-- The trace made of the node of a number, and `t` for a number without one. -/
def traceAt {size : Nat} (built : Built size) (t : Trace) (i : Nat) : Trace :=
  if hi : i < size then (built.lookup ⟨i, hi⟩).getD t else t

theorem traceAt_val {size : Nat} (built : Built size) (t : Trace) (i : Fin size) :
    traceAt built t i = (built.lookup i).getD t :=
  dif_pos i.isLt

theorem traceAt_of_lookup_eq {size : Nat} {built : Built size} {i : Fin size} {s : Trace}
    (h : built.lookup i = some s) (t : Trace) : traceAt built t i = s := by
  rw [traceAt_val, h, Option.getD_some]

namespace Sound

variable {arena : Arena} {built : Built arena.size} {i j : Fin arena.size} {s t : Trace}

/-- **How an entry was made**: from a smaller table, with its length for a tag. -/
theorem exists_made (sound : Sound arena built) (h : built.lookup i = some t) :
    ∃ earlier, Made arena built i t earlier := by
  induction sound with
  | nil => cases h
  | cons sound fresh made ih =>
    obtain ⟨rfl, rfl⟩ | ⟨-, h⟩ := lookup_cons_eq_some_iff.mp h
    · exact ⟨_, sound, extends_cons fresh, Nat.lt_succ_self _, rfl, rfl, made⟩
    · obtain ⟨earlier, made⟩ := ih h
      exact ⟨earlier, { made with
        larger := fun j s hj => extends_cons fresh j s (made.larger j s hj)
        shorter := Nat.lt_succ_of_lt made.shorter }⟩

theorem tag_lt_length (sound : Sound arena built) (h : built.lookup i = some t) :
    t.tag < built.length := by
  obtain ⟨earlier, made⟩ := sound.exists_made h
  rw [made.tag_eq]
  exact made.shorter

theorem item_eq (sound : Sound arena built) (h : built.lookup i = some t) :
    t.item = (arena.node i).item := by
  obtain ⟨earlier, made⟩ := sound.exists_made h
  exact made.item_eq

/-- The parents of an entry are the entries of the node's parents, in the listed order. -/
theorem map_lookup_parents (sound : Sound arena built) (h : built.lookup i = some t) :
    (arena.node i).parents.map (List.lookup · built) = t.parents.map some := by
  obtain ⟨earlier, made⟩ := sound.exists_made h
  exact made.larger.map_lookup made.map_lookup_parents

/-- The parents of an entry are the traces at the listed numbers. -/
theorem parents_eq (sound : Sound arena built) (h : built.lookup i = some t) (s : Trace) :
    t.parents = ((arena.node i).parents.map Fin.val).map (traceAt built s) := by
  have hparents := congrArg (List.map (·.getD s)) (sound.map_lookup_parents h)
  rw [List.map_map, List.map_map] at hparents
  calc t.parents
      = (arena.node i).parents.map fun j => (built.lookup j).getD s :=
        (List.map_id _).symm.trans hparents.symm
    _ = ((arena.node i).parents.map Fin.val).map (traceAt built s) := by
        rw [List.map_map]
        exact List.map_congr_left fun j _ => (traceAt_val built s j).symm

/-- **Tags tell nodes apart.** -/
theorem eq_of_tag_eq (sound : Sound arena built) (hi : built.lookup i = some s)
    (hj : built.lookup j = some t) (h : s.tag = t.tag) : i = j := by
  induction sound with
  | nil => cases hi
  | cons sound fresh made ih =>
    obtain ⟨rfl, rfl⟩ | ⟨-, hi'⟩ := lookup_cons_eq_some_iff.mp hi <;>
      obtain ⟨rfl, rfl⟩ | ⟨-, hj'⟩ := lookup_cons_eq_some_iff.mp hj
    · rfl
    -- The tag of the last entry is the length of the table before it, and no other tag is.
    · exact absurd h.symm (Nat.ne_of_lt (sound.tag_lt_length hj'))
    · exact absurd h (Nat.ne_of_lt (sound.tag_lt_length hi'))
    · exact ih hi' hj'

/-- The tags count the entries. -/
theorem exists_lookup_of_lt (sound : Sound arena built) {k : Nat} (hk : k < built.length) :
    ∃ i t, built.lookup i = some t ∧ t.tag = k := by
  induction sound with
  | nil => cases hk
  | @cons i built parents sound fresh made ih =>
    by_cases hlast : k = built.length
    · exact ⟨i, _, List.lookup_cons_self, hlast.symm⟩
    · obtain ⟨j, s, hj, htag⟩ := ih (Nat.lt_of_le_of_ne (Nat.le_of_lt_succ hk) hlast)
      exact ⟨j, s, extends_cons fresh j s hj, htag⟩

/-- What an entry has for parents are entries. -/
theorem exists_lookup_of_mem_parents (sound : Sound arena built) (h : built.lookup i = some t)
    (hs : s ∈ t.parents) : ∃ j, arena.HasParent i j ∧ built.lookup j = some s :=
  exists_lookup_of_map_lookup (sound.map_lookup_parents h) hs

/-- The parents of a node in the table are in the table. -/
theorem exists_lookup_of_hasParent (sound : Sound arena built) (h : built.lookup i = some t)
    (hj : arena.HasParent i j) : ∃ s ∈ t.parents, built.lookup j = some s :=
  exists_mem_of_map_lookup (sound.map_lookup_parents h) hj

/-- **Parents have smaller tags.** -/
theorem tag_lt (sound : Sound arena built) (h : built.lookup i = some t) (hs : s ∈ t.parents) :
    s.tag < t.tag := by
  obtain ⟨earlier, made⟩ := sound.exists_made h
  -- Parents were in the table before, and the tag of `t` is the length that the table had then.
  obtain ⟨j, -, hj⟩ := exists_lookup_of_map_lookup made.map_lookup_parents hs
  rw [made.tag_eq]
  exact made.sound.tag_lt_length hj

/-- What a trace in the table reaches is in the table, at a node that its own node reaches. -/
theorem exists_lookup_of_trace_reaches (sound : Sound arena built) (h : built.lookup i = some t)
    (hs : t.Reaches s) : ∃ j, arena.Reaches i j ∧ built.lookup j = some s := by
  induction hs with
  | refl => exact ⟨i, .refl, h⟩
  | tail _ hstep ih =>
    obtain ⟨j, hij, hj⟩ := ih
    obtain ⟨k, hjk, hk⟩ := sound.exists_lookup_of_mem_parents hj hstep
    exact ⟨k, hij.tail hjk, hk⟩

/-- What a node in the table reaches is in the table, with a trace that its own trace reaches. -/
theorem exists_lookup_of_reaches (sound : Sound arena built) (h : built.lookup i = some t)
    (hj : arena.Reaches i j) : ∃ s, t.Reaches s ∧ built.lookup j = some s := by
  induction hj with
  | refl => exact ⟨t, .refl, h⟩
  | tail _ hstep ih =>
    obtain ⟨s, hts, hs⟩ := ih
    obtain ⟨r, hr, hlookup⟩ := sound.exists_lookup_of_hasParent hs hstep
    exact ⟨r, hts.tail hr, hlookup⟩

/-- Tags fall along any number of parents. -/
theorem tag_lt_of_ancestor (sound : Sound arena built) (h : built.lookup i = some t)
    (hs : t.Ancestor s) : s.tag < t.tag := by
  induction hs with
  | single hstep => exact sound.tag_lt h hstep
  | tail hreach hstep ih =>
    obtain ⟨j, -, hj⟩ := sound.exists_lookup_of_trace_reaches h hreach.to_reflTransGen
    exact Nat.lt_trans (sound.tag_lt hj hstep) ih

/-- **No node in the table is its own ancestor.** -/
theorem not_ancestor_self (sound : Sound arena built) (h : built.lookup i = some t) :
    ¬ arena.Ancestor i i := by
  intro hcycle
  -- One step into the cycle the tag has fallen, and it cannot rise on the way back.
  obtain ⟨j, hij, hji⟩ := Relation.TransGen.head'_iff.mp hcycle
  obtain ⟨s, hs, hj⟩ := sound.exists_lookup_of_hasParent h hij
  obtain ⟨t', ht', hi⟩ := sound.exists_lookup_of_reaches hj hji
  obtain rfl := Option.some.inj (h.symm.trans hi)
  exact Nat.lt_irrefl _ (sound.tag_lt_of_ancestor h (.head' hs ht'))

end Sound

end GrammarConflict.Arena
