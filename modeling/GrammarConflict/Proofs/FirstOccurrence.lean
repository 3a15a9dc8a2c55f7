import Mathlib.Data.List.Induction
import Mathlib.Data.List.Nodup

/-!
# First occurrences

`List.eraseDups` keeps the first occurrence of each member.  A list that grows at its end gains
something just when the new member has not occurred (`eraseDups_concat_of_mem`,
`eraseDups_concat_of_notMem`), which is how a loop finds the first occurrences; what is known of
them follows by induction from the end.
-/

namespace GrammarConflict

section

variable {α : Type} [BEq α] [LawfulBEq α] {xs ys : List α} {x a b : α}

/-! ### One more member -/

theorem eraseDups_concat_of_mem (h : x ∈ xs) : (xs ++ [x]).eraseDups = xs.eraseDups := by
  rw [List.eraseDups_append]
  simp [List.removeAll, h]

theorem eraseDups_concat_of_notMem (h : x ∉ xs) :
    (xs ++ [x]).eraseDups = xs.eraseDups ++ [x] := by
  rw [List.eraseDups_append]
  simp [List.removeAll, h, List.eraseDups_cons]

/-- Nothing occurs twice. -/
theorem nodup_eraseDups (xs : List α) : xs.eraseDups.Nodup := by
  induction xs using List.reverseRecOn with
  | nil => exact List.nodup_nil
  | append_singleton xs x ih =>
    by_cases h : x ∈ xs
    · rwa [eraseDups_concat_of_mem h]
    · rw [eraseDups_concat_of_notMem h]
      exact List.concat_eq_append ▸ ih.concat (mt List.mem_eraseDups.mp h)

theorem eraseDups_eq_self (h : xs.Nodup) : xs.eraseDups = xs := by
  induction xs using List.reverseRecOn with
  | nil => rfl
  | append_singleton xs x ih =>
    obtain ⟨hxs, -, hx⟩ := List.nodup_append.mp h
    rw [eraseDups_concat_of_notMem fun hmem => hx x hmem x (List.mem_singleton_self x) rfl, ih hxs]

/-! ### More members -/

/-- What has occurred adds nothing. -/
theorem eraseDups_append_of_subset (h : ys ⊆ xs) : (xs ++ ys).eraseDups = xs.eraseDups := by
  induction ys using List.reverseRecOn with
  | nil => rw [List.append_nil]
  | append_singleton ys y ih =>
    obtain ⟨hys, hy⟩ := List.append_subset.mp h
    rw [← List.append_assoc, eraseDups_concat_of_mem, ih hys]
    exact List.mem_append_left _ (hy (List.mem_singleton_self y))

/-- What follows is new to a list when it is new to the first occurrences. -/
theorem eraseDups_eraseDups_append (xs ys : List α) :
    (xs.eraseDups ++ ys).eraseDups = (xs ++ ys).eraseDups := by
  induction ys using List.reverseRecOn with
  | nil => rw [List.append_nil, List.append_nil, eraseDups_eq_self (nodup_eraseDups xs)]
  | append_singleton ys y ih =>
    have hmem : y ∈ xs.eraseDups ++ ys ↔ y ∈ xs ++ ys := by
      rw [List.mem_append, List.mem_append, List.mem_eraseDups]
    rw [← List.append_assoc, ← List.append_assoc]
    by_cases h : y ∈ xs ++ ys
    · rw [eraseDups_concat_of_mem h, eraseDups_concat_of_mem (hmem.mpr h), ih]
    · rw [eraseDups_concat_of_notMem h, eraseDups_concat_of_notMem (mt hmem.mp h), ih]

/-- The first occurrences of some of the members. -/
theorem eraseDups_filter (p : α → Bool) (xs : List α) :
    (xs.filter p).eraseDups = xs.eraseDups.filter p := by
  induction xs using List.reverseRecOn with
  | nil => rfl
  | append_singleton xs x ih =>
    cases hp : p x with
    | false =>
      rw [List.filter_append, List.filter_singleton, hp, cond_false, List.append_nil, ih]
      by_cases hx : x ∈ xs
      · rw [eraseDups_concat_of_mem hx]
      · rw [eraseDups_concat_of_notMem hx, List.filter_append, List.filter_singleton, hp,
          cond_false, List.append_nil]
    | true =>
      have hmem : x ∈ xs.filter p ↔ x ∈ xs := by rw [List.mem_filter, and_iff_left hp]
      rw [List.filter_append, List.filter_singleton, hp, cond_true]
      by_cases hx : x ∈ xs
      · rw [eraseDups_concat_of_mem hx, eraseDups_concat_of_mem (hmem.mpr hx), ih]
      · rw [eraseDups_concat_of_notMem hx, eraseDups_concat_of_notMem (mt hmem.mp hx), ih,
          List.filter_append, List.filter_singleton, hp, cond_true]

/-- First occurrences correspond along a function that tells the members apart. -/
theorem eraseDups_map {β : Type} [BEq β] [LawfulBEq β] {f : α → β}
    (h : ∀ x ∈ xs, ∀ y ∈ xs, f x = f y → x = y) :
    (xs.map f).eraseDups = xs.eraseDups.map f := by
  induction xs using List.reverseRecOn with
  | nil => rfl
  | append_singleton xs x ih =>
    have hmem : f x ∈ xs.map f ↔ x ∈ xs := by
      refine ⟨fun hf => ?_, List.mem_map_of_mem⟩
      obtain ⟨y, hy, heq⟩ := List.mem_map.mp hf
      have hx := List.mem_append_right xs (List.mem_singleton_self x)
      rwa [← h y (List.mem_append_left _ hy) x hx heq]
    have ih := ih fun y hy z hz =>
      h y (List.mem_append_left _ hy) z (List.mem_append_left _ hz)
    rw [List.map_append, List.map_singleton]
    by_cases hx : x ∈ xs
    · rw [eraseDups_concat_of_mem hx, eraseDups_concat_of_mem (hmem.mpr hx), ih]
    · rw [eraseDups_concat_of_notMem hx, eraseDups_concat_of_notMem (mt hmem.mp hx), ih,
        List.map_append, List.map_singleton]

/-- Images of what occurs again occur again. -/
theorem eraseDups_map_eraseDups {β : Type} [BEq β] [LawfulBEq β] (f : α → β) (xs : List α) :
    (xs.eraseDups.map f).eraseDups = (xs.map f).eraseDups := by
  induction xs using List.reverseRecOn with
  | nil => rfl
  | append_singleton xs x ih =>
    rw [List.map_append, List.map_singleton]
    by_cases hx : x ∈ xs
    · rw [eraseDups_concat_of_mem hx, eraseDups_concat_of_mem (List.mem_map_of_mem hx), ih]
    · rw [eraseDups_concat_of_notMem hx, List.map_append, List.map_singleton,
        ← eraseDups_eraseDups_append, ih, eraseDups_eraseDups_append]

/-- A function that tells values apart keeps the place where one occurs first. -/
theorem idxOf_map {β : Type} [BEq β] [LawfulBEq β] {f : α → β} (hf : Function.Injective f)
    (xs : List α) (a : α) : (xs.map f).idxOf (f a) = xs.idxOf a := by
  unfold List.idxOf
  rw [List.findIdx_map]
  refine congrArg (List.findIdx · xs) (funext fun x => ?_)
  rw [Function.comp_apply, beq_eq_beq]
  exact hf.eq_iff

/-! ### Order -/

/-- A new member comes after all the others. -/
theorem idxOf_concat_lt_iff (hb : b ∈ xs ++ [x]) :
    (xs ++ [x]).idxOf a < (xs ++ [x]).idxOf b ↔
      a ∈ xs ∧ (b ∈ xs → xs.idxOf a < xs.idxOf b) := by
  by_cases ha' : a ∈ xs
  · rw [List.idxOf_append_of_mem ha', and_iff_right ha']
    by_cases hb' : b ∈ xs
    · rw [List.idxOf_append_of_mem hb', imp_iff_right hb']
    · rw [List.idxOf_append_of_notMem hb']
      have hlt : xs.idxOf a < xs.length := List.idxOf_lt_length_of_mem ha'
      exact iff_of_true (Nat.lt_add_right _ hlt) fun hmem => absurd hmem hb'
  · have hlt : (xs ++ [x]).idxOf b < xs.length + 1 := by
      simpa using List.idxOf_lt_length_of_mem hb
    rw [List.idxOf_append_of_notMem ha']
    exact iff_of_false (by omega) fun hmem => ha' hmem.1

/-- **First occurrences keep the order** in which the members come first. -/
theorem idxOf_eraseDups_lt_iff (ha : a ∈ xs) (hb : b ∈ xs) :
    xs.eraseDups.idxOf a < xs.eraseDups.idxOf b ↔ xs.idxOf a < xs.idxOf b := by
  induction xs using List.reverseRecOn with
  | nil => cases ha
  | append_singleton xs x ih =>
    by_cases h : x ∈ xs
    · have hmem {c : α} (hc : c ∈ xs ++ [x]) : c ∈ xs :=
        (List.mem_append.mp hc).elim id fun hc => List.mem_singleton.mp hc ▸ h
      rw [eraseDups_concat_of_mem h, List.idxOf_append_of_mem (hmem ha),
        List.idxOf_append_of_mem (hmem hb), ih (hmem ha) (hmem hb)]
    · have hb' : b ∈ xs.eraseDups ++ [x] := by
        rwa [List.mem_append, List.mem_eraseDups, ← List.mem_append]
      rw [eraseDups_concat_of_notMem h, idxOf_concat_lt_iff hb', idxOf_concat_lt_iff hb,
        List.mem_eraseDups, List.mem_eraseDups]
      exact and_congr_right fun ha => forall_congr' fun hb => ih ha hb

/-- The members of a list without repetitions, numbered. -/
theorem map_idxOf_self (h : xs.Nodup) : xs.map (xs.idxOf ·) = List.range xs.length := by
  refine List.ext_getElem (by simp) fun i hi _ => ?_
  rw [List.getElem_map, List.getElem_range, h.idxOf_getElem]

/-- The first occurrences, numbered in their order, are used in that order. -/
theorem eraseDups_map_idxOf (xs : List α) :
    (xs.map (xs.eraseDups.idxOf ·)).eraseDups = List.range xs.eraseDups.length := by
  rw [eraseDups_map, map_idxOf_self (nodup_eraseDups xs)]
  exact fun x hx y _ heq => (List.idxOf_inj (List.mem_eraseDups.mpr hx)).mp heq

end

end GrammarConflict
