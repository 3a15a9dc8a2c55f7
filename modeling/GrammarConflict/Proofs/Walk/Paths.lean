import GrammarConflict.Walk
import Mathlib.Algebra.Ring.Nat

/-!
# Paths through a trace

A path leads from a trace over one parent after another to a trace without parents, where a history
begins.  It is named by its choices, the numbers of the parents taken, and it spells out a history:
the items on the way, read from the far end.  `Trace.Path` says which choices make a path.

`Trace.paths` lists the paths of a trace, and the three facts that pin the list down are
`mem_paths` (it holds the paths and nothing else), `paths_pairwise_lex` (their choices come in
strict lexicographic order, so none is repeated) and `length_paths` (there are `Trace.pathCount` of
them, a number that counts a parent as often as it is listed).
-/

namespace GrammarConflict

/-- The items of a history, the earliest first. -/
def History.items (h : History) : List Item :=
  h.first :: h.later

/-- The history that goes on with the given items. -/
def History.followedBy (h : History) (items : List Item) : History :=
  ⟨h.first, h.later ++ items⟩

@[simp] theorem History.items_followedBy (h : History) (items : List Item) :
    (h.followedBy items).items = h.items ++ items :=
  rfl

theorem History.followedBy_followedBy (h : History) (xs ys : List Item) :
    (h.followedBy xs).followedBy ys = h.followedBy (xs ++ ys) := by
  simp [followedBy]

namespace Trace

/-- The choices lead from the trace to one without parents, over the items of the history. -/
inductive Path : Trace → List Nat → History → Prop
  /-- A trace without parents is where a history begins. -/
  | start {t : Trace} (no_parents : t.parents = []) : Path t [] ⟨t.item, []⟩
  /-- A path of a parent is a path of the trace, its item coming last. -/
  | through {t p : Trace} {i : Nat} {choices : List Nat} {h : History}
      (parent : t.parents[i]? = some p) (path : Path p choices h) :
      Path t (i :: choices) (h.followedBy [t.item])

mutual

/-- The paths of a trace in lexicographic order, each with its choices and its history. -/
def paths : Trace → List (List Nat × History)
  | ⟨_, item, []⟩ => [([], ⟨item, []⟩)]
  | ⟨_, item, p :: ps⟩ => (pathsFrom 0 (p :: ps)).map fun path => (path.1, path.2.followedBy [item])

/-- The paths over several parents that are numbered from `i` on. -/
def pathsFrom (i : Nat) : List Trace → List (List Nat × History)
  | [] => []
  | p :: ps => (p.paths.map fun path => (i :: path.1, path.2)) ++ pathsFrom (i + 1) ps

end

mutual

/-- The number of paths of a trace. -/
def pathCount : Trace → Nat
  | ⟨_, _, []⟩ => 1
  | ⟨_, _, p :: ps⟩ => pathCountAll (p :: ps)

/-- The number of paths of several traces. -/
def pathCountAll : List Trace → Nat
  | [] => 0
  | t :: rest => t.pathCount + pathCountAll rest

end

/-! ### One level of the trace -/

theorem paths_of_no_parents {t : Trace} (h : t.parents = []) : t.paths = [([], ⟨t.item, []⟩)] := by
  obtain ⟨tag, item, parents⟩ := t
  subst h
  rw [paths]

theorem paths_of_parents {t : Trace} (h : t.parents ≠ []) :
    t.paths = (pathsFrom 0 t.parents).map fun path => (path.1, path.2.followedBy [t.item]) := by
  obtain ⟨tag, item, parents⟩ := t
  cases parents with
  | nil => exact absurd rfl h
  | cons p ps => rw [paths]

/-- **The recursion of the number of paths**: one without parents, else the sum over the parents,
one that is listed twice counted twice. -/
theorem pathCount_eq (t : Trace) :
    t.pathCount = if t.parents = [] then 1 else (t.parents.map pathCount).sum := by
  have sum_map (ts : List Trace) : pathCountAll ts = (ts.map pathCount).sum := by
    induction ts with
    | nil => rw [pathCountAll, List.map_nil, List.sum_nil]
    | cons t rest ih => rw [pathCountAll, ih, List.map_cons, List.sum_cons]
  obtain ⟨tag, item, parents⟩ := t
  cases parents with
  | nil => simp [pathCount]
  | cons p ps => simp [pathCount, sum_map]

/-- A path over parents numbered from `i` on begins with the number of one of them. -/
theorem mem_pathsFrom {i : Nat} {ps : List Trace} {choices : List Nat} {h : History} :
    (choices, h) ∈ pathsFrom i ps ↔
      ∃ (j : Nat) (p : Trace) (rest : List Nat),
        ps[j]? = some p ∧ choices = (i + j) :: rest ∧ (rest, h) ∈ p.paths := by
  induction ps generalizing i with
  | nil => simp [pathsFrom]
  | cons p ps ih =>
    rw [pathsFrom, List.mem_append, List.mem_map, ih]
    constructor
    · rintro (⟨⟨rest, h'⟩, hmem, heq⟩ | ⟨j, q, rest, hq, rfl, hmem⟩)
      · obtain ⟨rfl, rfl⟩ := Prod.mk.inj heq
        exact ⟨0, p, rest, rfl, rfl, hmem⟩
      · exact ⟨j + 1, q, rest, hq, by rw [Nat.add_assoc, Nat.add_comm 1 j], hmem⟩
    · rintro ⟨j, q, rest, hq, rfl, hmem⟩
      cases j with
      | zero =>
        obtain rfl : p = q := Option.some.inj hq
        exact Or.inl ⟨(rest, h), hmem, rfl⟩
      | succ j =>
        exact Or.inr ⟨j, q, rest, hq, by rw [Nat.add_assoc, Nat.add_comm 1 j], hmem⟩

/-! ### The list holds the paths -/

/-- **Soundness and completeness** of the list of paths. -/
theorem mem_paths {t : Trace} {choices : List Nat} {h : History} :
    (choices, h) ∈ t.paths ↔ t.Path choices h := by
  constructor
  · intro hmem
    -- Each choice is one step up, and the trace changes with it.
    induction choices generalizing t h with
    | nil =>
      by_cases hp : t.parents = []
      · rw [paths_of_no_parents hp, List.mem_singleton] at hmem
        obtain ⟨-, rfl⟩ := Prod.mk.inj hmem
        exact .start hp
      · rw [paths_of_parents hp, List.mem_map] at hmem
        obtain ⟨⟨choices, h'⟩, hmem, heq⟩ := hmem
        obtain ⟨j, p, rest, -, hcons, -⟩ := mem_pathsFrom.mp hmem
        rw [hcons] at heq
        simp at heq
    | cons i choices ih =>
      by_cases hp : t.parents = []
      · rw [paths_of_no_parents hp] at hmem
        simp at hmem
      · rw [paths_of_parents hp, List.mem_map] at hmem
        obtain ⟨⟨choices', h'⟩, hmem, heq⟩ := hmem
        obtain ⟨j, p, rest, hj, hcons, hrest⟩ := mem_pathsFrom.mp hmem
        simp only [hcons, Nat.zero_add, Prod.mk.injEq, List.cons.injEq] at heq
        obtain ⟨⟨rfl, rfl⟩, rfl⟩ := heq
        exact .through hj (ih hrest)
  · intro path
    induction path with
    | start no_parents =>
      rw [paths_of_no_parents no_parents]
      exact List.mem_singleton.mpr rfl
    | @through t p i choices h parent path ih =>
      have hp : t.parents ≠ [] := by
        intro hnil
        simp [hnil] at parent
      rw [paths_of_parents hp, List.mem_map]
      refine ⟨(i :: choices, h), mem_pathsFrom.mpr ⟨i, p, choices, parent, ?_, ih⟩, rfl⟩
      rw [Nat.zero_add]

/-- The last item of a path's history is the item of the trace it starts from. -/
theorem Path.getLast?_items {t : Trace} {choices : List Nat} {h : History}
    (path : t.Path choices h) : h.items.getLast? = some t.item := by
  cases path with
  | start _ => rfl
  | through _ _ => rw [History.items_followedBy, List.getLast?_append]; rfl

/-! ### Order and number -/

mutual

/-- The choices of the paths are listed in strict lexicographic order. -/
theorem paths_pairwise_lex : (t : Trace) →
    (t.paths.map Prod.fst).Pairwise (List.Lex (· < ·))
  | ⟨_, _, []⟩ => by simp [paths]
  | ⟨_, item, p :: ps⟩ => by
    have h := pathsFrom_pairwise_lex 0 (p :: ps)
    rw [paths, List.map_map]
    exact h

/-- A path over an earlier parent comes before one over a later parent, and the paths over one
parent keep their order. -/
theorem pathsFrom_pairwise_lex : (i : Nat) → (ps : List Trace) →
    ((pathsFrom i ps).map Prod.fst).Pairwise (List.Lex (· < ·))
  | _, [] => by simp [pathsFrom]
  | i, p :: ps => by
    rw [pathsFrom, List.map_append, List.map_map, List.pairwise_append]
    refine ⟨?_, pathsFrom_pairwise_lex (i + 1) ps, ?_⟩
    · have h := paths_pairwise_lex p
      rw [List.pairwise_map] at h ⊢
      exact h.imp fun hlt => List.Lex.cons hlt
    -- Paths over different parents differ in their first choice.
    · intro xs hxs ys hys
      obtain ⟨path, -, rfl⟩ := List.mem_map.mp hxs
      obtain ⟨⟨choices, h⟩, hmem, rfl⟩ := List.mem_map.mp hys
      obtain ⟨j, q, rest, -, rfl, -⟩ := mem_pathsFrom.mp hmem
      exact List.Lex.rel (by omega)

end

mutual

/-- The number of paths listed. -/
theorem length_paths : (t : Trace) → t.paths.length = t.pathCount
  | ⟨_, _, []⟩ => rfl
  | ⟨_, _, p :: ps⟩ => by
    rw [paths, List.length_map, pathCount]
    exact length_pathsFrom 0 (p :: ps)

theorem length_pathsFrom : (i : Nat) → (ps : List Trace) →
    (pathsFrom i ps).length = pathCountAll ps
  | _, [] => rfl
  | i, p :: ps => by
    rw [pathsFrom, List.length_append, List.length_map, pathCountAll, length_paths p,
      length_pathsFrom (i + 1) ps]

end

/-- Every trace has a path. -/
theorem pathCount_pos : (t : Trace) → 0 < t.pathCount
  | ⟨_, _, []⟩ => by rw [pathCount]; exact Nat.one_pos
  | ⟨_, _, p :: ps⟩ => by
    have hp := pathCount_pos p
    rw [pathCount, pathCountAll]
    omega

end Trace

end GrammarConflict
