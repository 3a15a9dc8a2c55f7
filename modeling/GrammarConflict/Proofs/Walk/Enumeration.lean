import GrammarConflict.Example
import GrammarConflict.Proofs.Walk.Paths

/-!
# A walk enumerates the histories

What a stack of frames stands for is a list of histories: the one it is at, and those that it has
still to come to.  `remaining` reads that list off any stack, also in the middle of a turn, where
the frames that are left have histories ahead of them but none of their own (`pending`).

* `remaining_enter`: entering a trace puts its histories in front of what was pending;
* `remaining_turn`: turning drops the history at the top and nothing else;
* `Ready.next_cases`: a step gives the head of the list and leaves the tail.

A step fails on a frame where no history begins.  Entering and turning always end at a frame where
one does (`Ready`), so no step of a walk through a trace fails, and the walk is the list of the
paths taken one at a time (`start_enumerates_paths`).
-/

namespace GrammarConflict

/-! ### The histories of a trace -/

namespace Trace

/-- The histories of a trace, in the order of its paths. -/
def histories (t : Trace) : List History :=
  t.paths.map Prod.snd

theorem map_snd_pathsFrom (i : Nat) (ps : List Trace) :
    (pathsFrom i ps).map Prod.snd = ps.flatMap histories := by
  induction ps generalizing i with
  | nil => rfl
  | cons p ps ih =>
    rw [pathsFrom, List.map_append, List.map_map, ih, List.flatMap_cons]
    rfl

theorem histories_of_no_parents {t : Trace} (h : t.parents = []) :
    t.histories = [⟨t.item, []⟩] := by
  rw [histories, paths_of_no_parents h]
  rfl

/-- The histories of a trace are those of its parents, each followed by the item of the trace. -/
theorem histories_of_parents {t : Trace} (h : t.parents ≠ []) :
    t.histories = (t.parents.flatMap histories).map (·.followedBy [t.item]) := by
  rw [histories, paths_of_parents h, List.map_map, ← map_snd_pathsFrom 0, List.map_map]
  rfl

theorem mem_histories {t : Trace} {h : History} :
    h ∈ t.histories ↔ ∃ choices, t.Path choices h := by
  rw [histories, List.mem_map]
  constructor
  · rintro ⟨⟨choices, h⟩, hmem, rfl⟩
    exact ⟨choices, mem_paths.mp hmem⟩
  · rintro ⟨choices, path⟩
    exact ⟨(choices, h), mem_paths.mpr path, rfl⟩

end Trace

namespace Walk

/-! ### What a stack stands for -/

/-- The items of the frames, the top first. -/
def itemsOf (frames : List Frame) : List Item :=
  frames.map (·.trace.item)

/-- The histories over a frame's parents that have not been entered, and over those of the frames
below it. -/
def pending : List Frame → List History
  | [] => []
  | f :: below =>
    ((f.trace.parents.drop f.entered).flatMap Trace.histories).map
        (·.followedBy (itemsOf (f :: below))) ++
      pending below

/-- The histories from the one that the walk is at to the last. -/
def remaining (w : Walk) : List History :=
  match w.frames with
  | [] => []
  | f :: below => ⟨f.trace.item, itemsOf below⟩ :: pending below

/-- A frame that enters its next parent has the histories over that parent no longer pending. -/
theorem pending_of_nextParent? {f : Frame} {p : Trace} (below : List Frame)
    (h : f.nextParent? = some p) :
    pending (f :: below) =
      p.histories.map (·.followedBy (itemsOf (f :: below))) ++ pending (f.advance :: below) := by
  obtain ⟨hlt, hp⟩ := List.getElem?_eq_some_iff.mp h
  rw [pending, List.drop_eq_getElem_cons hlt, hp, List.flatMap_cons, List.map_append,
    List.append_assoc]
  rfl

/-- A frame without a parent left to enter has nothing pending. -/
theorem pending_of_nextParent?_eq_none {f : Frame} (below : List Frame)
    (h : f.nextParent? = none) : pending (f :: below) = pending below := by
  have hlen : f.trace.parents.length ≤ f.entered := List.getElem?_eq_none_iff.mp h
  rw [pending, List.drop_eq_nil_of_le hlen]
  rfl

/-- **Entering a trace** puts its histories, each followed by the items on the stack, in front. -/
theorem remaining_enter : (t : Trace) → (below : List Frame) →
    remaining ⟨t.enter below⟩ = t.histories.map (·.followedBy (itemsOf below)) ++ pending below
  | ⟨tag, item, []⟩, below => by
    rw [Trace.enter, Trace.histories_of_no_parents rfl]
    rfl
  | ⟨tag, item, p :: ps⟩, below => by
    let f : Frame := ⟨⟨tag, item, p :: ps⟩, 0⟩
    have hp : pending (f :: below) = _ := pending_of_nextParent? (f := f) below rfl
    have hhist : Trace.histories ⟨tag, item, p :: ps⟩ = _ :=
      Trace.histories_of_parents (List.cons_ne_nil p ps)
    rw [Trace.enter, remaining_enter p]
    -- Entering the first parent only splits what was pending in the frame before it did.
    refine Eq.trans (b := pending (f :: below)) hp.symm ?_
    rw [pending, hhist, List.map_map]
    congr 1
    refine List.map_congr_left fun h _ => ?_
    exact (History.followedBy_followedBy h [item] (itemsOf below)).symm

/-- **Turning** loses no history: what was pending is what remains. -/
theorem remaining_turn (frames : List Frame) :
    remaining ⟨(turn frames).1⟩ = pending frames := by
  induction frames with
  | nil => rfl
  | cons f below ih =>
    rw [turn]
    split
    · next p hp => rw [remaining_enter, pending_of_nextParent? below hp]; rfl
    · next hp => rw [pending_of_nextParent?_eq_none below hp]; exact ih

/-! ### Where a step can be taken -/

/-- The walk is over, or a history begins in the frame on top. -/
def Ready (w : Walk) : Prop :=
  ∀ f ∈ w.frames.head?, f.Begins

theorem ready_enter : (t : Trace) → (below : List Frame) → Ready ⟨t.enter below⟩
  | ⟨tag, item, []⟩, below => by
    rw [Trace.enter]
    rintro f ⟨⟩
    exact ⟨rfl, rfl⟩
  | ⟨tag, item, p :: ps⟩, below => by
    rw [Trace.enter]
    exact ready_enter p _

theorem ready_turn (frames : List Frame) : Ready ⟨(turn frames).1⟩ := by
  induction frames with
  | nil => exact nofun
  | cons f below ih =>
    rw [turn]
    split
    · next p _ => exact ready_enter p _
    · exact ih

theorem ready_start (t : Trace) : Ready (start t) :=
  ready_enter t []

/-! ### Steps and runs -/

/-- **A step** gives the first of the remaining histories and leaves the others.  If none remains
the walk is over. -/
theorem Ready.next_cases {w : Walk} (ready : w.Ready) :
    (w.next = .ok none ∧ w.remaining = []) ∨
    ∃ step, w.next = .ok (some step) ∧ step.walk.Ready ∧
      w.remaining = step.history :: step.walk.remaining := by
  obtain ⟨frames⟩ := w
  cases frames with
  | nil => exact .inl ⟨rfl, rfl⟩
  | cons f below =>
    refine .inr ⟨.leaving f below, ?_, ready_turn below, ?_⟩
    · rw [next_cons, if_pos (ready f rfl)]
    · exact congrArg (_ :: ·) (remaining_turn below).symm

theorem Ready.history_of_next {w : Walk} (ready : w.Ready) {step : Step}
    (h : w.next = .ok (some step)) :
    step.walk.Ready ∧ w.remaining = step.history :: step.walk.remaining := by
  obtain ⟨hover, -⟩ | ⟨step', hstep, hready, hremaining⟩ := ready.next_cases
  · rw [hover] at h
    cases h
  · obtain rfl := Option.some.inj (Except.ok.inj (hstep.symm.trans h))
    exact ⟨hready, hremaining⟩

theorem Ready.next_eq_none_iff {w : Walk} (ready : w.Ready) :
    w.next = .ok none ↔ w.remaining = [] := by
  obtain ⟨hover, hremaining⟩ | ⟨step, hstep, -, hremaining⟩ := ready.next_cases
  · exact iff_of_true hover hremaining
  · rw [hstep, hremaining]
    exact iff_of_false nofun nofun

/-- **A run** of `k` steps does not fail, gives the first `k` histories, and leaves the others. -/
theorem Ready.tour {w : Walk} (ready : w.Ready) (k : Nat) :
    (tour k w).failure? = none ∧ (tour k w).walk.Ready ∧
      (tour k w).histories = w.remaining.take k ∧
      (tour k w).walk.remaining = w.remaining.drop k := by
  induction k generalizing w with
  | zero => exact ⟨rfl, ready, rfl, rfl⟩
  | succ k ih =>
    obtain ⟨hover, hremaining⟩ | ⟨step, hstep, hready, hremaining⟩ := ready.next_cases
    · simpa [Walk.tour, hover, hremaining] using ready
    · obtain ⟨hfailure, hready', htake, hdrop⟩ := ih hready
      simp only [Walk.tour, hstep, hremaining, List.take_succ_cons, List.drop_succ_cons]
      exact ⟨hfailure, hready', congrArg (_ :: ·) htake, hdrop⟩

/-- The step after `k` others does not fail, and gives the history at index `k`. -/
theorem Ready.next_tour {w : Walk} (ready : w.Ready) (k : Nat) :
    ∃ step?, (Walk.tour k w).walk.next = .ok step? ∧
      step?.map Step.history = w.remaining[k]? := by
  obtain ⟨-, hready, -, hdrop⟩ := ready.tour k
  rw [← List.head?_drop, ← hdrop]
  obtain ⟨hover, hremaining⟩ | ⟨step, hstep, -, hremaining⟩ := hready.next_cases
  · exact ⟨none, hover, by rw [hremaining]; rfl⟩
  · exact ⟨some step, hstep, by rw [hremaining]; rfl⟩

theorem remaining_start (t : Trace) : (start t).remaining = t.histories := by
  rw [start, remaining_enter, pending, List.append_nil]
  refine (List.map_congr_left fun h _ => ?_).trans (List.map_id _)
  simp [History.followedBy, itemsOf]

/-- The histories that a walk through a trace gives are the trace's. -/
theorem mem_histories_of_next {t : Trace} {k : Nat} {step : Step}
    (h : (tour k (start t)).walk.next = .ok (some step)) : step.history ∈ t.histories := by
  obtain ⟨_, hstep, hget⟩ := (ready_start t).next_tour k
  obtain rfl := Except.ok.inj (hstep.symm.trans h)
  rw [remaining_start] at hget
  exact List.mem_of_getElem? hget.symm

/-- **A walk enumerates the paths of its trace.**  The list of paths holds each path once, in strict
lexicographic order of the choices, `Trace.pathCount` in all.  No step fails; the step after `k`
others gives the example of the path at index `k`, and there is no step once the paths are used
up. -/
theorem start_enumerates_paths (t : Trace) :
    (∀ choices h, (choices, h) ∈ t.paths ↔ t.Path choices h) ∧
    (t.paths.map Prod.fst).Pairwise (List.Lex (· < ·)) ∧
    t.paths.length = t.pathCount ∧
    (∀ k, (tour k (start t)).failure? = none) ∧
    (∀ k, (tour k (start t)).walk.next.map (Option.map (·.history.unwind)) =
      .ok (t.paths[k]?.map (·.2.unwind))) ∧
    ∀ k, (tour k (start t)).walk.next = .ok none ↔ t.pathCount ≤ k := by
  have ready := ready_start t
  refine ⟨fun _ _ => Trace.mem_paths, Trace.paths_pairwise_lex t, Trace.length_paths t,
    fun k => (ready.tour k).1, fun k => ?_, fun k => ?_⟩
  · obtain ⟨step?, hstep, hget⟩ := ready.next_tour k
    rw [remaining_start, Trace.histories, List.getElem?_map] at hget
    have hunwound := congrArg (Option.map History.unwind) hget
    rw [Option.map_map, Option.map_map] at hunwound
    rw [hstep]
    exact congrArg Except.ok hunwound
  · obtain ⟨-, hready, -, hdrop⟩ := ready.tour k
    rw [hready.next_eq_none_iff, hdrop, remaining_start, List.drop_eq_nil_iff, Trace.histories,
      List.length_map, Trace.length_paths]

end Walk

end GrammarConflict
