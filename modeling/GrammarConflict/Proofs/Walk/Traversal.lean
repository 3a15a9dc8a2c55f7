import GrammarConflict.Proofs.Walk.Enumeration

/-!
# A walk is a depth-first traversal

What a walk pushes and pops is what a depth-first traversal of the unfolded trace enters and leaves
(`Trace.traversal`).  A walk stops at each trace without parents that it enters, for there a history
begins, and so each step covers the visits up to the next such trace.

A stack of frames stands for the visits that it has still to make (`Walk.visitsOf`), also in the
middle of a turn, as it stands for the histories that are pending.  Entering and turning split these
visits at the trace where the next history begins (`exists_visits_enter`, `exists_visits_turn`); a
run of steps puts the parts together (`exists_visits_tour`), and together with the start of the walk
it makes a prefix of the traversal (`exists_visits`).
-/

namespace GrammarConflict

/-- A trace is entered or left.  The depth is the number of traces on the way afterwards. -/
inductive Visit where
  | enter (t : Trace) (depth : Nat)
  | leave (t : Trace) (depth : Nat)

namespace Visit

/-- The change of the stack that a visit is. -/
def move : Visit → Move
  | .enter t depth => .push t.item depth
  | .leave t depth => .pop t.item depth

/-- Whether a history begins here: a trace without parents is entered. -/
def begins : Visit → Bool
  | .enter t _ => t.parents.isEmpty
  | .leave _ _ => false

/-- The visits go as far as the trace where the `n`th history begins: it is entered last. -/
structure EndsAt (n : Nat) (vs : List Visit) : Prop where
  countP_eq : vs.countP begins = n
  last : ∀ v ∈ vs.getLast?, v.begins

end Visit

namespace Trace

mutual

/-- The visits of a depth-first traversal of what leads to a trace at the given depth.  The trace
itself is not entered, and it is left if there was anything to enter. -/
def traversal : Trace → Nat → List Visit
  | ⟨_, _, []⟩, _ => []
  | ⟨tag, item, p :: ps⟩, depth =>
    traversalOver (p :: ps) depth ++ [.leave ⟨tag, item, p :: ps⟩ (depth - 1)]

/-- The visits over the parents of a trace at the given depth: each is entered and traversed. -/
def traversalOver : List Trace → Nat → List Visit
  | [], _ => []
  | p :: ps, depth => .enter p (depth + 1) :: (p.traversal (depth + 1) ++ traversalOver ps depth)

end

theorem traversal_of_no_parents {t : Trace} (h : t.parents = []) (depth : Nat) :
    t.traversal depth = [] := by
  obtain ⟨tag, item, parents⟩ := t
  subst h
  rw [traversal]

theorem traversal_of_parents {t : Trace} (h : t.parents ≠ []) (depth : Nat) :
    t.traversal depth = traversalOver t.parents depth ++ [.leave t (depth - 1)] := by
  obtain ⟨tag, item, parents⟩ := t
  cases parents with
  | nil => exact absurd rfl h
  | cons p ps => rw [traversal]

end Trace

/-! ### Visits up to the beginning of a history -/

namespace Visit.EndsAt

variable {m n : Nat} {us vs : List Visit}

theorem nil : EndsAt 0 [] :=
  ⟨rfl, by simp⟩

theorem singleton {v : Visit} (h : v.begins) : EndsAt 1 [v] :=
  ⟨by simp [h], by simpa using h⟩

theorem append (hus : EndsAt m us) (hvs : EndsAt n vs) : EndsAt (m + n) (us ++ vs) := by
  refine ⟨by rw [List.countP_append, hus.countP_eq, hvs.countP_eq], ?_⟩
  intro v hv
  rw [List.getLast?_append, Option.mem_def, Option.or_eq_some_iff] at hv
  rcases hv with hv | ⟨-, hv⟩
  · exact hvs.last v hv
  · exact hus.last v hv

theorem ne_nil (h : EndsAt (n + 1) vs) : vs ≠ [] := by
  rintro rfl
  exact absurd h.countP_eq (Nat.succ_ne_zero n).symm

/-- A visit where no history begins may come first. -/
theorem cons_iff {v : Visit} (hv : ¬ v.begins) : EndsAt (n + 1) (v :: vs) ↔ EndsAt (n + 1) vs := by
  have hcount : (v :: vs).countP begins = vs.countP begins := List.countP_cons_of_neg hv
  cases vs with
  | nil =>
    constructor
    · intro h
      exact absurd (hcount.symm.trans h.countP_eq) (Nat.succ_ne_zero n).symm
    · intro h
      exact absurd rfl h.ne_nil
  | cons w rest =>
    have hlast : (v :: w :: rest).getLast? = (w :: rest).getLast? := List.getLast?_cons_cons
    constructor
    · rintro ⟨heq, h⟩
      exact ⟨hcount.symm.trans heq, hlast ▸ h⟩
    · rintro ⟨heq, h⟩
      exact ⟨hcount.trans heq, hlast ▸ h⟩

end Visit.EndsAt

namespace Walk

/-! ### What a stack has still to visit -/

/-- The visits that the frames have still to make: each enters the parents that it has left, and is
left. -/
def visitsOf : List Frame → List Visit
  | [] => []
  | f :: below =>
    Trace.traversalOver (f.trace.parents.drop f.entered) (below.length + 1) ++
      .leave f.trace below.length :: visitsOf below

/-- The visits from the next step on.  The frame at the top is a trace without parents, and it is
dropped without a visit. -/
def ahead (w : Walk) : List Visit :=
  visitsOf w.frames.tail

theorem ahead_of_remaining_eq_nil {w : Walk} (h : w.remaining = []) : w.ahead = [] := by
  obtain ⟨frames⟩ := w
  cases frames with
  | nil => rfl
  | cons f below => exact absurd h (List.cons_ne_nil _ _)

/-- **Entering a trace** makes the visits up to the next trace where a history begins. -/
theorem exists_visits_enter : (t : Trace) → (below : List Frame) → ∃ vs,
    t.pushes (below.length + 1) = vs.map Visit.move ∧
    .enter t (below.length + 1) :: (t.traversal (below.length + 1) ++ visitsOf below) =
      vs ++ ahead ⟨t.enter below⟩ ∧
    Visit.EndsAt 1 vs
  | ⟨tag, item, []⟩, below => by
    refine ⟨[.enter ⟨tag, item, []⟩ (below.length + 1)], ?_, ?_, .singleton rfl⟩
    · rw [Trace.pushes]
      rfl
    · rw [Trace.traversal_of_no_parents rfl, Trace.enter]
      rfl
  | ⟨tag, item, p :: ps⟩, below => by
    let t : Trace := ⟨tag, item, p :: ps⟩
    obtain ⟨vs, hmoves, hvisits, hends⟩ := exists_visits_enter p (⟨t, 1⟩ :: below)
    refine ⟨.enter t (below.length + 1) :: vs, ?_, ?_, (Visit.EndsAt.cons_iff ?_).mpr hends⟩
    · rw [Trace.pushes, List.map_cons, ← hmoves]
      rfl
    · rw [Trace.enter, List.cons_append, ← hvisits,
        Trace.traversal_of_parents (List.cons_ne_nil p ps)]
      simp [Trace.traversalOver, visitsOf, t]
    · simp [Visit.begins, t]

/-- **Turning** makes the visits up to the next trace where a history begins, and all that are left
if there is no history pending. -/
theorem exists_visits_turn (frames : List Frame) : ∃ vs,
    (turn frames).2 = vs.map Visit.move ∧
    visitsOf frames = vs ++ ahead ⟨(turn frames).1⟩ ∧
    (pending frames ≠ [] → Visit.EndsAt 1 vs) := by
  induction frames with
  | nil => exact ⟨[], rfl, rfl, fun h => absurd rfl h⟩
  | cons f below ih =>
    rw [turn]
    split
    · next p hp =>
      obtain ⟨hlt, hget⟩ := List.getElem?_eq_some_iff.mp hp
      obtain ⟨vs, hmoves, hvisits, hends⟩ := exists_visits_enter p (f.advance :: below)
      refine ⟨vs, hmoves, ?_, fun _ => hends⟩
      rw [visitsOf, List.drop_eq_getElem_cons hlt, hget]
      refine Eq.trans ?_ hvisits
      simp [Trace.traversalOver, visitsOf, Frame.advance]
    · next hp =>
      obtain ⟨vs, hmoves, hvisits, hends⟩ := ih
      have hnone : f.trace.parents.drop f.entered = [] :=
        List.drop_eq_nil_of_le (List.getElem?_eq_none_iff.mp hp)
      refine ⟨.leave f.trace below.length :: vs, ?_, ?_, ?_⟩
      · rw [List.map_cons, ← hmoves]
        rfl
      · rw [visitsOf, hnone, hvisits]
        rfl
      · rw [pending_of_nextParent?_eq_none below hp]
        exact fun hpending => (Visit.EndsAt.cons_iff (by simp [Visit.begins])).mpr (hends hpending)

/-! ### Steps and runs -/

/-- **A step** makes the visits up to the trace where the next history begins. -/
theorem exists_visits_next {w : Walk} {step : Step} (h : w.next = .ok (some step)) : ∃ vs,
    step.moves = vs.map Visit.move ∧ w.ahead = vs ++ step.walk.ahead ∧
    (1 < w.remaining.length → Visit.EndsAt 1 vs) := by
  obtain ⟨frames⟩ := w
  cases frames with
  | nil => cases h
  | cons f below =>
    obtain ⟨vs, hmoves, hvisits, hends⟩ := exists_visits_turn below
    rw [next_cons] at h
    split at h
    · obtain rfl := Option.some.inj (Except.ok.inj h)
      refine ⟨vs, hmoves, hvisits, fun hlength => hends ?_⟩
      rw [remaining, List.length_cons] at hlength
      exact List.ne_nil_of_length_pos (by omega)
    · cases h

/-- **A run of `k` steps** makes the visits up to the trace where the history after them begins, and
all the visits if there is none. -/
theorem exists_visits_tour (k : Nat) {w : Walk} (ready : w.Ready) : ∃ vs,
    (tour k w).moves = vs.map Visit.move ∧ w.ahead = vs ++ (tour k w).walk.ahead ∧
    (k < w.remaining.length → Visit.EndsAt k vs) := by
  induction k generalizing w with
  | zero => exact ⟨[], rfl, rfl, fun _ => .nil⟩
  | succ k ih =>
    obtain ⟨hover, hremaining⟩ | ⟨step, hstep, hready, hremaining⟩ := ready.next_cases
    · simp only [tour, hover, hremaining]
      exact ⟨[], rfl, rfl, fun hlt => absurd hlt (Nat.not_lt_zero _)⟩
    · obtain ⟨us, husMoves, hus, husEnds⟩ := exists_visits_next hstep
      obtain ⟨vs, hvsMoves, hvs, hvsEnds⟩ := ih hready
      have hlength : w.remaining.length = step.walk.remaining.length + 1 := by
        rw [hremaining, List.length_cons]
      simp only [tour, hstep]
      refine ⟨us ++ vs, ?_, ?_, fun hlt => ?_⟩
      · rw [List.map_append, ← husMoves, ← hvsMoves]
      · rw [hus, hvs, List.append_assoc]
      · rw [Nat.add_comm]
        exact (husEnds (by omega)).append (hvsEnds (by omega))

/-- **A walk traverses its trace.**  Starting and `k` steps make a prefix of the traversal: all of
it when no more than `k` histories are there, and else, if there is a step at all, the visits up to
the trace where history `k + 1` begins. -/
theorem exists_visits (k : Nat) (t : Trace) : ∃ vs,
    startMoves t ++ (tour k (start t)).moves = vs.map Visit.move ∧ vs <+: t.traversal 1 ∧
    (t.pathCount ≤ k → vs = t.traversal 1) ∧
    (0 < k → k < t.pathCount → Visit.EndsAt (k + 1) vs) := by
  obtain ⟨us, husMoves, hus, husEnds⟩ := exists_visits_enter t []
  obtain ⟨vs, hvsMoves, hvs, hvsEnds⟩ := exists_visits_tour k (ready_start t)
  have hlength : (start t).remaining.length = t.pathCount := by
    rw [remaining_start, Trace.histories, List.length_map, Trace.length_paths]
  -- The trace itself is where the walk stands before it makes its first move.
  obtain ⟨us, rfl⟩ : ∃ us', us = .enter t 1 :: us' := by
    cases us with
    | nil => exact absurd rfl husEnds.ne_nil
    | cons u us' => exact ⟨us', congrArg (· :: us') (List.cons.inj hus).1.symm⟩
  have htraversal : t.traversal 1 = us ++ (start t).ahead := by
    simpa [visitsOf, start] using (List.cons.inj hus).2
  refine ⟨us ++ vs, ?_, ?_, fun hle => ?_, fun hpos hlt => ?_⟩
  · rw [startMoves, List.map_append, ← hvsMoves]
    exact congrArg (·.tail ++ _) husMoves
  · rw [htraversal, hvs, ← List.append_assoc]
    exact List.prefix_append ..
  · have hover : (tour k (start t)).walk.remaining = [] := by
      obtain ⟨-, -, -, hdrop⟩ := (ready_start t).tour k
      rw [hdrop, List.drop_eq_nil_of_le (by omega)]
    rw [htraversal, hvs, ahead_of_remaining_eq_nil hover, List.append_nil]
  · have hparents : t.parents ≠ [] := by
      intro hnone
      rw [Trace.pathCount_eq, if_pos hnone] at hlt
      omega
    have hus : Visit.EndsAt 1 us :=
      (Visit.EndsAt.cons_iff (by simpa [Visit.begins] using hparents)).mp husEnds
    rw [Nat.add_comm]
    exact hus.append (hvsEnds (by omega))

end Walk

end GrammarConflict
