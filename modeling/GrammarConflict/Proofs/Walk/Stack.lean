import GrammarConflict.Proofs.Trace.Reach
import GrammarConflict.Proofs.Walk.Enumeration
import Mathlib.Data.List.Chain
import Mathlib.Order.Bounds.Basic

/-!
# The stack of a walk

Between two steps the stack of a walk is empty or it holds one whole path: the trace the walk is
through at the bottom, a trace without parents on top, and in each other frame a count of entered
parents whose last is the trace of the frame above (`Walk.HoldsPath`).

Within a step this is not so.  When the top frame is dropped, the parent that the one below entered
last stands nowhere, and while a trace is being entered the path does not yet end.  What holds
throughout is that the frames head from the trace at the bottom for some trace that is to stand
above them, or stood there last (`Walk.HeadsFor`).  Entering that trace makes the path whole
(`HeadsFor.enter`), and so does turning, which enters another one in its place (`HeadsFor.turn`).

A step checks that a history begins in the frame that it drops.  On a stack that holds a path one
does (`HoldsPath.top`), so the check never fails.
-/

namespace GrammarConflict

/-! ### The longest path -/

namespace Trace

mutual

/-- The number of traces on the longest path. -/
def height : Trace → Nat
  | ⟨_, _, parents⟩ => heightOver parents + 1

/-- The number of traces on the longest path of several traces. -/
def heightOver : List Trace → Nat
  | [] => 0
  | t :: rest => max t.height (heightOver rest)

end

theorem height_eq (t : Trace) : t.height = heightOver t.parents + 1 := by
  obtain ⟨tag, item, parents⟩ := t
  rw [height]

theorem height_le_heightOver {ts : List Trace} {t : Trace} (h : t ∈ ts) :
    t.height ≤ heightOver ts := by
  induction ts with
  | nil => cases h
  | cons s rest ih =>
    rw [heightOver]
    obtain rfl | h := List.mem_cons.mp h
    · exact Nat.le_max_left ..
    · exact Nat.le_trans (ih h) (Nat.le_max_right ..)

theorem height_lt_of_hasParent {t p : Trace} (h : t.HasParent p) : p.height < t.height := by
  rw [t.height_eq]
  exact Nat.lt_succ_of_le (height_le_heightOver h)

/-- No path has more traces. -/
theorem Path.length_items_le {t : Trace} {choices : List Nat} {h : History}
    (path : t.Path choices h) : h.items.length ≤ t.height := by
  induction path with
  | @start t _ =>
    rw [t.height_eq]
    exact Nat.le_add_left ..
  | @through t p i choices h parent path ih =>
    have hlt := height_lt_of_hasParent (hasParent_of_getElem? parent)
    rw [History.items_followedBy, List.length_append, List.length_singleton]
    omega

mutual

/-- Some path has as many. -/
theorem exists_path_length_eq : (t : Trace) →
    ∃ choices h, t.Path choices h ∧ h.items.length = t.height
  | ⟨_, item, []⟩ => ⟨[], ⟨item, []⟩, .start rfl, rfl⟩
  | ⟨tag, item, p :: ps⟩ => by
    obtain ⟨i, q, choices, h, hq, path, hlength⟩ :=
      exists_path_over (p :: ps) (List.cons_ne_nil p ps)
    refine ⟨i :: choices, h.followedBy [item], .through (t := ⟨tag, item, p :: ps⟩) hq path, ?_⟩
    rw [History.items_followedBy, List.length_append, List.length_singleton, hlength, height]

theorem exists_path_over : (ts : List Trace) → ts ≠ [] →
    ∃ (i : Nat) (t : Trace) (choices : List Nat) (h : History),
      ts[i]? = some t ∧ t.Path choices h ∧ h.items.length = heightOver ts
  | [], hne => absurd rfl hne
  | t :: rest, _ => by
    by_cases hle : heightOver rest ≤ t.height
    · obtain ⟨choices, h, path, hlength⟩ := exists_path_length_eq t
      exact ⟨0, t, choices, h, rfl, path, by rw [hlength, heightOver, Nat.max_eq_left hle]⟩
    · have hne : rest ≠ [] := by
        rintro rfl
        exact hle (Nat.zero_le _)
      obtain ⟨i, s, choices, h, hs, path, hlength⟩ := exists_path_over rest hne
      refine ⟨i + 1, s, choices, h, hs, path, ?_⟩
      rw [hlength, heightOver, Nat.max_eq_right (Nat.le_of_not_le hle)]

end

/-- **The height is the length of the longest path.** -/
theorem isGreatest_height (t : Trace) :
    IsGreatest {n | ∃ choices h, t.Path choices h ∧ h.items.length = n} t.height := by
  refine ⟨t.exists_path_length_eq, ?_⟩
  rintro _ ⟨choices, h, path, rfl⟩
  exact path.length_items_le

end Trace

/-! ### Frames on the way -/

/-- The parent of the frame that was entered last. -/
def Frame.LastEntered (f : Frame) (p : Trace) : Prop :=
  1 ≤ f.entered ∧ f.entered ≤ f.trace.parents.length ∧ f.trace.parents[f.entered - 1]? = some p

theorem Frame.lastEntered_advance {f : Frame} {p : Trace} (h : f.nextParent? = some p) :
    f.advance.LastEntered p :=
  ⟨Nat.le_add_left .., (List.getElem?_eq_some_iff.mp h).1, h⟩

namespace Walk

/-- The stack holds a whole path of the trace, the top first, or nothing. -/
structure HoldsPath (t : Trace) (frames : List Frame) : Prop where
  bottom : ∀ f ∈ frames.getLast?, f.trace = t
  chain : frames.IsChain fun above f => f.LastEntered above.trace
  top : ∀ f ∈ frames.head?, f.Begins

/-- The frames head for the second trace, which is to stand above them, from the first at the
bottom. -/
inductive HeadsFor (t : Trace) : List Frame → Trace → Prop
  | start : HeadsFor t [] t
  | through {f : Frame} {below : List Frame} {p : Trace} (frames : HeadsFor t below f.trace)
      (entered : f.LastEntered p) : HeadsFor t (f :: below) p

variable {t s : Trace}

theorem HoldsPath.nil (t : Trace) : HoldsPath t [] :=
  ⟨nofun, .nil, nofun⟩

/-- With a frame for the trace that they head for, the frames are linked from the bottom on. -/
theorem HeadsFor.linked {f : Frame} {below : List Frame} (h : HeadsFor t below f.trace) :
    (∀ g ∈ (f :: below).getLast?, g.trace = t) ∧
      (f :: below).IsChain fun above g => g.LastEntered above.trace := by
  generalize hs : f.trace = s at h
  induction h generalizing f with
  | start =>
    refine ⟨?_, .singleton f⟩
    rintro g ⟨⟩
    exact hs
  | @through g below p frames entered ih =>
    obtain ⟨hbottom, hchain⟩ := ih rfl
    refine ⟨?_, .cons_cons (hs ▸ entered) hchain⟩
    rwa [List.getLast?_cons_cons]

/-- A trace without parents ends the path. -/
theorem HeadsFor.holdsPath {below : List Frame} {f : Frame} (h : HeadsFor t below f.trace)
    (begins : f.Begins) : HoldsPath t (f :: below) := by
  obtain ⟨hbottom, hchain⟩ := h.linked
  refine ⟨hbottom, hchain, ?_⟩
  rintro g ⟨⟩
  exact begins

/-- The frames and the longest path from the trace that they head for make one path. -/
theorem HeadsFor.length_add_height_le {frames : List Frame} (h : HeadsFor t frames s) :
    frames.length + s.height ≤ t.height := by
  induction h with
  | start => rw [List.length_nil, Nat.zero_add]
  | @through f below p frames entered ih =>
    have hlt := Trace.height_lt_of_hasParent (Trace.hasParent_of_getElem? entered.2.2)
    rw [List.length_cons]
    omega

/-- The frames below the top of a whole path head for the trace on top. -/
theorem HoldsPath.headsFor {f : Frame} {below : List Frame} (h : HoldsPath t (f :: below)) :
    HeadsFor t below f.trace := by
  obtain ⟨hbottom, hchain, -⟩ := h
  induction below generalizing f with
  | nil =>
    rw [hbottom f rfl]
    exact .start
  | cons g below ih =>
    obtain ⟨entered, hchain⟩ := List.isChain_cons_cons.mp hchain
    rw [List.getLast?_cons_cons] at hbottom
    exact .through (ih hbottom hchain) entered

theorem HoldsPath.length_le {frames : List Frame} (h : HoldsPath t frames) :
    frames.length ≤ t.height := by
  cases frames with
  | nil => exact Nat.zero_le _
  | cons f below =>
    have hle := h.headsFor.length_add_height_le
    have hpos : 0 < f.trace.height := by
      rw [f.trace.height_eq]
      exact Nat.succ_pos _
    rw [List.length_cons]
    omega

/-! ### Steps and runs -/

/-- **Entering** the trace that the frames head for makes the path whole. -/
theorem HeadsFor.enter : (s : Trace) → {below : List Frame} → HeadsFor t below s →
    HoldsPath t (s.enter below)
  | ⟨tag, item, []⟩, below, h => by
    rw [Trace.enter]
    exact h.holdsPath (f := ⟨⟨tag, item, []⟩, 0⟩) ⟨rfl, rfl⟩
  | ⟨tag, item, p :: ps⟩, below, h => by
    rw [Trace.enter]
    exact HeadsFor.enter p (.through (f := ⟨⟨tag, item, p :: ps⟩, 1⟩) h
      (Frame.lastEntered_advance (f := ⟨⟨tag, item, p :: ps⟩, 0⟩) rfl))

/-- **Turning** makes the path whole again, or drops the last frame. -/
theorem HeadsFor.turn {frames : List Frame} (h : HeadsFor t frames s) :
    HoldsPath t (turn frames).1 := by
  induction h with
  | start => exact .nil t
  | @through f below p frames entered ih =>
    rw [Walk.turn]
    split
    · next q hq =>
      exact HeadsFor.enter q (.through (f := f.advance) frames (Frame.lastEntered_advance hq))
    · exact ih

theorem holdsPath_start (t : Trace) : HoldsPath t (start t).frames :=
  HeadsFor.enter t .start

/-- **A step** drops the top of a whole path and leaves a whole path. -/
theorem HoldsPath.next {w : Walk} {step : Step} (h : HoldsPath t w.frames)
    (hstep : w.next = .ok (some step)) : HoldsPath t step.walk.frames := by
  obtain ⟨frames⟩ := w
  cases frames with
  | nil => cases hstep
  | cons f below =>
    rw [next_cons, if_pos (h.top f rfl)] at hstep
    obtain rfl := Option.some.inj (Except.ok.inj hstep)
    exact h.headsFor.turn

theorem HoldsPath.tour {w : Walk} (h : HoldsPath t w.frames) (k : Nat) :
    HoldsPath t (tour k w).walk.frames := by
  induction k generalizing w with
  | zero => exact h
  | succ k ih =>
    have ready : w.Ready := h.top
    obtain ⟨hover, -⟩ | ⟨step, hstep, -⟩ := ready.next_cases
    · simpa only [Walk.tour, hover] using h
    · simpa only [Walk.tour, hstep] using ih (h.next hstep)

/-- A walk is over after as many steps as there are paths. -/
theorem frames_tour_eq_nil_iff (t : Trace) (k : Nat) :
    (tour k (start t)).walk.frames = [] ↔ t.pathCount ≤ k := by
  have hover : ∀ w : Walk, w.frames = [] ↔ w.remaining = [] := by
    rintro ⟨_ | ⟨f, below⟩⟩
    · exact ⟨fun _ => rfl, fun _ => rfl⟩
    · exact ⟨nofun, nofun⟩
  obtain ⟨-, -, -, hdrop⟩ := (ready_start t).tour k
  rw [hover, hdrop, remaining_start, List.drop_eq_nil_iff, Trace.histories, List.length_map,
    Trace.length_paths]

/-- **The stack after any number of steps** holds a whole path or nothing, and no step has failed.
So the frame that a step drops is one where a history begins, the stack never has more frames than
there are traces on the longest path, and it is empty from the step on that used up the paths. -/
theorem stack_holds_path (t : Trace) (k : Nat) :
    HoldsPath t (tour k (start t)).walk.frames ∧
    (tour k (start t)).failure? = none ∧
    (∃ step?, (tour k (start t)).walk.next = .ok step?) ∧
    (tour k (start t)).walk.frames.length ≤ t.height ∧
    IsGreatest {n | ∃ choices h, t.Path choices h ∧ h.items.length = n} t.height ∧
    ((tour k (start t)).walk.frames = [] ↔ t.pathCount ≤ k) ∧
    ∀ m, k ≤ m → (tour k (start t)).walk.frames = [] → (tour m (start t)).walk.frames = [] := by
  have holds := (holdsPath_start t).tour k
  have ready := ready_start t
  obtain ⟨step?, hstep, -⟩ := ready.next_tour k
  refine ⟨holds, (ready.tour k).1, ⟨step?, hstep⟩, holds.length_le, t.isGreatest_height,
    frames_tour_eq_nil_iff t k, ?_⟩
  intro m hm hover
  rw [frames_tour_eq_nil_iff] at hover ⊢
  exact Nat.le_trans hover hm

end Walk

end GrammarConflict
