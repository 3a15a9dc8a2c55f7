import GrammarConflict.Trace

/-!
# Walking through the histories of a trace

A history of a trace is a choice of one parent after another up to a trace without parents.  A walk
goes through all of them one at a time, and holds only the one it is at: a stack of frames, one for
each trace on the way, the earliest on top.  A frame knows which of its parents is next.  The choice
nearest the top turns over fastest, like the last wheel of an odometer.

`Walk.next` gives the items of the history the walk is at, and the walk at the one after it.  The
frames pushed and popped on the way are its moves.  A step begins by dropping the frame on top, and
checks that it was one where a history begins; if it was not, the step fails (`NotALeaf`).
-/

namespace GrammarConflict

/-- A trace on the way, and the number of its parents already entered. -/
structure Frame where
  trace : Trace
  entered : Nat

/-- The parent to enter next. -/
def Frame.nextParent? (f : Frame) : Option Trace :=
  f.trace.parents[f.entered]?

/-- The frame with one more parent entered. -/
def Frame.advance (f : Frame) : Frame :=
  ⟨f.trace, f.entered + 1⟩

/-- A frame where a history begins: its trace has no parents, and none has been entered. -/
def Frame.Begins (f : Frame) : Prop :=
  f.trace.parents = [] ∧ f.entered = 0

instance (f : Frame) : Decidable f.Begins :=
  decidable_of_iff (f.trace.parents.isEmpty ∧ f.entered = 0) (by simp [Frame.Begins])

/-- The frame in messages. -/
def Frame.text (f : Frame) : String :=
  "_Frame(node=" ++ f.trace.summary ++ ", index=" ++ toString f.entered ++ ")"

/-- A change of the stack.  The depth is the number of frames after it. -/
inductive Move where
  | push (item : Item) (depth : Nat)
  | pop (item : Item) (depth : Nat)

/-- The words for a move. -/
def Move.message : Move → String
  | .push item depth => "push " ++ item.text ++ " (depth " ++ toString depth ++ ")"
  | .pop item depth => "pop " ++ item.text ++ " (depth " ++ toString depth ++ ")"

namespace Trace

/-- Enters a trace and its first parent, and the first parent of that, to the end. -/
def enter : Trace → List Frame → List Frame
  | ⟨tag, item, []⟩, below => ⟨⟨tag, item, []⟩, 0⟩ :: below
  | ⟨tag, item, p :: ps⟩, below => p.enter (⟨⟨tag, item, p :: ps⟩, 1⟩ :: below)

/-- The moves of entering a trace that comes to stand at the given depth. -/
def pushes : Trace → Nat → List Move
  | ⟨_, item, []⟩, depth => [.push item depth]
  | ⟨_, item, p :: _⟩, depth => .push item depth :: p.pushes (depth + 1)

end Trace

/-- A walk, as the stack of its frames, the top first.  A walk without frames is over. -/
structure Walk where
  frames : List Frame

/-- The items of a history, the earliest first. -/
structure History where
  first : Item
  later : List Item

namespace Walk

/-- The walk at the first history of a trace. -/
def start (t : Trace) : Walk :=
  ⟨t.enter []⟩

/-- The moves of starting a walk.  The trace itself is not pushed. -/
def startMoves (t : Trace) : List Move :=
  (t.pushes 1).tail

/-- Drops the frames that have no parent left to enter, and enters the next parent of the first that
has. -/
def turn : List Frame → List Frame × List Move
  | [] => ([], [])
  | f :: below =>
    match f.nextParent? with
    | some p => (p.enter (f.advance :: below), p.pushes (below.length + 2))
    | none =>
      let (frames, moves) := turn below
      (frames, .pop f.trace.item below.length :: moves)

/-- What one step of a walk gives: the history that it was at, the walk at the one after it, and the
moves in between. -/
structure Step where
  history : History
  walk : Walk
  moves : List Move

/-- The step from a frame on top of others. -/
def Step.leaving (f : Frame) (below : List Frame) : Step :=
  let (frames, moves) := turn below
  ⟨⟨f.trace.item, below.map (·.trace.item)⟩, ⟨frames⟩, moves⟩

/-- The frame that was dropped is not one where a history begins. -/
structure NotALeaf where
  top : Frame
  /-- The walk without the frame. -/
  walk : Walk

/-- The words for a frame where no history begins. -/
def NotALeaf.message (e : NotALeaf) : String :=
  e.top.text ++ " is not a leaf"

/-- One step of a walk, unless it is over. -/
def next (w : Walk) : Except NotALeaf (Option Step) :=
  match w.frames with
  | [] => .ok none
  | f :: below => if f.Begins then .ok (some (.leaving f below)) else .error ⟨f, ⟨below⟩⟩

theorem next_cons (f : Frame) (below : List Frame) :
    next ⟨f :: below⟩ = if f.Begins then .ok (some (.leaving f below)) else .error ⟨f, ⟨below⟩⟩ :=
  rfl

/-- What several steps of a walk give. -/
structure Tour where
  histories : List History
  walk : Walk
  moves : List Move
  /-- Why the last step failed, if it did. -/
  failure? : Option NotALeaf

/-- At most so many steps, up to the first that fails. -/
def tour : Nat → Walk → Tour
  | 0, w => ⟨[], w, [], none⟩
  | n + 1, w =>
    match w.next with
    | .error e => ⟨[], e.walk, [], some e⟩
    | .ok none => ⟨[], w, [], none⟩
    | .ok (some step) =>
      let rest := tour n step.walk
      { rest with histories := step.history :: rest.histories, moves := step.moves ++ rest.moves }

/-! ### To the end -/

end Walk

mutual

/-- The number of traces in the unfolded trace, shared ones counted each time. -/
def Trace.bulk : Trace → Nat
  | ⟨_, _, parents⟩ => 1 + Trace.bulkAll parents

/-- The number of traces in several unfolded traces. -/
def Trace.bulkAll : List Trace → Nat
  | [] => 0
  | t :: rest => t.bulk + Trace.bulkAll rest

end

/-- What a frame has still to enter, and the frame itself. -/
def Frame.bulk (f : Frame) : Nat :=
  1 + Trace.bulkAll (f.trace.parents.drop f.entered)

namespace Walk

/-- What the frames have still to enter, and the frames themselves. -/
def bulkOf : List Frame → Nat
  | [] => 0
  | f :: below => f.bulk + bulkOf below

theorem bulkOf_enter : (t : Trace) → (below : List Frame) →
    bulkOf (t.enter below) = t.bulk + bulkOf below
  | ⟨_, _, []⟩, below => by simp [Trace.enter, bulkOf, Frame.bulk, Trace.bulk, Trace.bulkAll]
  | ⟨_, _, p :: ps⟩, below => by
    rw [Trace.enter, bulkOf_enter p]
    simp [bulkOf, Frame.bulk, Trace.bulk, Trace.bulkAll]
    omega

/-- Entering a parent moves it from what its frame has still to enter to the frames above. -/
theorem bulk_advance {f : Frame} {p : Trace} (h : f.nextParent? = some p) :
    p.bulk + f.advance.bulk = f.bulk := by
  obtain ⟨hlt, hp⟩ := List.getElem?_eq_some_iff.1 h
  have := List.drop_eq_getElem_cons hlt
  simp only [Frame.bulk, Frame.advance, this, Trace.bulkAll, hp]
  omega

theorem bulkOf_turn_le (frames : List Frame) : bulkOf (turn frames).1 ≤ bulkOf frames := by
  induction frames with
  | nil => simp [turn]
  | cons f below ih =>
    rw [turn]
    split
    · next p hp =>
      have := bulk_advance hp
      simp only [bulkOf_enter, bulkOf]
      omega
    · simp only [bulkOf] at ih ⊢
      omega

/-- A step leaves less to enter. -/
theorem bulkOf_next_lt {w : Walk} {step : Step} (h : w.next = .ok (some step)) :
    bulkOf step.walk.frames < bulkOf w.frames := by
  obtain ⟨frames⟩ := w
  cases frames with
  | nil => simp [next] at h
  | cons f below =>
    rw [next_cons] at h
    split at h
    · obtain rfl := Option.some.inj (Except.ok.inj h)
      have := bulkOf_turn_le below
      simp only [Step.leaving, bulkOf, Frame.bulk] at this ⊢
      omega
    · cases h

/-- All the histories from the one that the walk is at to the last. -/
def rest (w : Walk) : Except NotALeaf (List History) :=
  match _h : w.next with
  | .error e => .error e
  | .ok none => .ok []
  | .ok (some step) => step.walk.rest.map (step.history :: ·)
termination_by bulkOf w.frames
decreasing_by exact bulkOf_next_lt _h

end Walk

end GrammarConflict
