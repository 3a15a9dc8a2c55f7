/-!
# Strides

A stride is an arithmetic progression of integers: from a start, by a step, up to but not including
a stop.  A negative step counts down.

A stride may be very long.  `forM` takes its members one at a time, so that an action that fails at
one of them never meets the others; it does what going through the list of them does
(`forM_eq_forM_toList`).
-/

namespace GrammarConflict

/-- Integers from `start` by `step` up to but not including `stop`. -/
structure Stride where
  start : Int
  stop : Int
  step : Int
  step_ne_zero : step ≠ 0

/-- A step of zero leads nowhere. -/
inductive StrideError where
  | zeroStep
deriving DecidableEq, Repr

/-- The words for a stride error. -/
def StrideError.message : StrideError → String
  | .zeroStep => "range() arg 3 must not be zero"

namespace Stride

/-- The stride of a start, a stop and a step. -/
def ofStep (start stop step : Int) : Except StrideError Stride :=
  if h : step = 0 then .error .zeroStep else .ok ⟨start, stop, step, h⟩

/-- The integers from `start` up to but not including `stop`. -/
def between (start stop : Int) : Stride :=
  ⟨start, stop, 1, by decide⟩

/-- The number of members. -/
def size (s : Stride) : Nat :=
  if 0 < s.step then ((s.stop - s.start + s.step - 1) / s.step).toNat
  else ((s.start - s.stop - s.step - 1) / (-s.step)).toNat

/-- The members in order. -/
def toList (s : Stride) : List Int :=
  (List.range s.size).map fun (k : Nat) => s.start + k * s.step

/-- Acts on so many integers, from `i` by `step`. -/
@[specialize]
def forMFrom {m : Type → Type} [Monad m] (f : Int → m Unit) (step : Int) : Nat → Int → m Unit
  | 0, _ => pure ()
  | n + 1, i => do
    f i
    forMFrom f step n (i + step)

/-- Acts on one member after another. -/
@[specialize]
def forM {m : Type → Type} [Monad m] (s : Stride) (f : Int → m Unit) : m Unit :=
  forMFrom f s.step s.size s.start

theorem forMFrom_eq {m : Type → Type} [Monad m] (f : Int → m Unit) (step : Int) (n : Nat)
    (i : Int) :
    forMFrom f step n i = ForM.forM ((List.range n).map fun (k : Nat) => i + k * step) f := by
  induction n generalizing i with
  | zero => rfl
  | succ n ih =>
    have shifted : ∀ k : Nat, i + step + k * step = i + (k + 1 : Nat) * step := by
      intro k
      rw [Int.natCast_add, Int.add_mul]
      omega
    rw [forMFrom, ih, List.range_succ_eq_map, List.map_cons, List.forM_cons, List.map_map]
    simp [shifted, Function.comp_def]

/-- Acting on the members of a stride is acting on the list of them. -/
theorem forM_eq_forM_toList {m : Type → Type} [Monad m] (s : Stride) (f : Int → m Unit) :
    s.forM f = ForM.forM s.toList f :=
  forMFrom_eq f s.step s.size s.start

/-- Between two numbers that count from the start lie those from the one up to the other. -/
theorem toList_between (a b : Nat) :
    (between a b).toList = (List.range' a (b - a)).map Nat.cast := by
  have hsize : (between a b).size = b - a := by
    have hpos : (0 : Int) < 1 := by decide
    simp only [size, between, if_pos hpos, Int.ediv_one]
    omega
  rw [toList, hsize, List.range'_eq_map_range, List.map_map]
  apply List.map_congr_left
  intro k _
  show (a : Int) + k * 1 = ((a + k : Nat) : Int)
  omega

end Stride

end GrammarConflict
