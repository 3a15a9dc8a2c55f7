import Mathlib.Data.List.Forall2

/-!
# Computations that may fail

What a sequence of steps gives when each may fail: it succeeds when all of them do, and fails on the
first that does.  With `bind_eq_ok_iff` and `bind_eq_error_iff` a `do` block is taken apart without
a look into how steps are put together; `mapM_eq_ok_iff` and `mapM_eq_error_iff` do the same for a
list.  `FailsOnlyWith` says what the errors of a computation are like, whatever its steps.

Steps that change a state keep what they changed before one of them fails: `forM_apply_eq_error_iff`
names that step and the state it was tried in.
-/

namespace GrammarConflict

section

variable {ε α β : Type} {x : Except ε α} {f : α → Except ε β}

theorem bind_eq_ok_iff {b : β} : x >>= f = .ok b ↔ ∃ a, x = .ok a ∧ f a = .ok b := by
  cases x <;> simp [bind, Except.bind]

theorem bind_eq_error_iff {e : ε} :
    x >>= f = .error e ↔ x = .error e ∨ ∃ a, x = .ok a ∧ f a = .error e := by
  cases x <;> simp [bind, Except.bind]

end

theorem pure_eq_ok_iff {ε α : Type} {a b : α} : (pure a : Except ε α) = .ok b ↔ a = b :=
  ⟨Except.ok.inj, congrArg _⟩

theorem mapError_eq_ok_iff {ε ε' α : Type} {f : ε → ε'} {x : Except ε α} {a : α} :
    x.mapError f = .ok a ↔ x = .ok a := by
  cases x <;> simp [Except.mapError]

theorem mapError_eq_error_iff {ε ε' α : Type} {f : ε → ε'} {x : Except ε α} {e' : ε'} :
    x.mapError f = .error e' ↔ ∃ e, x = .error e ∧ f e = e' := by
  cases x <;> simp [Except.mapError]

/-! ### Lists -/

theorem mapM_eq_ok_iff {ε α β : Type} {f : α → Except ε β} {xs : List α} {ys : List β} :
    xs.mapM f = .ok ys ↔ List.Forall₂ (fun x y => f x = .ok y) xs ys := by
  induction xs generalizing ys with
  | nil => rw [List.mapM_nil, pure_eq_ok_iff, List.forall₂_nil_left_iff, eq_comm]
  | cons x xs ih =>
    simp only [List.mapM_cons, bind_eq_ok_iff, pure_eq_ok_iff, ih, List.forall₂_cons_left_iff]
    constructor
    · rintro ⟨y, hy, ys, hys, rfl⟩
      exact ⟨y, ys, hy, hys, rfl⟩
    · rintro ⟨y, ys, hy, hys, rfl⟩
      exact ⟨y, hy, ys, hys, rfl⟩

/-- A list fails as the first of its members that fails. -/
theorem mapM_eq_error_iff {ε α β : Type} {f : α → Except ε β} {xs : List α} {e : ε} :
    xs.mapM f = .error e ↔ ∃ before x after, xs = before ++ x :: after ∧
      (∀ y ∈ before, ∃ b, f y = .ok b) ∧ f x = .error e := by
  induction xs with
  | nil => simp [pure, Except.pure]
  | cons x xs ih =>
    simp only [List.mapM_cons, bind_eq_error_iff, ih]
    constructor
    · rintro (hx | ⟨b, hb, ⟨before, y, after, rfl, hbefore, hy⟩ | ⟨_, _, hpure⟩⟩)
      · exact ⟨[], x, xs, rfl, List.forall_mem_nil _, hx⟩
      · exact ⟨x :: before, y, after, rfl, List.forall_mem_cons.mpr ⟨⟨b, hb⟩, hbefore⟩, hy⟩
      · cases hpure
    · rintro ⟨before, y, after, heq, hbefore, hy⟩
      cases before with
      | nil =>
        obtain ⟨rfl, rfl⟩ := List.cons.inj heq
        exact .inl hy
      | cons z before =>
        obtain ⟨rfl, rfl⟩ := List.cons.inj heq
        obtain ⟨⟨b, hb⟩, hbefore⟩ := List.forall_mem_cons.mp hbefore
        exact .inr ⟨b, hb, .inl ⟨before, y, after, rfl, hbefore, hy⟩⟩

/-- Related lists exist just when every member is related to something. -/
theorem exists_forall₂_iff {α β : Type} {R : α → β → Prop} {xs : List α} :
    (∃ ys, List.Forall₂ R xs ys) ↔ ∀ x ∈ xs, ∃ y, R x y := by
  induction xs with
  | nil => simp
  | cons x xs ih =>
    rw [List.forall_mem_cons, ← ih]
    constructor
    · rintro ⟨_, _ | ⟨hy, hys⟩⟩
      exact ⟨⟨_, hy⟩, _, hys⟩
    · rintro ⟨⟨y, hy⟩, ys, hys⟩
      exact ⟨y :: ys, .cons hy hys⟩

/-! ### Errors of one kind -/

/-- The computation fails with such errors only, if it fails. -/
def FailsOnlyWith {ε α : Type} (p : ε → Prop) (x : Except ε α) : Prop :=
  ∀ e, x = .error e → p e

namespace FailsOnlyWith

variable {ε α β : Type} {p : ε → Prop}

theorem ok (a : α) : FailsOnlyWith p (.ok a) :=
  nofun

theorem error {e : ε} (h : p e) : FailsOnlyWith p (.error e : Except ε α) := by
  rintro _ ⟨⟩
  exact h

/-- A sequence of steps fails as its steps do.  The second has to be looked at only where the first
succeeds. -/
theorem bind {x : Except ε α} {f : α → Except ε β} (hx : FailsOnlyWith p x)
    (hf : ∀ a, x = .ok a → FailsOnlyWith p (f a)) : FailsOnlyWith p (x >>= f) := by
  intro e h
  rcases bind_eq_error_iff.mp h with hxe | ⟨a, ha, hfe⟩
  · exact hx e hxe
  · exact hf a ha e hfe

theorem mapM {f : α → Except ε β} {xs : List α} (hf : ∀ x ∈ xs, FailsOnlyWith p (f x)) :
    FailsOnlyWith p (xs.mapM f) := by
  intro e h
  obtain ⟨before, x, after, rfl, -, hx⟩ := mapM_eq_error_iff.mp h
  exact hf x (List.mem_append_right _ List.mem_cons_self) e hx

theorem mapError {ε' : Type} {q : ε' → Prop} {f : ε → ε'} {x : Except ε α}
    (hf : ∀ e, q (f e)) : FailsOnlyWith q (x.mapError f) := by
  intro e h
  obtain ⟨e', -, rfl⟩ := mapError_eq_error_iff.mp h
  exact hf e'

end FailsOnlyWith

/-! ### With a state -/

section

variable {ε σ α β : Type} {x : EStateM ε σ α} {f : α → EStateM ε σ β} {s s' : σ}

theorem bind_apply_eq_ok_iff {b : β} :
    (x >>= f) s = .ok b s' ↔ ∃ a s₁, x s = .ok a s₁ ∧ f a s₁ = .ok b s' := by
  simp only [bind, EStateM.bind]
  cases x s <;> simp

theorem bind_apply_eq_error_iff {e : ε} :
    (x >>= f) s = .error e s' ↔
      x s = .error e s' ∨ ∃ a s₁, x s = .ok a s₁ ∧ f a s₁ = .error e s' := by
  simp only [bind, EStateM.bind]
  cases x s <;> simp

end

/-- A list of steps fails at the first of them that fails, after those before it. -/
theorem forM_apply_eq_error_iff {ε σ α : Type} {xs : List α} {f : α → EStateM ε σ Unit} {s s' : σ}
    {e : ε} :
    forM xs f s = .error e s' ↔ ∃ before x after s₁, xs = before ++ x :: after ∧
      forM before f s = .ok () s₁ ∧ f x s₁ = .error e s' := by
  induction xs generalizing s with
  | nil => simp [pure, EStateM.pure]
  | cons y ys ih =>
    rw [List.forM_cons, bind_apply_eq_error_iff]
    simp only [ih]
    constructor
    · rintro (hy | ⟨⟨⟩, s₁, hy, before, x, after, s₂, rfl, hbefore, hx⟩)
      · exact ⟨[], y, ys, s, rfl, rfl, hy⟩
      · refine ⟨y :: before, x, after, s₂, rfl, ?_, hx⟩
        rw [List.forM_cons, bind_apply_eq_ok_iff]
        exact ⟨(), s₁, hy, hbefore⟩
    · rintro ⟨before, x, after, s₁, heq, hbefore, hx⟩
      cases before with
      | nil =>
        obtain ⟨rfl, rfl⟩ := List.cons.inj heq
        cases hbefore
        exact .inl hx
      | cons z before =>
        obtain ⟨rfl, rfl⟩ := List.cons.inj heq
        rw [List.forM_cons, bind_apply_eq_ok_iff] at hbefore
        obtain ⟨⟨⟩, s₂, hy, hbefore⟩ := hbefore
        exact .inr ⟨(), s₂, hy, before, x, after, s₁, rfl, hbefore, hx⟩

end GrammarConflict
