/-!
# Signed indices

An index into a list of `n` members may be negative: it then counts from the end, so that `-1` is
the last member.  As a place (`place?`) an index has to meet a member; as a cut (`cut`) any index
will do, for one beyond an end stands for that end.

An index that meets no member is out of range, or not even a word of 64 bits (`Miss`).  One that
meets a member is always a word, since no list has so many members.
-/

namespace GrammarConflict.SignedIndex

/-- The place of a member in a list of length `n`. -/
def place? (n : Nat) (i : Int) : Option Nat :=
  let k := if i < 0 then n + i else i
  if 0 ≤ k ∧ k < n then some k.toNat else none

/-- The number of members before a cut. -/
def cut (n : Nat) (i : Int) : Nat :=
  if i < 0 then (n + i).toNat else min i.toNat n

/-- The members before a cut. -/
def upTo {α : Type} (xs : List α) (i : Int) : List α :=
  xs.take (cut xs.length i)

/-- The members after a cut. -/
def since {α : Type} (xs : List α) (i : Int) : List α :=
  xs.drop (cut xs.length i)

/-- The member at a place. -/
def get? {α : Type} (xs : List α) (i : Int) : Option α :=
  (place? xs.length i).bind (xs[·]?)

/-! ### Indices that meet no member -/

/-- The first number that is too large for a signed word of 64 bits. -/
def wordBound : Int := Nat.pow 2 63

/-- Whether a number is a signed word of 64 bits. -/
def fitsWord (i : Int) : Bool :=
  -wordBound ≤ i ∧ i < wordBound

/-- How an index fails to meet a member. -/
inductive Miss where
  | outOfRange
  | notAWord
deriving DecidableEq, Repr

/-- How an index fails that meets no member. -/
def missOf (i : Int) : Miss :=
  if fitsWord i then .outOfRange else .notAWord

/-- The words for a number that is too large for an index or an amount. -/
def notAWordMessage : String :=
  "cannot fit 'int' into an index-sized integer"

/-- The words for reading at an index that meets no member. -/
def Miss.message : Miss → String
  | .outOfRange => "list index out of range"
  | .notAWord => notAWordMessage

/-- The words for storing at an index that meets no member. -/
def Miss.storeMessage : Miss → String
  | .outOfRange => "list assignment index out of range"
  | .notAWord => notAWordMessage

/-- An index meets no member when it lies beyond one of the ends. -/
theorem place?_eq_none_iff {n : Nat} {i : Int} : place? n i = none ↔ i < -n ∨ n ≤ i := by
  simp only [place?, ite_eq_right_iff, reduceCtorEq, imp_false]
  split <;> omega

/-- A place is that of a member. -/
theorem lt_of_place?_eq_some {n k : Nat} {i : Int} (h : place? n i = some k) : k < n := by
  simp only [place?, Option.ite_none_right_eq_some, Option.some.injEq] at h
  split at h <;> omega

/-! ### Indices that count from the start -/

theorem cut_natCast {n k : Nat} (h : k ≤ n) : cut n k = k := by
  have : ¬ (k : Int) < 0 := by omega
  simp [cut, this, h]

theorem place?_natCast {n k : Nat} (h : k < n) : place? n k = some k := by
  simp only [place?]
  have : ¬ (k : Int) < 0 := by omega
  simp [this, h]

theorem get?_natCast {α : Type} (xs : List α) (k : Nat) : get? xs k = xs[k]? := by
  by_cases h : k < xs.length
  · rw [get?, place?_natCast h, Option.bind_some]
  · have hnone : place? xs.length k = none := by
      simp only [place?, ite_eq_right_iff]
      omega
    rw [get?, hnone, Option.bind_none, List.getElem?_eq_none (by omega)]

theorem upTo_natCast {α : Type} {xs : List α} {k : Nat} (h : k ≤ xs.length) :
    upTo xs k = xs.take k := by
  rw [upTo, cut_natCast h]

theorem since_natCast {α : Type} {xs : List α} {k : Nat} (h : k ≤ xs.length) :
    since xs k = xs.drop k := by
  rw [since, cut_natCast h]

/-- A cut loses nothing. -/
theorem upTo_append_since {α : Type} (xs : List α) (i : Int) : upTo xs i ++ since xs i = xs :=
  List.take_append_drop ..

end GrammarConflict.SignedIndex
