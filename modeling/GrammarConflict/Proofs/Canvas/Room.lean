import GrammarConflict.Proofs.Canvas.Dabs

/-!
# The room that marks take

A mark is made unless the canvas has no room for it, and then the error says so (`WantsRoom`).  What
marks there is room for does not depend on the marks made before: these take nothing away, and they
make no list longer than a list may be.  So marks are made one after another just when the canvas
has room for each of them as it is (`Performs.makes_or_wantsRoom`), and on a canvas that is not too
large itself there is room up to a fixed row and column (`hasRoomFor_iff_of_lt`).
-/

namespace GrammarConflict

/-- The error is for want of room: a row cannot be given so many blanks, or there is no room for so
many rows or cells. -/
def CanvasError.WantsRoom (e : CanvasError) : Prop :=
  e.kind = .overflow ∨ e.kind = .memory

namespace Canvas

/-- There is room for each of the marks. -/
def HasRoomFor (canvas : Canvas) (ms : List Mark) : Prop :=
  ∀ m ∈ ms, canvas.Admits m.row m.column

/-- A row and a column that lists are long enough for. -/
def Reachable (r c : Int) : Prop :=
  r + 1 < lengthBound ∧ c + 1 < lengthBound

variable {canvas : Canvas} {m : Mark} {ms ns : List Mark}

theorem hasRoomFor_append :
    canvas.HasRoomFor (ms ++ ns) ↔ canvas.HasRoomFor ms ∧ canvas.HasRoomFor ns :=
  List.forall_mem_append

theorem HasRoomFor.of_markedAll (hms : canvas.HasRoomFor ms)
    (h : (canvas.markedAll ms).HasRoomFor ns) : canvas.HasRoomFor ns := by
  induction ms generalizing canvas with
  | nil => exact h
  | cons m ms ih =>
    obtain ⟨hm, hms⟩ := List.forall_mem_cons.mp hms
    have hrest : (canvas.marked m).HasRoomFor ns := ih (fun n hn => (hms n hn).marked m) h
    exact fun n hn => .of_marked hm (hrest n hn)

/-- The marks that there is room for after others are those that there is room for. -/
theorem hasRoomFor_markedAll_iff (hms : canvas.HasRoomFor ms) :
    (canvas.markedAll ms).HasRoomFor ns ↔ canvas.HasRoomFor ns :=
  ⟨hms.of_markedAll, fun h n hn => (h n hn).markedAll ms⟩

theorem hasRoomFor_of_reachable (h : ∀ m ∈ ms, Reachable m.row m.column) :
    canvas.HasRoomFor ms :=
  fun m hm => ⟨.inr (h m hm).1, .inr (h m hm).2⟩

/-- A canvas whose lists are not too long has room just for what can be reached. -/
theorem hasRoomFor_iff_of_lt (hheight : (canvas.height : Int) < lengthBound)
    (hwidth : ∀ r, (canvas.width r : Int) < lengthBound) :
    canvas.HasRoomFor ms ↔ ∀ m ∈ ms, Reachable m.row m.column := by
  refine ⟨fun h m hm => ?_, hasRoomFor_of_reachable⟩
  obtain ⟨hrow, hcolumn⟩ := h m hm
  have := hwidth m.row
  constructor <;> omega

/-! ### Making marks -/

theorem wantsRoom_of_growthError? {length : Nat} {c : Int} {e : CanvasError}
    (h : growthError? length c = some e) : e.WantsRoom := by
  obtain ⟨-, rfl | rfl⟩ := growthError?_eq_some h
  · exact .inl rfl
  · exact .inr rfl

theorem put_wantsRoom {r c : Nat} (h : ¬ canvas.Admits r c) (ch : Char) :
    ∃ e canvas', put r c ch canvas = .error e canvas' ∧ e.WantsRoom := by
  by_cases hheight : (canvas.rows.size : Int) ≤ r ∧ lengthBound ≤ (r : Int) + 1
  · exact ⟨.noRoom, _, if_pos hheight, .inr rfl⟩
  · have hr : r < (cover #[] canvas.rows r).size := by
      rw [size_cover]
      omega
    have hrow : (cover #[] canvas.rows r).getD r #[] = canvas.row r := getD_cover ..
    obtain ⟨e, he⟩ : ∃ e, growthError? (canvas.row r).size c = some e := by
      rw [← Option.ne_none_iff_exists', ne_eq, growthError?_eq_none_iff]
      intro hcolumn
      refine h ⟨?_, hcolumn⟩
      rw [height]
      omega
    simp only [put, if_neg hheight, SignedIndex.place?_natCast hr, hrow, he]
    exact ⟨e, _, rfl, wantsRoom_of_growthError? he⟩

theorem cross_wantsRoom {r c : Nat} (h : ¬ canvas.Admits r c) (change : Char → Char) :
    ∃ e canvas', cross change r c canvas = .error e canvas' ∧ e.WantsRoom := by
  show ∃ e canvas', EStateM.bind (read r c) _ canvas = .error e canvas' ∧ e.WantsRoom
  rw [EStateM.bind, read_natCast]
  exact put_wantsRoom h _

theorem make_wantsRoom (h : ¬ canvas.Admits m.row m.column) :
    ∃ e canvas', make m canvas = .error e canvas' ∧ e.WantsRoom := by
  obtain ⟨r, c, t⟩ := m
  cases t with
  | write ch => exact put_wantsRoom h ch
  | down => exact cross_wantsRoom h crossDown
  | along => exact cross_wantsRoom h crossAlong

/-- **Marks are made just when there is room for them.** -/
theorem Performs.makes_or_wantsRoom {d : Draw Unit} (h : Performs d ms) (canvas : Canvas) :
    (canvas.HasRoomFor ms ∧ d canvas = .ok () (canvas.markedAll ms)) ∨
    ¬ canvas.HasRoomFor ms ∧ ∃ e canvas', d canvas = .error e canvas' ∧ e.WantsRoom := by
  rw [h]
  clear h
  induction ms generalizing canvas with
  | nil => exact .inl ⟨List.forall_mem_nil _, rfl⟩
  | cons m ms ih =>
    rw [List.forM_cons]
    by_cases hm : canvas.Admits m.row m.column
    · have hfirst : canvas.HasRoomFor [m] := List.forall_mem_singleton.mpr hm
      have hmake : make m canvas = .ok () (canvas.marked m) := makes_make m canvas hfirst
      have hroom : canvas.HasRoomFor (m :: ms) ↔ (canvas.marked m).HasRoomFor ms := by
        rw [HasRoomFor, List.forall_mem_cons, and_iff_right hm]
        exact (hasRoomFor_markedAll_iff hfirst).symm
      show _ ∧ EStateM.bind (make m) _ canvas = _ ∨
        _ ∧ ∃ _ _, EStateM.bind (make m) _ canvas = _ ∧ _
      rw [hroom, EStateM.bind, hmake]
      exact ih (canvas.marked m)
    · obtain ⟨e, canvas', hmake, wants⟩ := make_wantsRoom hm
      refine .inr ⟨fun h => hm (h m List.mem_cons_self), e, canvas', ?_, wants⟩
      show EStateM.bind (make m) _ canvas = _
      rw [EStateM.bind, hmake]

end Canvas

end GrammarConflict
