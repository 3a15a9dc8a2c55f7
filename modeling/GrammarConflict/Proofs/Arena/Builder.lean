import GrammarConflict.Proofs.Arena.Table
import GrammarConflict.Proofs.Attempt
import Mathlib.Data.Fintype.Card

/-!
# Building an arena

Building a node keeps the table sound, extends it by the node, and puts none of the nodes that are
still open into it (`buildNode_ok`).  If it fails then on a node that is its own ancestor and that
the node leads to (`buildNode_error`): the open nodes are all ancestors of the one being built, and
with no room left they are all the nodes there are.

So an arena has a trace just when nothing that its root reaches is its own ancestor
(`exists_build_iff`), and the trace is the root's in a sound table (`lookup_root_of_build`).
-/

namespace GrammarConflict.Arena

variable {arena : Arena}

/-! ### Success -/

/-- What building a node has done to the table when it succeeds. -/
structure Builds (arena : Arena) (opened : List (Fin arena.size)) (i : Fin arena.size)
    (built : Built arena.size) (t : Trace) (built' : Built arena.size) : Prop where
  sound : Sound arena built'
  larger : Extends built built'
  lookup_eq : built'.lookup i = some t
  opened_none : ∀ o ∈ opened, built.lookup o = none → built'.lookup o = none
  reached : ∀ j s, built'.lookup j = some s → built.lookup j = some s ∨ arena.Reaches i j

/-- Building several nodes, if building one node does what it should. -/
theorem buildAll_ok {opened : List (Fin arena.size)}
    {build : Fin arena.size → Built arena.size → Except LoadError (Trace × Built arena.size)}
    (hbuild : ∀ {i built t built'}, Sound arena built → build i built = .ok (t, built') →
      Builds arena opened i built t built')
    {indices : List (Fin arena.size)} {built built' : Built arena.size} {ts : List Trace}
    (sound : Sound arena built) (h : buildAll build indices built = .ok (ts, built')) :
    Sound arena built' ∧ Extends built built' ∧
      indices.map (List.lookup · built') = ts.map some ∧
      (∀ o ∈ opened, built.lookup o = none → built'.lookup o = none) ∧
      ∀ j s, built'.lookup j = some s →
        built.lookup j = some s ∨ ∃ i ∈ indices, arena.Reaches i j := by
  induction indices generalizing built ts with
  | nil =>
    obtain ⟨rfl, rfl⟩ := Prod.mk.inj (Except.ok.inj h)
    exact ⟨sound, fun _ _ => id, rfl, fun _ _ => id, fun _ _ => .inl⟩
  | cons i indices ih =>
    simp only [buildAll, bind_eq_ok_iff] at h
    obtain ⟨⟨t, built₁⟩, hi, ⟨ts₁, built₂⟩, hrest, heq⟩ := h
    obtain ⟨rfl, rfl⟩ := Prod.mk.inj (Except.ok.inj heq)
    have first := hbuild sound hi
    obtain ⟨hsound, hlarger, hmap, hnone, hreached⟩ := ih first.sound hrest
    refine ⟨hsound, fun j s hj => hlarger j s (first.larger j s hj), ?_,
      fun o ho hfresh => hnone o ho (first.opened_none o ho hfresh), fun j s hj => ?_⟩
    · rw [List.map_cons, List.map_cons, hmap, hlarger i t first.lookup_eq]
    · obtain hj | ⟨k, hk, hkj⟩ := hreached j s hj
      · exact (first.reached j s hj).imp_right fun hij => ⟨i, List.mem_cons_self .., hij⟩
      · exact .inr ⟨k, List.mem_cons_of_mem _ hk, hkj⟩

theorem buildNode_ok {room : Nat} {opened : List (Fin arena.size)} {i : Fin arena.size}
    {built built' : Built arena.size} {t : Trace} (sound : Sound arena built)
    (h : arena.buildNode room opened i built = .ok (t, built')) :
    Builds arena opened i built t built' := by
  induction room generalizing opened i built built' t with
  | zero => cases h
  | succ room ih =>
    rw [buildNode] at h
    split at h
    · next found =>
      obtain ⟨rfl, rfl⟩ := Prod.mk.inj (Except.ok.inj h)
      exact ⟨sound, fun _ _ => id, found, fun _ _ => id, fun _ _ => .inl⟩
    · next fresh =>
      split at h
      · cases h
      · next hopened =>
        simp only [bind_eq_ok_iff] at h
        obtain ⟨⟨parents, built₁⟩, hparents, heq⟩ := h
        obtain ⟨rfl, rfl⟩ := Prod.mk.inj (Except.ok.inj heq)
        obtain ⟨hsound, hlarger, hmap, hnone, hreached⟩ := buildAll_ok ih sound hparents
        -- The node was open while its parents were built, so it is still new to the table.
        have fresh₁ : built₁.lookup i = none := hnone i (List.mem_cons_self ..) fresh
        refine ⟨.cons hsound fresh₁ hmap, fun j s hj => extends_cons fresh₁ j s (hlarger j s hj),
          List.lookup_cons_self, fun o ho hfresh => ?_, fun j s hj => ?_⟩
        · have hne : o ≠ i := by
            rintro rfl
            exact hopened ho
          rw [lookup_cons_of_ne hne]
          exact hnone o (List.mem_cons_of_mem _ ho) hfresh
        · by_cases hji : j = i
          · exact .inr (hji ▸ .refl)
          · rw [lookup_cons_of_ne hji] at hj
            exact (hreached j s hj).imp_right fun ⟨p, hp, hpj⟩ => .head hp hpj

/-! ### Failure -/

/-- If building several nodes fails then on one of them. -/
theorem buildAll_error
    {build : Fin arena.size → Built arena.size → Except LoadError (Trace × Built arena.size)}
    {indices : List (Fin arena.size)} {built : Built arena.size} {e : LoadError}
    (h : buildAll build indices built = .error e) :
    ∃ i ∈ indices, ∃ built₁, build i built₁ = .error e := by
  induction indices generalizing built with
  | nil => cases h
  | cons i indices ih =>
    simp only [buildAll, bind_eq_error_iff] at h
    obtain hi | ⟨⟨t, built₁⟩, -, hrest | ⟨_, -, heq⟩⟩ := h
    · exact ⟨i, List.mem_cons_self .., built, hi⟩
    · obtain ⟨j, hj, found⟩ := ih hrest
      exact ⟨j, List.mem_cons_of_mem _ hj, found⟩
    · cases heq

/-- As many different nodes as there are are all of them. -/
theorem mem_of_nodup_of_length_eq {n : Nat} {opened : List (Fin n)} (nodup : opened.Nodup)
    (hlength : opened.length = n) (i : Fin n) : i ∈ opened := by
  by_contra hi
  have hle := (List.nodup_cons.mpr ⟨hi, nodup⟩).length_le_card
  rw [Fintype.card_fin, List.length_cons] at hle
  omega

/-- **Why building fails.**  The node named is its own ancestor, and the one being built leads to
it. -/
theorem buildNode_error {room : Nat} {opened : List (Fin arena.size)} {i : Fin arena.size}
    {built : Built arena.size} {e : LoadError} (nodup : opened.Nodup)
    (hroom : opened.length + room = arena.size) (hopened : ∀ o ∈ opened, arena.Ancestor o i)
    (h : arena.buildNode room opened i built = .error e) :
    ∃ k : Fin arena.size, e = .ownAncestor k ∧ arena.Reaches i k ∧ arena.Ancestor k k := by
  induction room generalizing opened i built with
  | zero =>
    -- No room is left, so every node is open.
    have hi : i ∈ opened := mem_of_nodup_of_length_eq nodup hroom i
    exact ⟨i, (Except.error.inj h).symm, .refl, hopened i hi⟩
  | succ room ih =>
    rw [buildNode] at h
    split at h
    · cases h
    · split at h
      · next hi => exact ⟨i, (Except.error.inj h).symm, .refl, hopened i hi⟩
      · next hi =>
        simp only [bind_eq_error_iff] at h
        obtain hparents | ⟨_, -, heq⟩ := h
        · obtain ⟨p, hp, built₁, hfail⟩ := buildAll_error hparents
          have hancestors : ∀ o ∈ i :: opened, arena.Ancestor o p := by
            rintro o (_ | ⟨_, ho⟩)
            · exact .single hp
            · exact (hopened o ho).tail hp
          obtain ⟨k, rfl, hk, hcycle⟩ := ih (List.nodup_cons.mpr ⟨hi, nodup⟩)
            (by rw [List.length_cons]; omega) hancestors hfail
          exact ⟨k, rfl, .head hp hk, hcycle⟩
        · cases heq

/-! ### The whole arena -/

/-- The trace of an arena is its root's in a sound table, which holds only what the root reaches. -/
theorem lookup_root_of_build {t : Trace} (h : arena.build = .ok t) :
    ∃ built, Sound arena built ∧ built.lookup arena.root = some t ∧
      ∀ j s, built.lookup j = some s → arena.Reaches arena.root j := by
  simp only [build, bind_eq_ok_iff] at h
  obtain ⟨⟨t', built⟩, hbuild, heq⟩ := h
  obtain rfl := Except.ok.inj heq
  have done := buildNode_ok .nil hbuild
  exact ⟨built, done.sound, done.lookup_eq, fun j s hj => (done.reached j s hj).resolve_left nofun⟩

/-- **An arena has a trace** just when nothing that its root reaches is its own ancestor. -/
theorem exists_build_iff :
    (∃ t, arena.build = .ok t) ↔ ∀ i, arena.Reaches arena.root i → ¬ arena.Ancestor i i := by
  constructor
  · rintro ⟨t, ht⟩ i hi
    obtain ⟨built, sound, hroot, -⟩ := lookup_root_of_build ht
    obtain ⟨s, -, hs⟩ := sound.exists_lookup_of_reaches hroot hi
    exact sound.not_ancestor_self hs
  · intro hacyclic
    cases hbuild : arena.buildNode arena.size [] arena.root [] with
    | ok done => exact ⟨done.1, by rw [build, hbuild]; rfl⟩
    | error e =>
      obtain ⟨k, -, hk, hcycle⟩ := buildNode_error .nil (Nat.zero_add _) nofun hbuild
      exact absurd hcycle (hacyclic k hk)

end GrammarConflict.Arena
