import GrammarConflict.Proofs.Trace.Nodes

/-!
# Traces of the same shape

Two traces have the same shape when the traces that they reach correspond one to one, each parent to
a parent in the listed order (`Corresponds`).  What becomes of the items is left to a relation; if
it is equality the traces are isomorphic.

A walk through a trace goes the same way through one of the same shape, so the lists of the traces
that are reached correspond as well (`Corresponds.nodes_eq`).
-/

namespace GrammarConflict.Trace

/-- The map takes the traces that are reached from the first trace one to one to those that are
reached from the second, parents to parents, and items as the relation says. -/
structure Corresponds (R : Item → Item → Prop) (t u : Trace) (f : Trace → Trace) : Prop where
  root_eq : f t = u
  bijOn : Set.BijOn f {s | t.Reaches s} {s | u.Reaches s}
  item : ∀ s, t.Reaches s → R s.item (f s).item
  parents_eq : ∀ s, t.Reaches s → (f s).parents = s.parents.map f

/-- The traces that are reached correspond one to one, with equal items. -/
def Isomorphic (t u : Trace) : Prop :=
  ∃ f, Corresponds (· = ·) t u f

namespace Corresponds

variable {R R' : Item → Item → Prop} {t u : Trace} {f : Trace → Trace}

/-- Items may be related in another way that they are related in. -/
theorem mono (h : Corresponds R t u f)
    (hR : ∀ s, t.Reaches s → R s.item (f s).item → R' s.item (f s).item) :
    Corresponds R' t u f :=
  { h with item := fun s hs => hR s hs (h.item s hs) }

theorem reaches (h : Corresponds R t u f) {s : Trace} (hs : t.Reaches s) : u.Reaches (f s) :=
  h.bijOn.mapsTo hs

/-- Among traces with distinct tags, equal tags correspond to equal tags. -/
theorem tag_eq_iff (h : Corresponds R t u f) (tagged : t.Tagged) (tagged' : u.Tagged)
    {s s' : Trace} (hs : t.Reaches s) (hs' : t.Reaches s') :
    (f s).tag = (f s').tag ↔ s.tag = s'.tag := by
  constructor
  · intro htag
    have heq : f s = f s' := tagged' _ _ (h.reaches hs) (h.reaches hs') htag
    rw [h.bijOn.injOn hs hs' heq]
  · intro htag
    rw [tagged s s' hs hs' htag]

/-- Whether a tag has been seen, and what number it has, is told by corresponding traces alike. -/
theorem beq_tag (h : Corresponds R t u f) (tagged : t.Tagged) (tagged' : u.Tagged) {s x : Trace}
    (hx : t.Reaches x) (hs : t.Reaches s) : ((f x).tag == (f s).tag) = (x.tag == s.tag) := by
  rw [beq_eq_beq]
  exact h.tag_eq_iff tagged tagged' hx hs

theorem any_tag_map (h : Corresponds R t u f) (tagged : t.Tagged) (tagged' : u.Tagged)
    {s : Trace} (hs : t.Reaches s) {seen : List Trace} (hseen : ∀ x ∈ seen, t.Reaches x) :
    (seen.map f).any (·.tag == (f s).tag) = seen.any (·.tag == s.tag) := by
  rw [List.any_map, Bool.eq_iff_iff, List.any_eq_true, List.any_eq_true]
  refine exists_congr fun x => and_congr_right fun hx => ?_
  rw [Function.comp_apply, h.beq_tag tagged tagged' (hseen x hx) hs]

theorem numberIn_map (h : Corresponds R t u f) (tagged : t.Tagged) (tagged' : u.Tagged)
    {s : Trace} (hs : t.Reaches s) {order : List Trace} (horder : ∀ x ∈ order, t.Reaches x) :
    numberIn (order.map f) (f s) = numberIn order s := by
  have hbeq (x : Trace) (hx : x ∈ order) : ((f x).tag == (f s).tag) = (x.tag == s.tag) :=
    h.beq_tag tagged tagged' (horder x hx) hs
  unfold numberIn
  rw [List.findIdx_map]
  refine Nat.le_antisymm (List.findIdx_le_findIdx fun x hx heq => ?_)
    (List.findIdx_le_findIdx fun x hx heq => ?_)
  · rwa [Function.comp_apply, hbeq x hx]
  · rwa [Function.comp_apply, hbeq x hx] at heq

end Corresponds

/-! ### The same walk -/

section

variable {R : Item → Item → Prop} {t u : Trace} {f : Trace → Trace}

mutual

/-- **Visiting corresponding traces** finds corresponding traces. -/
theorem visit_map (h : Corresponds R t u f) (tagged : t.Tagged) (tagged' : u.Tagged) :
    (s : Trace) → (seen : List Trace) → t.Reaches s → (∀ x ∈ seen, t.Reaches x) →
      (f s).visit (seen.map f) = (s.visit seen).map f
  | ⟨tag, item, parents⟩, seen, hs, hseen => by
    have hparents := h.parents_eq _ hs
    rw [visit_eq, visit_eq, h.any_tag_map tagged tagged' hs hseen, hparents]
    split
    · rfl
    · rw [← List.map_singleton, ← List.map_append]
      refine visitAll_map h tagged tagged' parents _ (fun p hp => hs.tail hp) fun x hx => ?_
      obtain hx | hx := List.mem_append.mp hx
      · exact hseen x hx
      · exact List.mem_singleton.mp hx ▸ hs

theorem visitAll_map (h : Corresponds R t u f) (tagged : t.Tagged) (tagged' : u.Tagged) :
    (ss : List Trace) → (seen : List Trace) → (∀ s ∈ ss, t.Reaches s) →
      (∀ x ∈ seen, t.Reaches x) → visitAll (ss.map f) (seen.map f) = (visitAll ss seen).map f
  | [], seen, _, _ => by rw [List.map_nil, visitAll, visitAll]
  | s :: rest, seen, hss, hseen => by
    have hs : t.Reaches s := hss s (List.mem_cons_self ..)
    rw [List.map_cons, visitAll, visitAll, visit_map h tagged tagged' s seen hs hseen]
    refine visitAll_map h tagged tagged' rest _ (fun s hs => hss s (List.mem_cons_of_mem _ hs)) ?_
    intro x hx
    obtain ⟨added, heq, visits⟩ := exists_visits s seen
    rw [heq] at hx
    obtain hx | hx := List.mem_append.mp hx
    · exact hseen x hx
    · obtain ⟨_, hmem, hreach⟩ := visits.reached x hx
      exact hs.trans (List.mem_singleton.mp hmem ▸ hreach)

end

/-- **The lists of the traces that are reached** correspond. -/
theorem Corresponds.nodes_eq (h : Corresponds R t u f) (tagged : t.Tagged) (tagged' : u.Tagged) :
    u.nodes = t.nodes.map f := by
  have hvisit := visit_map h tagged tagged' t [] .refl (List.forall_mem_nil _)
  rwa [h.root_eq] at hvisit

end

/-! ### Isomorphism -/

namespace Isomorphic

variable {t u v : Trace}

theorem symm (h : Isomorphic t u) : Isomorphic u t := by
  obtain ⟨f, h⟩ := h
  obtain ⟨g, hinv, hmaps⟩ : ∃ g, Set.InvOn g f {s | t.Reaches s} {s | u.Reaches s} ∧
      Set.MapsTo g {s | u.Reaches s} {s | t.Reaches s} := by
    have : Nonempty Trace := ⟨t⟩
    exact ⟨_, h.bijOn.invOn_invFunOn, h.bijOn.surjOn.mapsTo_invFunOn⟩
  refine ⟨g, ?_, hinv.symm.bijOn hmaps h.bijOn.mapsTo, fun s hs => ?_, fun s hs => ?_⟩
  · rw [← h.root_eq]
    exact hinv.1 .refl
  · have hitem := h.item (g s) (hmaps hs)
    rw [hinv.2 hs] at hitem
    exact hitem.symm
  · have hparents := h.parents_eq (g s) (hmaps hs)
    rw [hinv.2 hs] at hparents
    rw [hparents, List.map_map]
    refine ((List.map_congr_left fun p hp => ?_).trans (List.map_id _)).symm
    exact hinv.1 (.tail (hmaps hs) hp)

theorem trans (h : Isomorphic t u) (h' : Isomorphic u v) : Isomorphic t v := by
  obtain ⟨f, h⟩ := h
  obtain ⟨g, h'⟩ := h'
  refine ⟨g ∘ f, ?_, h'.bijOn.comp h.bijOn, fun s hs => ?_, fun s hs => ?_⟩
  · rw [Function.comp_apply, h.root_eq, h'.root_eq]
  · exact (h.item s hs).trans (h'.item (f s) (h.reaches hs))
  · rw [Function.comp_apply, h'.parents_eq (f s) (h.reaches hs), h.parents_eq s hs, List.map_map]

end Isomorphic

end GrammarConflict.Trace
