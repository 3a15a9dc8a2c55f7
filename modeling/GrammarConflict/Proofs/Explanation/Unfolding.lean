import GrammarConflict.Proofs.Dump.Explained

/-!
# An explanation depends on the unfolding alone

A trace file may write one history down in many ways: its nodes and rules may be numbered otherwise,
a rule may be there twice or for nothing, and two nodes that lead to the same may be one node or
two.  Its `Unfolding` forgets all that: it is the tree of what the items show, in which nothing is
shared.  Every file that is loaded has one unfolding (`Represents.unfolds_iff`), and files with the
same unfolding are explained alike (`Trace.explain_alike_of_unfoldsTo`).
-/

namespace GrammarConflict

/-- A trace without sharing: what the rule of the item shows, the position in it, and the
unfoldings of the parents in order. -/
structure Unfolding where
  face : Rule.Face
  position : Int
  parents : List Unfolding

/-! ### The unfolding of a trace file -/

/-- The node of a number unfolds to a tree: the tree has the item of its record, and the parents
listed there unfold to the trees above. -/
inductive Unfolds (ruleRecords nodeRecords : List Value) : Nat → Unfolding → Prop
  | node {i : Nat} {record : Value} {item : Item} {parents : List Nat} {trees : List Unfolding}
      (record_eq : nodeRecords[i]? = some record)
      (nodeRecord : NodeRecord ruleRecords nodeRecords.length record item parents)
      (unfolds : List.Forall₂ (Unfolds ruleRecords nodeRecords) parents trees) :
      Unfolds ruleRecords nodeRecords i ⟨item.rule.face, item.position, trees⟩

/-- The root of the trace file unfolds to the tree. -/
def UnfoldsTo (data : Value) (tree : Unfolding) : Prop :=
  ∃ ruleRecords nodeRecords root, TraceFile data ruleRecords nodeRecords root ∧
    Unfolds ruleRecords nodeRecords root tree

/-! ### The unfolding of a trace -/

namespace Trace

mutual

/-- The tree that the trace is when nothing in it is shared. -/
def unfolding : Trace → Unfolding
  | ⟨_, item, parents⟩ => ⟨item.rule.face, item.position, unfoldings parents⟩

/-- The trees that several traces are. -/
def unfoldings : List Trace → List Unfolding
  | [] => []
  | t :: rest => t.unfolding :: unfoldings rest

end

theorem unfoldings_eq_map (ts : List Trace) : unfoldings ts = ts.map unfolding := by
  induction ts with
  | nil => rw [unfoldings, List.map_nil]
  | cons t rest ih => rw [unfoldings, ih, List.map_cons]

theorem unfolding_eq (t : Trace) :
    t.unfolding = ⟨t.item.rule.face, t.item.position, t.parents.map unfolding⟩ := by
  obtain ⟨tag, item, parents⟩ := t
  rw [unfolding, unfoldings_eq_map]

/-- Traces with the same unfolding have histories that look alike. -/
theorem histories_plain_eq_of_unfolding_eq {t u : Trace} (h : t.unfolding = u.unfolding) :
    t.histories.map History.plain = u.histories.map History.plain := by
  let R (s s' : Trace) : Prop := s.unfolding = s'.unfolding
  have hparts (s s' : Trace) (hs : R s s') : s.item.rule.face = s'.item.rule.face ∧
      s.item.position = s'.item.position ∧ s.parents.map unfolding = s'.parents.map unfolding := by
    have heq : s.unfolding = s'.unfolding := hs
    rw [unfolding_eq, unfolding_eq] at heq
    exact Unfolding.mk.inj heq
  have hitem : ∀ s s', R s s' → s.item.plain = s'.item.plain := by
    intro s s' hs
    obtain ⟨hface, hposition, -⟩ := hparts s s' hs
    rw [Item.plain, Item.plain, Rule.plain_eq_of_face_eq hface, hposition]
  have hparents : ∀ s s', R s s' → List.Forall₂ R s.parents s'.parents := by
    intro s s' hs
    obtain ⟨-, -, hmap⟩ := hparts s s' hs
    rw [← List.forall₂_eq_eq_eq, List.forall₂_map_left_iff, List.forall₂_map_right_iff] at hmap
    exact hmap
  exact histories_plain_eq hitem hparents t u h

end Trace

/-! ### The two agree -/

/-- If a member is related to one thing alone, a list is related to the list of these. -/
theorem forall₂_iff_eq_map {α β : Type} {R : α → β → Prop} {f : α → β} {xs : List α} {ys : List β}
    (h : ∀ x ∈ xs, ∀ y, R x y ↔ y = f x) : List.Forall₂ R xs ys ↔ ys = xs.map f := by
  induction xs generalizing ys with
  | nil => rw [List.forall₂_nil_left_iff, List.map_nil]
  | cons x xs ih =>
    have hrest : ∀ x ∈ xs, ∀ y, R x y ↔ y = f x := fun x hx => h x (List.mem_cons_of_mem _ hx)
    rw [List.forall₂_cons_left_iff, List.map_cons]
    constructor
    · rintro ⟨y, ys, hy, hys, rfl⟩
      rw [(h x List.mem_cons_self y).mp hy, (ih hrest).mp hys]
    · rintro rfl
      exact ⟨_, _, (h x List.mem_cons_self _).mpr rfl, (ih hrest).mpr rfl, rfl⟩

theorem NodeRecord.leadsTo_of_mem {ruleRecords nodeRecords : List Value} {root i : Nat}
    {record : Value} {item : Item} {parents : List Nat}
    (hnode : NodeRecord ruleRecords nodeRecords.length record item parents)
    (hrecord : nodeRecords[i]? = some record) (hi : LeadsTo nodeRecords root i) :
    ∀ p ∈ parents, LeadsTo nodeRecords root p := by
  intro p hp
  obtain ⟨members, hfield, hmem⟩ := hnode.int_mem_iff.mpr hp
  exact hi.tail ⟨record, members, hrecord, hfield, hmem⟩

/-- **The unfolding of a loaded trace** is that of the records, from every node that is reached. -/
theorem Represents.unfolds_iff {ruleRecords nodeRecords : List Value} {root : Nat} {t : Trace}
    {node : Nat → Trace} (h : Represents ruleRecords nodeRecords root t node) {i : Nat}
    (hi : LeadsTo nodeRecords root i) {tree : Unfolding} :
    Unfolds ruleRecords nodeRecords i tree ↔ tree = (node i).unfolding := by
  -- The traces of the parents are smaller, however many nodes share them.
  induction hsize : sizeOf (node i) using Nat.strong_induction_on generalizing i tree with
  | _ n ih =>
  obtain ⟨record, parents, hrecord, hnode, hparents⟩ := h.record i hi
  have hall (trees : List Unfolding) :
      List.Forall₂ (Unfolds ruleRecords nodeRecords) parents trees ↔
        trees = parents.map fun p => (node p).unfolding := by
    apply forall₂_iff_eq_map
    intro p hp tree
    have hparent : (node i).HasParent (node p) := by
      rw [Trace.HasParent, hparents]
      exact List.mem_map_of_mem hp
    have hlt := hsize ▸ Trace.sizeOf_lt_of_hasParent hparent
    exact ih _ hlt (hnode.leadsTo_of_mem hrecord hi p hp) rfl
  have hunfolding : (node i).unfolding = ⟨(node i).item.rule.face, (node i).item.position,
      parents.map fun p => (node p).unfolding⟩ := by
    rw [Trace.unfolding_eq, hparents, List.map_map]
    rfl
  rw [hunfolding]
  constructor
  · rintro ⟨hrecord', hnode', htrees⟩
    obtain rfl := Option.some.inj (hrecord.symm.trans hrecord')
    obtain ⟨rfl, rfl⟩ := hnode.unique hnode'
    rw [(hall _).mp htrees]
  · rintro rfl
    exact .node hrecord hnode ((hall _).mpr rfl)

namespace Trace

variable {data data' : Value} {t u : Trace}

theorem unfoldsTo_iff (h : load data = .ok t) {tree : Unfolding} :
    UnfoldsTo data tree ↔ tree = t.unfolding := by
  obtain ⟨ruleRecords, nodeRecords, root, node, file, represents⟩ := exists_represents_of_load h
  have hroot : Unfolds ruleRecords nodeRecords root tree ↔ tree = t.unfolding := by
    rw [represents.unfolds_iff .refl, represents.root_eq]
  rw [← hroot]
  constructor
  · rintro ⟨_, _, _, file', hunfolds⟩
    obtain ⟨rfl, rfl, rfl⟩ := file.unique file'
    exact hunfolds
  · intro hunfolds
    exact ⟨_, _, _, file, hunfolds⟩

/-- **Only the unfolding is explained.**  Every file that is loaded unfolds to one tree.  If two of
them unfold to the same, then every request either fails on both in one way, or is answered by
explanations that read the same and have a text. -/
theorem explain_alike_of_unfoldsTo (h : load data = .ok t) (h' : load data' = .ok u) :
    (∃! tree, UnfoldsTo data tree) ∧
    ∀ tree, UnfoldsTo data tree → UnfoldsTo data' tree → ∀ request,
      (∃ error, t.explain request = .error error ∧ u.explain request = .error error) ∨
      ∃ e e', t.explain request = .ok e ∧ u.explain request = .ok e' ∧ e.path = e'.path ∧
        e.truncated = e'.truncated ∧ e.examples.length = e'.examples.length ∧
        ∃ text, e.text = .ok text ∧ e'.text = .ok text := by
  refine ⟨⟨t.unfolding, (unfoldsTo_iff h).mpr rfl, fun _ => (unfoldsTo_iff h).mp⟩, ?_⟩
  intro tree htree htree' request
  have heq : t.unfolding = u.unfolding :=
    ((unfoldsTo_iff h).mp htree).symm.trans ((unfoldsTo_iff h').mp htree')
  rcases explain_alike (histories_plain_eq_of_unfolding_eq heq) request with
    herror | ⟨e, e', he, he', alike, text, htext⟩
  · exact .inl herror
  · exact .inr ⟨e, e', he, he', alike.path_eq, alike.truncated_eq, alike.length_eq, text, htext,
      alike.text_eq.symm.trans htext⟩

/-- A history that is listed twice, by the number of one node. -/
def sharedSample : Value :=
  let rule : Value := .object [("nonterminal", .text "S"), ("symbols", .list [.int 1])]
  .object [("productions", .list [rule]),
    ("nodes", .list [nodeSample 0 [1, 1], nodeSample 0 []]), ("root", .int 0)]

/-- The same with two nodes, one of which has a text for the number in its rule.  One rule is there
for nothing, and so is a node that is its own parent. -/
def writtenOutSample : Value :=
  let rule (symbols : List Value) : Value :=
    .object [("nonterminal", .text "S"), ("symbols", .list symbols)]
  .object [("productions", .list [rule [.null], rule [.text "1"], rule [.int 1]]),
    ("nodes", .list [nodeSample 1 [], nodeSample 2 [], nodeSample 2 [0, 1], nodeSample 0 [3]]),
    ("root", .int 2)]

theorem explain_alike_of_unfoldsTo_writtenOutSample :
    ∃ t u tree e e' text, load sharedSample = .ok t ∧ load writtenOutSample = .ok u ∧ t ≠ u ∧
      UnfoldsTo sharedSample tree ∧ UnfoldsTo writtenOutSample tree ∧
      t.explain {} = .ok e ∧ u.explain {} = .ok e' ∧ e.text = .ok text ∧ e'.text = .ok text := by
  let node (symbol : Value) (tag : Nat) (parents : List Trace) : Trace :=
    ⟨tag, ⟨⟨.text "S", [symbol]⟩, 0⟩, parents⟩
  let shared : Trace := node (.int 1) 1 [node (.int 1) 0 [], node (.int 1) 0 []]
  let writtenOut : Trace := node (.int 1) 2 [node (.text "1") 0 [], node (.int 1) 1 []]
  have hshared : load sharedSample = .ok shared := by rfl
  have hwrittenOut : load writtenOutSample = .ok writtenOut := by rfl
  have hunfolds : UnfoldsTo sharedSample shared.unfolding := (unfoldsTo_iff hshared).mpr rfl
  have hunfolds' : UnfoldsTo writtenOutSample shared.unfolding :=
    (unfoldsTo_iff hwrittenOut).mpr rfl
  have hne : shared ≠ writtenOut := by
    intro heq
    have htag : shared.tag = writtenOut.tag := congrArg tag heq
    exact absurd htag (by decide)
  have hexplained : shared.explain {} = .ok _ := explain_of_limit (by decide) (by decide)
  rcases (explain_alike_of_unfoldsTo hshared hwrittenOut).2 _ hunfolds hunfolds' {} with
    ⟨error, herror, -⟩ | ⟨e, e', he, he', -, -, -, text, htext, htext'⟩
  · exact nomatch hexplained.symm.trans herror
  · exact ⟨shared, writtenOut, _, e, e', text, hshared, hwrittenOut, hne, hunfolds, hunfolds', he,
      he', htext, htext'⟩

end Trace

end GrammarConflict
