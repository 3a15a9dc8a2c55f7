import GrammarConflict.Proofs.Arena.Builder
import GrammarConflict.Proofs.Arena.Records

/-!
# How loading fails

Whatever a value is like, loading it ends in a trace or refuses the value (`Trace.load_refuses`):
none of the errors that asking for a key may end with gets out.  A field that has to be there is
asked for in a way that turns these errors into a refusal (`fieldOf_refuses`).  The parents need not
be there and are asked for in another way, which fails on what is no object; but they are asked for
last, when the record has given an item and so is known to be an object (`nodesOf_refuses`).
-/

namespace GrammarConflict

/-- The reader either succeeds or refuses the value. -/
abbrev Refuses {α : Type} (x : Except LoadError α) : Prop :=
  FailsOnlyWith (·.kind = .value) x

namespace Arena

/-! ### Fields -/

theorem fieldOf_refuses (place : Place) (key : String) (v : Value) :
    Refuses (fieldOf place key v) := by
  rw [fieldOf_eq]
  exact .mapError fun _ => rfl

theorem membersOf_refuses (place : Place) (key : String) (found : Value) :
    Refuses (membersOf place key found) := by
  unfold membersOf
  cases found.list? with
  | none => exact .error rfl
  | some members => exact .ok members

theorem indexOf_refuses (place : Place) (count : Nat) (found : Value) :
    Refuses (indexOf place count found) := by
  unfold indexOf
  cases found.int? with
  | none => exact .error rfl
  | some i =>
    show Refuses (dite ..)
    split
    · exact .ok _
    · exact .error rfl

/-! ### Records -/

theorem ruleOf_refuses (i : Nat) (record : Value) : Refuses (ruleOf i record) := by
  refine (fieldOf_refuses (.rule i) "symbols" record).bind fun symbols _ => ?_
  refine (membersOf_refuses (.rule i) "symbols" symbols).bind fun _ _ => ?_
  exact (fieldOf_refuses (.rule i) "nonterminal" record).bind fun _ _ => .ok _

theorem rulesOf_refuses (i : Nat) (records : List Value) : Refuses (rulesOf i records) := by
  induction records generalizing i with
  | nil => exact .ok []
  | cons record records ih =>
    refine (ruleOf_refuses i record).bind fun _ _ => ?_
    exact (ih (i + 1)).bind fun _ _ => .ok _

theorem itemOf_refuses (rules : List Rule) (i : Nat) (record : Value) :
    Refuses (itemOf rules i record) := by
  refine (fieldOf_refuses (.node i) "production" record).bind fun found _ => ?_
  refine (indexOf_refuses (.node i) rules.length found).bind fun number _ => ?_
  refine (fieldOf_refuses (.node i) "position" record).bind fun position _ => ?_
  cases position.int? with
  | none => exact .error rfl
  | some position => exact .mapError fun _ => rfl

/-- A record that gives an item is an object. -/
theorem exists_object_of_itemOf {rules : List Rule} {i : Nat} {record : Value} {item : Item}
    (h : itemOf rules i record = .ok item) : ∃ fields, record = .object fields := by
  obtain ⟨found, hfound, -⟩ := bind_eq_ok_iff.mp h
  exact exists_object_of_field? (fieldOf_eq_ok_iff.mp hfound)

theorem parentsOf_refuses {count i : Nat} {record : Value}
    (hobject : ∃ fields, record = .object fields) : Refuses (parentsOf count i record) := by
  obtain ⟨fields, rfl⟩ := hobject
  refine (FailsOnlyWith.ok _).bind fun found _ => ?_
  refine (membersOf_refuses (.node i) "parents" found).bind fun members _ => ?_
  exact .mapM fun member _ => indexOf_refuses (.node i) count member

theorem nodesOf_refuses (rules : List Rule) (count i : Nat) (records : List Value) :
    Refuses (nodesOf rules count i records) := by
  induction records generalizing i with
  | nil => exact .ok _
  | cons record records ih =>
    refine (itemOf_refuses rules i record).bind fun item hitem => ?_
    -- The parents are only asked for after the item, so the record is an object.
    refine (parentsOf_refuses (exists_object_of_itemOf hitem)).bind fun _ _ => ?_
    exact (ih (i + 1)).bind fun _ _ => .ok _

/-! ### The file -/

theorem ofValue_refuses (data : Value) : Refuses (ofValue data) := by
  refine (fieldOf_refuses .file "productions" data).bind fun productions _ => ?_
  refine (membersOf_refuses .file "productions" productions).bind fun ruleRecords _ => ?_
  refine (rulesOf_refuses 0 ruleRecords).bind fun rules _ => ?_
  refine (fieldOf_refuses .file "nodes" data).bind fun nodes _ => ?_
  refine (membersOf_refuses .file "nodes" nodes).bind fun records _ => ?_
  refine (nodesOf_refuses rules records.length 0 records).bind fun _ _ => ?_
  refine (fieldOf_refuses .file "root" data).bind fun root _ => ?_
  exact (indexOf_refuses .root records.length root).bind fun _ _ => .ok _

theorem build_refuses (arena : Arena) : Refuses arena.build := by
  refine .bind (fun e h => ?_) fun _ _ => .ok _
  obtain ⟨k, rfl, -⟩ := buildNode_error .nil (Nat.zero_add _) nofun h
  rfl

end Arena

/-- **Loading refuses what it does not load.** -/
theorem Trace.load_refuses (data : Value) : Refuses (load data) :=
  (Arena.ofValue_refuses data).bind fun arena _ => arena.build_refuses

end GrammarConflict
