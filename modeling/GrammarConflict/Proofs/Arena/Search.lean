import GrammarConflict.Proofs.Arena.Load

/-!
# Where loading stops

An arena is built by a recursion on a bounded depth.  Beside it stands a depth-first walk that has
no bound and builds nothing (`Arena.Search`): it goes from the root to the parents in the listed
order, passes over a parent that is finished, and halts when it meets one that is still open.

The builder follows the walk step by step (`follows_buildNode`): the nodes that wait for one another
are those that are open, and the table has those that are finished.  So the walk comes to an end.
If it leaves the root there is a trace, and if it halts on an open node then that one is named
(`build_follows`).  As the walk has no choice (`Search.Step.unique`), the node named is the first
that it meets while open, and with `buildNode_error` one that is its own ancestor; where nothing is,
none is named, however often nodes are met again (`Trace.load_names_first_open`).
-/

namespace GrammarConflict

namespace Arena

/-! ### The walk -/

/-- A depth-first walk on its way: the nodes that are open, the innermost first, each with the
parents that it has still to meet, and the nodes that are finished. -/
structure Search (size : Nat) where
  opened : List (Fin size × List (Fin size))
  finished : List (Fin size)

namespace Search

/-- The walk at the root. -/
def start (arena : Arena) : Search arena.size :=
  ⟨[(arena.root, (arena.node arena.root).parents)], []⟩

/-- One step of the walk. -/
inductive Step (arena : Arena) : Search arena.size → Search arena.size → Prop
  /-- A node without a parent left to meet is finished. -/
  | leave {i : Fin arena.size} {rest : List (Fin arena.size × List (Fin arena.size))}
      {finished : List (Fin arena.size)} :
      Step arena ⟨(i, []) :: rest, finished⟩ ⟨rest, i :: finished⟩
  /-- A parent that is finished is not entered again. -/
  | pass {i p : Fin arena.size} {parents : List (Fin arena.size)}
      {rest : List (Fin arena.size × List (Fin arena.size))} {finished : List (Fin arena.size)}
      (not_open : p ∉ i :: rest.map Prod.fst) (is_finished : p ∈ finished) :
      Step arena ⟨(i, p :: parents) :: rest, finished⟩ ⟨(i, parents) :: rest, finished⟩
  /-- A parent that is new is open from now on. -/
  | enter {i p : Fin arena.size} {parents : List (Fin arena.size)}
      {rest : List (Fin arena.size × List (Fin arena.size))} {finished : List (Fin arena.size)}
      (not_open : p ∉ i :: rest.map Prod.fst) (not_finished : p ∉ finished) :
      Step arena ⟨(i, p :: parents) :: rest, finished⟩
        ⟨(p, (arena.node p).parents) :: (i, parents) :: rest, finished⟩

/-- Any number of steps. -/
abbrev Run (arena : Arena) : Search arena.size → Search arena.size → Prop :=
  Relation.ReflTransGen (Step arena)

/-- The parent that is met next is open. -/
def MeetsOpen {size : Nat} (s : Search size) (k : Fin size) : Prop :=
  ∃ i parents rest, s.opened = (i, k :: parents) :: rest ∧ k ∈ i :: rest.map Prod.fst

/-- The walk from the root comes to meet the node while that is open.  There is no step from there,
so it is the first such node. -/
def HaltsOn (arena : Arena) (k : Fin arena.size) : Prop :=
  ∃ s, Run arena (start arena) s ∧ s.MeetsOpen k

variable {arena : Arena} {s u v : Search arena.size} {k k' : Fin arena.size}

/-- The walk has no choice. -/
theorem Step.unique (h : Step arena s u) (h' : Step arena s v) : u = v := by
  cases h with
  | leave => cases h'; rfl
  | pass _ hfinished =>
    cases h' with
    | pass => rfl
    | enter _ hnot => exact absurd hfinished hnot
  | enter _ hnot =>
    cases h' with
    | pass _ hfinished => exact absurd hfinished hnot
    | enter => rfl

theorem MeetsOpen.not_step (h : s.MeetsOpen k) : ¬ Step arena s u := by
  obtain ⟨opened, finished⟩ := s
  obtain ⟨i, parents, rest, rfl, hopen⟩ := h
  intro hstep
  cases hstep with
  | pass hnot _ => exact hnot hopen
  | enter hnot _ => exact hnot hopen

theorem MeetsOpen.unique (h : s.MeetsOpen k) (h' : s.MeetsOpen k') : k = k' := by
  obtain ⟨i, parents, rest, heq, -⟩ := h
  obtain ⟨i', parents', rest', heq', -⟩ := h'
  obtain ⟨hnext, -⟩ := List.cons.inj (heq.symm.trans heq')
  exact (List.cons.inj (Prod.mk.inj hnext).2).1

/-- Two runs that can go no further end in the same place. -/
theorem Run.unique (hu : Run arena s u) (hv : Run arena s v) (hu' : ∀ w, ¬ Step arena u w)
    (hv' : ∀ w, ¬ Step arena v w) : u = v := by
  have hright : Relator.RightUnique (Step arena) := fun _ _ _ h h' => h.unique h'
  rcases Relation.ReflTransGen.total_of_right_unique hright hu hv with huv | hvu
  · rcases huv.cases_head with heq | ⟨w, hstep, _⟩
    · exact heq
    · exact absurd hstep (hu' w)
  · rcases hvu.cases_head with heq | ⟨w, hstep, _⟩
    · exact heq.symm
    · exact absurd hstep (hv' w)

end Search

/-! ### The builder follows the walk -/

variable {arena : Arena}

/-- The nodes that the table has, the last one first. -/
def Built.nodes {size : Nat} (built : Built size) : List (Fin size) :=
  built.map Prod.fst

theorem mem_nodes_of_lookup {size : Nat} {built : Built size} {i : Fin size} {t : Trace}
    (h : built.lookup i = some t) : i ∈ Built.nodes built := by
  obtain ⟨before, after, rfl, -⟩ := List.lookup_eq_some_iff.mp h
  simp [Built.nodes]

theorem not_mem_nodes_of_lookup {size : Nat} {built : Built size} {i : Fin size}
    (h : built.lookup i = none) : i ∉ Built.nodes built := by
  rw [Built.nodes, List.mem_map]
  rintro ⟨entry, hmem, rfl⟩
  have hne := List.lookup_eq_none_iff.mp h entry hmem
  simp at hne

/-- From `s` the walk comes to where the given nodes are open and those of the resulting table are
finished; if there is none, it halts on the node that the error names. -/
def Follows {α : Type} (arena : Arena) (s : Search arena.size)
    (opened : List (Fin arena.size × List (Fin arena.size))) :
    Except LoadError (α × Built arena.size) → Prop
  | .ok (_, built) => Search.Run arena s ⟨opened, Built.nodes built⟩
  | .error e => ∃ (k : Fin arena.size) (u : Search arena.size),
      e = .ownAncestor k ∧ Search.Run arena s u ∧ u.MeetsOpen k

namespace Follows

variable {α β : Type} {s u : Search arena.size}
  {opened opened' : List (Fin arena.size × List (Fin arena.size))}
  {x : Except LoadError (α × Built arena.size)}

theorem of_run (hrun : Search.Run arena s u) (h : Follows arena u opened x) :
    Follows arena s opened x := by
  cases x with
  | ok done => exact hrun.trans h
  | error e =>
    obtain ⟨k, v, rfl, hv, hmeets⟩ := h
    exact ⟨k, v, rfl, hrun.trans hv, hmeets⟩

theorem bind {f : α × Built arena.size → Except LoadError (β × Built arena.size)}
    (h : Follows arena s opened x)
    (hf : ∀ a built, x = .ok (a, built) →
      Follows arena ⟨opened, Built.nodes built⟩ opened' (f (a, built))) :
    Follows arena s opened' (x >>= f) := by
  cases x with
  | ok done => exact .of_run h (hf done.1 done.2 rfl)
  | error e => exact h

end Follows

section

variable {room : Nat} {i j : Fin arena.size} {parents : List (Fin arena.size)}
  {rest : List (Fin arena.size × List (Fin arena.size))} {built : Built arena.size}

/-- Building several parents of a node that is open, if building one follows the walk. -/
theorem follows_buildAll
    (hbuild : ∀ {p ps built}, Sound arena built →
      (∀ o ∈ j :: rest.map Prod.fst, built.lookup o = none) →
      Follows arena ⟨(j, p :: ps) :: rest, Built.nodes built⟩ ((j, ps) :: rest)
        (arena.buildNode room (j :: rest.map Prod.fst) p built))
    (sound : Sound arena built) (hfresh : ∀ o ∈ j :: rest.map Prod.fst, built.lookup o = none) :
    Follows arena ⟨(j, parents) :: rest, Built.nodes built⟩ ((j, []) :: rest)
      (buildAll (arena.buildNode room (j :: rest.map Prod.fst)) parents built) := by
  induction parents generalizing built with
  | nil => exact Relation.ReflTransGen.refl
  | cons p ps ih =>
    rw [buildAll]
    refine (hbuild sound hfresh).bind fun t built₁ hp => ?_
    have done := buildNode_ok sound hp
    have hfresh₁ : ∀ o ∈ j :: rest.map Prod.fst, built₁.lookup o = none :=
      fun o ho => done.opened_none o ho (hfresh o ho)
    exact (ih done.sound hfresh₁).bind fun ts built₂ _ => Relation.ReflTransGen.refl

/-- Building a node that has been entered: when its parents are built, it is left. -/
theorem follows_entered
    (hall : Follows arena ⟨(i, (arena.node i).parents) :: rest, Built.nodes built⟩ ((i, []) :: rest)
      (buildAll (arena.buildNode room (i :: rest.map Prod.fst)) (arena.node i).parents built)) :
    Follows arena ⟨(i, (arena.node i).parents) :: rest, Built.nodes built⟩ rest
      (do
        let (parents, built) ←
          buildAll (arena.buildNode room (i :: rest.map Prod.fst)) (arena.node i).parents built
        let t : Trace := ⟨built.length, (arena.node i).item, parents⟩
        return (t, (i, t) :: built)) :=
  hall.bind fun _ _ _ => Relation.ReflTransGen.single .leave

/-- **Building a parent** that the innermost open node meets follows the walk.  The nodes that are
open are not in the table, and with no room left they are all the nodes there are. -/
theorem follows_buildNode (nodup : (j :: rest.map Prod.fst).Nodup)
    (hroom : (j :: rest.map Prod.fst).length + room = arena.size) (sound : Sound arena built)
    (hfresh : ∀ o ∈ j :: rest.map Prod.fst, built.lookup o = none) :
    Follows arena ⟨(j, i :: parents) :: rest, Built.nodes built⟩ ((j, parents) :: rest)
      (arena.buildNode room (j :: rest.map Prod.fst) i built) := by
  induction room generalizing j i parents rest built with
  | zero =>
    have hopen : i ∈ j :: rest.map Prod.fst := mem_of_nodup_of_length_eq nodup hroom i
    exact ⟨i, _, rfl, .refl, j, parents, rest, rfl, hopen⟩
  | succ room ih =>
    rw [buildNode]
    split
    · next t hfound =>
      have hopen : i ∉ j :: rest.map Prod.fst := by
        intro hi
        rw [hfresh i hi] at hfound
        cases hfound
      exact Relation.ReflTransGen.single (.pass hopen (mem_nodes_of_lookup hfound))
    · next hnew =>
      split
      · next hopen => exact ⟨i, _, rfl, .refl, j, parents, rest, rfl, hopen⟩
      · next hopen =>
        have hstep : Search.Step arena ⟨(j, i :: parents) :: rest, Built.nodes built⟩
            ⟨(i, (arena.node i).parents) :: (j, parents) :: rest, Built.nodes built⟩ :=
          .enter hopen (not_mem_nodes_of_lookup hnew)
        have hfresh' : ∀ o ∈ i :: j :: rest.map Prod.fst, built.lookup o = none :=
          List.forall_mem_cons.mpr ⟨hnew, hfresh⟩
        have nodup' : (i :: j :: rest.map Prod.fst).Nodup := List.nodup_cons.mpr ⟨hopen, nodup⟩
        have hroom' : (i :: j :: rest.map Prod.fst).length + room = arena.size := by
          rw [List.length_cons]
          omega
        exact .of_run (.single hstep) (follows_entered (follows_buildAll
          (fun sound hfresh => ih nodup' hroom' sound hfresh) sound hfresh'))

end

/-! ### The whole walk -/

/-- **The walk comes to an end**, and the builder with it: either the walk leaves the root and there
is a trace, or it halts on an open node, which is named. -/
theorem build_follows (arena : Arena) :
    ((∃ t, arena.build = .ok t) ∧
      ∃ finished, Search.Run arena (Search.start arena) ⟨[], finished⟩) ∨
    ∃ k : Fin arena.size, arena.build = .error (.ownAncestor k) ∧ Search.HaltsOn arena k := by
  obtain ⟨room, hroom⟩ := Nat.exists_eq_succ_of_ne_zero (Nat.ne_zero_of_lt arena.root.isLt)
  have hroom' : ([arena.root] : List _).length + room = arena.size := by
    rw [List.length_singleton]
    omega
  have hparents : Follows arena ⟨[(arena.root, (arena.node arena.root).parents)], []⟩
      [(arena.root, [])]
      (buildAll (arena.buildNode room [arena.root]) (arena.node arena.root).parents []) :=
    follows_buildAll (fun sound hfresh => follows_buildNode (List.nodup_singleton _) hroom' sound
      hfresh) .nil fun _ _ => rfl
  have hfollows : Follows arena (Search.start arena) []
      (arena.buildNode (room + 1) [] arena.root []) :=
    @follows_entered arena room arena.root [] [] hparents
  rw [← Nat.succ_eq_add_one, ← hroom] at hfollows
  unfold build
  cases hbuild : arena.buildNode arena.size [] arena.root [] with
  | ok done =>
    rw [hbuild] at hfollows
    exact .inl ⟨⟨done.1, rfl⟩, _, hfollows⟩
  | error e =>
    rw [hbuild] at hfollows
    obtain ⟨k, s, rfl, hrun, hmeets⟩ := hfollows
    exact .inr ⟨k, rfl, s, hrun, hmeets⟩

/-- The builder names the node that the walk halts on. -/
theorem build_eq_error_iff {k : Fin arena.size} :
    arena.build = .error (.ownAncestor k) ↔ Search.HaltsOn arena k := by
  obtain ⟨⟨t, ht⟩, finished, hfinished⟩ | ⟨k', hk', s', hrun', hmeets'⟩ := arena.build_follows
  · refine ⟨fun h => absurd (ht.symm.trans h) nofun, ?_⟩
    rintro ⟨s, hrun, hmeets⟩
    -- A walk that has left the root meets nothing.
    have heq := hrun.unique hfinished (fun _ => hmeets.not_step) (fun _ hstep => nomatch hstep)
    obtain ⟨i, parents, rest, hopened, -⟩ := hmeets
    rw [heq] at hopened
    cases hopened
  · rw [hk', Except.error.injEq, LoadError.ownAncestor.injEq, Fin.val_inj]
    constructor
    · rintro rfl
      exact ⟨s', hrun', hmeets'⟩
    · rintro ⟨s, hrun, hmeets⟩
      obtain rfl := hrun'.unique hrun (fun _ => hmeets'.not_step) fun _ => hmeets.not_step
      exact hmeets'.unique hmeets

/-- The node named is one that the root reaches and that is its own ancestor. -/
theorem reaches_and_ancestor_of_build_eq_error {k : Fin arena.size}
    (h : arena.build = .error (.ownAncestor k)) :
    arena.Reaches arena.root k ∧ arena.Ancestor k k := by
  simp only [build, bind_eq_error_iff] at h
  obtain h | ⟨_, -, h⟩ := h
  · obtain ⟨k', heq, hreaches, hancestor⟩ :=
      buildNode_error .nil (Nat.zero_add _) (List.forall_mem_nil _) h
    obtain rfl : k = k' := Fin.ext (LoadError.ownAncestor.inj heq)
    exact ⟨hreaches, hancestor⟩
  · cases h

end Arena

/-- **Where loading stops.**  Once the records of a trace file have passed their checks, loading
ends: in a trace, when the walk leaves the root, or on a node.  It names a node just when something
that the root reaches is its own ancestor; the node named is such a one, and it is the first that a
depth-first walk from the root meets while it is open. -/
theorem Trace.load_names_first_open {data : Value} {arena : Arena}
    (h : Arena.ofValue data = .ok arena) :
    (((∃ t, load data = .ok t) ∧
        ∃ finished, Arena.Search.Run arena (Arena.Search.start arena) ⟨[], finished⟩) ∨
      ∃ k : Fin arena.size, load data = .error (.ownAncestor k)) ∧
    ((∃ k : Fin arena.size, load data = .error (.ownAncestor k)) ↔
      ∃ i, arena.Reaches arena.root i ∧ arena.Ancestor i i) ∧
    (∀ k : Fin arena.size, load data = .error (.ownAncestor k) →
      (LoadError.ownAncestor k).message = "Node " ++ toString k.val ++ " is its own ancestor" ∧
      arena.Reaches arena.root k ∧ arena.Ancestor k k) ∧
    ∀ k : Fin arena.size, load data = .error (.ownAncestor k) ↔ Arena.Search.HaltsOn arena k := by
  have hload : load data = arena.build := by
    unfold load
    rw [h]
    rfl
  rw [hload]
  refine ⟨arena.build_follows.imp_right fun ⟨k, hk, _⟩ => ⟨k, hk⟩, ⟨?_, ?_⟩, fun k hk => ?_,
    fun k => Arena.build_eq_error_iff⟩
  · rintro ⟨k, hk⟩
    exact ⟨k, Arena.reaches_and_ancestor_of_build_eq_error hk⟩
  · rintro ⟨i, hreaches, hancestor⟩
    obtain ⟨hsome, -⟩ | ⟨k, hk, -⟩ := arena.build_follows
    · exact absurd hancestor (Arena.exists_build_iff.mp hsome i hreaches)
    · exact ⟨k, hk⟩
  · exact ⟨rfl, Arena.reaches_and_ancestor_of_build_eq_error hk⟩

/-- A diamond with a cycle in it.  The walk finishes nodes 1 and 3 before it comes to node 2, whose
second parent leads back to it over node 5; node 3 is met again on the way. -/
def Trace.hiddenCycleSample : Value :=
  let record (parents : List Int) : Value := .object
    [("production", .int 1), ("position", .int 0), ("parents", .list (parents.map .int))]
  let nodes := [record [1, 2, 1], record [3], record [3, 4], record [], record [5], record [3, 2]]
  .object [("productions", .list diamondRules), ("nodes", .list nodes), ("root", .int 0)]

theorem Trace.load_names_first_open_hiddenCycle :
    (∃ arena, Arena.ofValue hiddenCycleSample = .ok arena ∧ ∃ k : Fin arena.size, k.val = 2 ∧
      load hiddenCycleSample = .error (.ownAncestor k) ∧ arena.Reaches arena.root k ∧
      arena.Ancestor k k ∧ Arena.Search.HaltsOn arena k) ∧
    ∃ arena, Arena.ofValue diamondSample = .ok arena ∧
      ∀ i, arena.Reaches arena.root i → ¬ arena.Ancestor i i := by
  have hcycle : load hiddenCycleSample = .error (.ownAncestor 2) := by rfl
  obtain ⟨t, ht⟩ : ∃ t, load diamondSample = .ok t := ⟨_, rfl⟩
  obtain ⟨arena, harena⟩ : ∃ arena, Arena.ofValue hiddenCycleSample = .ok arena := ⟨_, rfl⟩
  obtain ⟨arena', harena'⟩ : ∃ arena, Arena.ofValue diamondSample = .ok arena := ⟨_, rfl⟩
  obtain ⟨hends, -, hnamed, hhalts⟩ := load_names_first_open harena
  obtain ⟨-, hiff, -, -⟩ := load_names_first_open harena'
  refine ⟨⟨arena, harena, ?_⟩, arena', harena', fun i hreaches hancestor => ?_⟩
  · obtain ⟨⟨t, ht⟩, -⟩ | ⟨k, hk⟩ := hends
    · exact absurd (hcycle.symm.trans ht) nofun
    · have hval : k.val = 2 := LoadError.ownAncestor.inj (Except.error.inj (hk.symm.trans hcycle))
      obtain ⟨-, hreaches, hancestor⟩ := hnamed k hk
      exact ⟨k, hval, hk, hreaches, hancestor, (hhalts k).mp hk⟩
  · obtain ⟨k, hk⟩ := hiff.mpr ⟨i, hreaches, hancestor⟩
    exact absurd (ht.symm.trans hk) nofun

end GrammarConflict
