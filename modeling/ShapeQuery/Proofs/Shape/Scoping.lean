/-
This file proves that lowered shapes keep to the rules of scopes. A value is bound only at the end
of a branch, to a node with a number that no path of the union has taken; everything that a shape
shows is in scope in its pattern.
-/
import ShapeQuery.Proofs.Shape.Ownership
import ShapeQuery.Proofs.Sparql.Scope

namespace ShapeQuery

open Sparql (Path Term Variable Group Element TriplePattern TemplateTriple Unknown groupScope
  groupScope_append groupWellScoped mem_groupScope mem_branchScope)
open Shape (Slot Scope)

/-! ### Fragments -/

namespace Fragment

/-- Whether a fragment names variables of one kind only, and shows what is in scope. -/
structure Scoped (owns : Variable → Prop) (fragment : Fragment) : Prop where
  pattern : fragment.pattern.ScopedIn owns
  shown : ∀ triple ∈ fragment.template, ∀ name ∈ triple.names, name ∈ groupScope fragment.pattern
  leads : ∀ terminal ∈ fragment.terminal, ∀ name ∈ terminal.names, owns name

/-- The same of a fragment that may bind values, as a branch of a union. -/
structure ScopedBranch (owns : Variable → Prop) (fragment : Fragment) : Prop where
  wellScoped : groupWellScoped [] fragment.pattern
  named : Sparql.Atom.NamedIn owns (Sparql.groupAtoms fragment.pattern)
  shown : ∀ triple ∈ fragment.template, ∀ name ∈ triple.names, name ∈ groupScope fragment.pattern

variable {owns : Variable → Prop}

theorem Scoped.branch {fragment : Fragment} (kept : fragment.Scoped owns) :
    fragment.ScopedBranch owns :=
  ⟨kept.pattern.settled.wellScoped [], kept.pattern.named, kept.shown⟩

theorem Scoped.mono {more : Variable → Prop} {fragment : Fragment} (kept : fragment.Scoped owns)
    (weaker : ∀ name, owns name → more name) : fragment.Scoped more :=
  ⟨kept.pattern.mono weaker, kept.shown, fun terminal member name named =>
    weaker name (kept.leads terminal member name named)⟩

theorem scoped_empty : empty.Scoped owns :=
  ⟨.nil, fun _ member => absurd member List.not_mem_nil, nofun⟩

theorem shown_append {first second : Fragment}
    (one : ∀ triple ∈ first.template, ∀ name ∈ triple.names, name ∈ groupScope first.pattern)
    (other : ∀ triple ∈ second.template, ∀ name ∈ triple.names, name ∈ groupScope second.pattern) :
    ∀ triple ∈ (first ++ second).template, ∀ name ∈ triple.names,
      name ∈ groupScope (first ++ second).pattern := by
  intro triple member name named
  show name ∈ groupScope (first.pattern ++ second.pattern)
  rw [groupScope_append]
  exact (List.mem_append.1 member).elim
    (fun inFirst => List.mem_append_left _ (one triple inFirst name named))
    fun inSecond => List.mem_append_right _ (other triple inSecond name named)

theorem Scoped.append {first second : Fragment} (one : first.Scoped owns)
    (other : second.Scoped owns) : (first ++ second).Scoped owns := by
  refine ⟨one.pattern.append other.pattern, shown_append one.shown other.shown, ?_⟩
  intro terminal member
  rcases Option.or_eq_some_iff.1 (Lowering.terminal_append first second ▸ member) with
    inFirst | ⟨-, inSecond⟩
  · exact one.leads terminal inFirst
  · exact other.leads terminal inSecond

/-- A fragment may be made to lead elsewhere. -/
theorem Scoped.ended {fragment : Fragment} (kept : fragment.Scoped owns) {terminal : Option Term}
    (leads : ∀ last ∈ terminal, ∀ name ∈ last.names, owns name) :
    Scoped owns { fragment with terminal := terminal } :=
  ⟨kept.pattern, kept.shown, leads⟩

theorem scoped_hidden {pattern : Group} (kept : pattern.ScopedIn owns) :
    (hidden pattern).Scoped owns :=
  ⟨kept, fun _ member => absurd member List.not_mem_nil, nofun⟩

theorem scoped_ofTriple {triple : TriplePattern} (owned : ∀ name ∈ triple.names, owns name) :
    (ofTriple triple).Scoped owns := by
  refine ⟨.triple owned, fun shown member name named => ?_, nofun⟩
  rw [TriplePattern.names_of_template? (Option.mem_toList.1 member)] at named
  exact List.mem_append_left _ named

theorem scoped_classified {node : Term} {classVariable : Variable}
    (nodeOwned : ∀ name ∈ node.names, owns name) (owned : owns classVariable) (classes : List Iri) :
    (classified node classVariable classes).Scoped owns := by
  unfold classified
  split
  · exact scoped_empty
  · refine scoped_ofTriple ?_
    simpa [TriplePattern.names, Term.names] using nodeOwned
  · refine Scoped.append (scoped_ofTriple ?_) (scoped_hidden (.iris owned _))
    simpa [TriplePattern.names, Term.names, or_imp, forall_and, owned] using nodeOwned

/-- A union of branches that are kept by themselves. -/
theorem scoped_union {branches : List Fragment} (kept : ∀ branch ∈ branches,
    branch.ScopedBranch owns) {terminal : Option Term}
    (leads : ∀ last ∈ terminal, ∀ name ∈ last.names, owns name) :
    Scoped owns ⟨[.union (branches.map Fragment.pattern)], branches.flatMap Fragment.template,
      terminal⟩ := by
  refine ⟨.union ?_ ?_, fun triple member name named => ?_, leads⟩
  · exact List.forall_mem_map.2 fun branch among => (kept branch among).wellScoped
  · exact List.forall_mem_map.2 fun branch among => (kept branch among).named
  · obtain ⟨branch, among, inside⟩ := List.mem_flatMap.1 member
    exact List.mem_append_left _ (mem_branchScope.2 ⟨branch.pattern, List.mem_map_of_mem among,
      (kept branch among).shown triple inside name named⟩)

end Fragment

/-! ### Steps -/

namespace Sparql.Path

variable {owns : Variable → Prop} {subject object : Term}

theorem mem_names_step {path : Path} {name : Variable} :
    name ∈ (path.step subject object).names ↔ name ∈ subject.names ∨ name ∈ object.names := by
  unfold step
  split
  · simp [TriplePattern.names, or_comm]
  · simp [TriplePattern.names, Verb.names]

theorem names_shownStep? {path : Path} {shown : TemplateTriple}
    (found : path.shownStep? subject object = some shown) {name : Variable}
    (named : name ∈ shown.names) : name ∈ subject.names ∨ name ∈ object.names := by
  unfold shownStep? at found
  cases direct : (path.step subject object).template? with
  | some single =>
    rw [direct] at found
    rw [← Option.some.inj found, TriplePattern.names_of_template? direct] at named
    exact mem_names_step.1 named
  | none =>
    rw [direct] at found
    obtain ⟨inner, -, repeated⟩ := Option.bind_eq_some_iff.1 found
    rw [TriplePattern.names_of_template? repeated] at named
    exact mem_names_step.1 named

theorem mem_scope_hop_alternative {members : List Path} {name : Variable} :
    name ∈ groupScope ((alternative members).hop subject object).pattern ↔
      ∃ member ∈ members, name ∈ (member.step subject object).names := by
  simp [hop, groupScope, Element.scope, mem_branchScope]

theorem hop_of_single {path : Path} (single : ∀ members, path ≠ .alternative members) :
    path.hop subject object = ⟨[.triple (path.step subject object)],
      (path.shownStep? subject object).toList, none⟩ := by
  cases path with
  | alternative members => exact absurd rfl (single members)
  | _ => rfl

/-- A step that can be made has its ends in scope. -/
theorem mem_scope_hop {path : Path} (possible : path ≠ .alternative []) {name : Variable}
    (named : name ∈ subject.names ∨ name ∈ object.names) :
    name ∈ groupScope (path.hop subject object).pattern := by
  by_cases single : ∀ members, path ≠ .alternative members
  · rw [hop_of_single single]
    exact List.mem_append_left _ (mem_names_step.2 named)
  · push Not at single
    obtain ⟨members, rfl⟩ := single
    have nonempty : members ≠ [] := fun empty => possible (congrArg _ empty)
    obtain ⟨member, among⟩ := List.exists_mem_of_ne_nil members nonempty
    exact mem_scope_hop_alternative.2 ⟨member, among, mem_names_step.2 named⟩

theorem scoped_hop (path : Path) (subjectOwned : ∀ name ∈ subject.names, owns name)
    (objectOwned : ∀ name ∈ object.names, owns name) : (path.hop subject object).Scoped owns := by
  have ends {member : Path} : ∀ name ∈ (member.step subject object).names, owns name :=
    fun name named => (mem_names_step.1 named).elim (subjectOwned name) (objectOwned name)
  by_cases single : ∀ members, path ≠ .alternative members
  · rw [hop_of_single single]
    refine ⟨.triple ends, fun shown member name named => List.mem_append_left _ ?_, nofun⟩
    exact mem_names_step.2 (names_shownStep? (Option.mem_toList.1 member) named)
  · push Not at single
    obtain ⟨members, rfl⟩ := single
    refine ⟨.union ?_ ?_, fun shown member name named => mem_scope_hop_alternative.2 ?_, nofun⟩
    · exact List.forall_mem_map.2 fun member _ => (Group.ScopedIn.triple ends).settled.wellScoped []
    · exact List.forall_mem_map.2 fun member _ => (Group.ScopedIn.triple ends).named
    · obtain ⟨alternative, among, found⟩ := List.mem_filterMap.1 member
      exact ⟨alternative, among, mem_names_step.2 (names_shownStep? found named)⟩

theorem scoped_walk {steps : List (Path × Term)} (subjectOwned : ∀ name ∈ subject.names, owns name)
    (owned : ∀ step ∈ steps, ∀ name ∈ step.2.names, owns name) :
    (walk subject steps).Scoped owns := by
  induction steps generalizing subject with
  | nil => exact Fragment.scoped_empty
  | cons step rest inductionHypothesis =>
    rw [List.forall_mem_cons] at owned
    exact (scoped_hop step.1 subjectOwned owned.1).append (inductionHypothesis owned.1 owned.2)

/-- A walk whose steps can be made has its start and its nodes in scope. -/
theorem mem_scope_walk {steps : List (Path × Term)} (possible : ∀ step ∈ steps,
    step.1 ≠ .alternative []) {name : Variable}
    (named : steps ≠ [] ∧ name ∈ subject.names ∨ ∃ step ∈ steps, name ∈ step.2.names) :
    name ∈ groupScope (walk subject steps).pattern := by
  induction steps generalizing subject with
  | nil => simp at named
  | cons step rest inductionHypothesis =>
    rw [List.forall_mem_cons] at possible
    show name ∈ groupScope ((step.1.hop subject step.2).pattern ++ (walk step.2 rest).pattern)
    rw [groupScope_append]
    rcases named with ⟨-, inSubject⟩ | ⟨made, among, inStep⟩
    · exact List.mem_append_left _ (mem_scope_hop possible.1 (.inl inSubject))
    · rcases List.mem_cons.1 among with rfl | later
      · exact List.mem_append_left _ (mem_scope_hop possible.1 (.inr inStep))
      · exact List.mem_append_right _ (inductionHypothesis possible.2 (.inr ⟨made, later, inStep⟩))

theorem mem_scope_whole {path : Path} {name : Variable}
    (named : name ∈ subject.names ∨ name ∈ object.names) :
    name ∈ groupScope (path.whole subject object).pattern := by
  unfold whole
  split
  · refine List.mem_append_left _ ?_
    simpa [Element.scope, TriplePattern.names, Verb.names] using named
  · exact List.mem_append_left _ (mem_names_step.2 named)

theorem scoped_whole (path : Path) (subjectOwned : ∀ name ∈ subject.names, owns name)
    (objectOwned : ∀ name ∈ object.names, owns name) :
    (path.whole subject object).Scoped owns := by
  unfold whole
  split
  · refine ⟨.triple ?_, fun shown member name named => List.mem_append_left _ ?_, nofun⟩
    · simpa [TriplePattern.names, Verb.names, or_imp, forall_and] using ⟨subjectOwned, objectOwned⟩
    · obtain ⟨inner, -, found⟩ := List.mem_filterMap.1 member
      rw [TriplePattern.names_of_template? found, mem_names_step] at named
      simpa [Element.scope, TriplePattern.names, Verb.names] using named
  · exact Fragment.scoped_ofTriple fun name named =>
      (mem_names_step.1 named).elim (subjectOwned name) (objectOwned name)

end Sparql.Path

/-! ### Paths -/

/-- Whether a variable is the focus, or one of the numbers that are free in one scope and taken in a
later one. -/
def Lowering.Reserves (lowering : Lowering) (before after : Scope) (name : Variable) : Prop :=
  name ∈ lowering.focus.names ∨ before.Owns after (.var name)

namespace Lowering

variable {lowering : Lowering}

theorem Reserves.mono {first before after last : Scope} {name : Variable}
    (reserves : lowering.Reserves before after name) (lower : first.Precedes before)
    (higher : after.Precedes last) : lowering.Reserves first last name :=
  reserves.imp_right fun owns => owns.mono lower higher

theorem reserves_focus (before after : Scope) :
    ∀ name ∈ lowering.focus.names, lowering.Reserves before after name :=
  fun _ member => .inl member

theorem reserves_slot {before after : Scope} {slot : Slot} (between : slot.Between before after) :
    lowering.Reserves before after (slot.toVariable before.stem) :=
  .inr ⟨slot, between, rfl⟩

theorem scoped_anyTriple {owns : Variable → Prop} (focus : ∀ name ∈ lowering.focus.names, owns name)
    {predicate value : Variable} (predicateOwned : owns predicate) (valueOwned : owns value) :
    (lowering.anyTriple predicate value).Scoped owns := by
  refine Fragment.scoped_ofTriple ?_
  simpa [TriplePattern.names, Sparql.Verb.names, Term.names, or_imp, forall_and, predicateOwned,
    valueOwned] using focus

section Plain

variable (plain : lowering.Plain)

include plain

/-- The nodes of a path have numbers of its own. -/
theorem reserves_nodes (scope : Scope) (hops : Nat) :
    ∀ node ∈ lowering.nodes scope.stem scope.nextNode hops, ∀ name ∈ node.names,
      lowering.Reserves scope { scope with nextNode := scope.nextNode + hops } name := by
  intro node member
  rw [plain.nodes] at member
  obtain ⟨offset, bounded, rfl⟩ := List.mem_map.1 member
  refine List.forall_mem_singleton.2 (reserves_slot ?_)
  exact ⟨Nat.le_add_right _ _, Nat.add_lt_add_left (List.mem_range.1 bounded) _⟩

theorem last_mem_nodes (stem : String) (first : Nat) {hops : Nat} (step : hops ≠ 0) :
    (lowering.nodes stem first hops).getLast?.getD lowering.focus ∈
      lowering.nodes stem first hops := by
  rw [plain.terminal stem first step, plain.nodes]
  refine List.mem_map.2 ⟨hops - 1, List.mem_range.2 (by omega), ?_⟩
  rw [Nat.add_sub_assoc (by omega)]

omit plain in
theorem scoped_along {owns : Variable → Prop} (path : Path) {nodes : List Term} {terminal : Term}
    (focus : ∀ name ∈ lowering.focus.names, owns name)
    (owned : ∀ node ∈ nodes, ∀ name ∈ node.names, owns name) (last : terminal ∈ nodes) :
    (lowering.along path nodes terminal).Scoped owns := by
  unfold along
  split
  · split
    · exact Path.scoped_whole _ focus (owned terminal last)
    · exact Path.scoped_walk focus fun step member => owned step.2 (List.of_mem_zip member).2
  · exact Path.scoped_whole _ focus (owned terminal last)

/-- A path that can be followed has its ends in scope. -/
theorem mem_scope_along {path : Path} (filled : path.Filled) (step : path.hops ≠ 0)
    (stem : String) (first : Nat) {name : Variable} (named : name ∈ lowering.focus.names ∨
      name ∈ ((lowering.nodes stem first path.hops).getLast?.getD lowering.focus).names) :
    name ∈ groupScope (lowering.along path (lowering.nodes stem first path.hops)
      ((lowering.nodes stem first path.hops).getLast?.getD lowering.focus)).pattern := by
  have member := last_mem_nodes plain stem first step
  unfold along
  split
  · rename_i paths
    split
    · exact Path.mem_scope_whole named
    · have lengths : paths.length = (lowering.nodes stem first paths.length).length := by
        rw [nodes, List.length_map, List.length_range]
      refine Path.mem_scope_walk (fun step among => filled step.1 (List.of_mem_zip among).1) ?_
      obtain ⟨index, bounded, found⟩ := List.getElem_of_mem member
      have within : index < (paths.zip (lowering.nodes stem first paths.length)).length := by
        rw [List.length_zip, ← lengths, Nat.min_self, lengths]
        exact bounded
      have among := List.getElem_mem within
      refine named.imp (fun inFocus => ⟨List.ne_nil_of_mem among, inFocus⟩) fun inLast => ?_
      refine ⟨_, among, ?_⟩
      rw [List.getElem_zip]
      exact found ▸ inLast
  · exact Path.mem_scope_whole named

/-- A path that can be followed keeps to its numbers. -/
theorem scoped_path (classes : List Iri) (undecided : Bool) (scope : Scope) {path : ShapePath}
    (filled : path.path.Filled) (step : path.path.hops ≠ 0) :
    (lowering.path classes undecided scope path).1.Scoped
      (lowering.Reserves scope (lowering.path classes undecided scope path).2) := by
  unfold Lowering.path
  split
  · exact scoped_anyTriple (reserves_focus _ _)
      (reserves_slot ⟨Nat.le_refl _, Nat.lt_succ_self _⟩ : lowering.Reserves _ _
        ((Slot.predicate scope.nextPredicate).toVariable scope.stem))
      (reserves_slot ⟨Nat.le_refl _, Nat.lt_succ_self _⟩ : lowering.Reserves _ _
        ((Slot.value scope.nextPredicate).toVariable scope.stem))
  · dsimp only
    have last := last_mem_nodes plain scope.stem scope.nextNode step
    have nodes := reserves_nodes plain scope path.path.hops
    have walked := scoped_along path.path (reserves_focus _ _) nodes last
    refine Fragment.Scoped.ended (Fragment.Scoped.append ?_ ?_) fun terminal member =>
      Option.some.inj member ▸ nodes _ last
    · unfold shown
      split
      · refine ⟨walked.pattern, List.forall_mem_singleton.2 fun name named => ?_, walked.leads⟩
        refine mem_scope_along plain filled step scope.stem scope.nextNode ?_
        simpa [TemplateTriple.names, Term.names] using named
      · exact walked
    · split
      · refine Fragment.scoped_classified (nodes _ last) (reserves_slot ?_) classes
        exact ⟨by omega, by show _ < _; dsimp only; omega⟩
      · exact Fragment.scoped_empty

theorem scoped_paths (classes : List Iri) (undecided : Bool) (scope : Scope)
    {paths : List ShapePath} (filled : ∀ path ∈ paths, path.path.Filled)
    (steps : ∀ path ∈ paths, path.path.hops ≠ 0) :
    scope.Precedes (lowering.paths classes undecided scope paths).2 ∧
      (lowering.paths classes undecided scope paths).1.Scoped
        (lowering.Reserves scope (lowering.paths classes undecided scope paths).2) := by
  induction paths generalizing undecided scope with
  | nil => exact ⟨.refl scope, Fragment.scoped_empty⟩
  | cons path rest inductionHypothesis =>
    rw [List.forall_mem_cons] at filled steps
    have precedes : scope.Precedes (lowering.path classes undecided scope path).2 :=
      path_precedes classes undecided scope path
    obtain ⟨later, others⟩ := inductionHypothesis
      (undecided && (lowering.path classes undecided scope path).1.terminal.isNone)
      (lowering.path classes undecided scope path).2 filled.2 steps.2
    rw [paths_cons]
    refine ⟨precedes.trans later, Fragment.Scoped.append ?_ ?_⟩
    · exact (scoped_path plain classes undecided scope filled.1 steps.1).mono fun _ reserves =>
        reserves.mono (.refl _) later
    · exact others.mono fun _ reserves => reserves.mono precedes (.refl _)

/-! ### Unions -/

theorem scoped_branches (classes : List Iri) (undecided : Bool) (scope : Scope)
    {paths : List ShapePath} (filled : ∀ path ∈ paths, path.path.Filled)
    (steps : ∀ path ∈ paths, path.path.hops ≠ 0) :
    scope.Precedes (lowering.branches classes undecided scope paths).2 ∧
      ∀ branch ∈ (lowering.branches classes undecided scope paths).1,
        branch.Scoped (lowering.Reserves scope
          (lowering.branches classes undecided scope paths).2) := by
  induction paths generalizing scope with
  | nil => exact ⟨.refl scope, fun _ member => absurd member List.not_mem_nil⟩
  | cons path rest inductionHypothesis =>
    rw [List.forall_mem_cons] at filled steps
    have precedes : scope.Precedes (lowering.path classes undecided scope path).2 :=
      path_precedes classes undecided scope path
    obtain ⟨later, others⟩ := inductionHypothesis
      (lowering.path classes undecided scope path).2 filled.2 steps.2
    rw [branches_cons]
    refine ⟨precedes.trans later, List.forall_mem_cons.2 ⟨?_, fun branch member => ?_⟩⟩
    · exact (scoped_path plain classes undecided scope filled.1 steps.1).mono fun _ reserves =>
        reserves.mono (.refl _) later
    · exact (others branch member).mono fun _ reserves => reserves.mono precedes (.refl _)

omit plain in
/-- A branch may bind a variable that it does not have in scope. -/
theorem scopedBranch_bound {owns : Variable → Prop} {target : Variable} {branch : Fragment}
    (kept : branch.Scoped owns) (fresh : ¬ owns target) {more : Variable → Prop}
    (weaker : ∀ name, owns name → more name) (owned : more target) :
    (bound target branch).ScopedBranch more := by
  have wider := kept.mono weaker
  unfold bound
  split
  · rename_i terminal ended
    refine ⟨?_, ?_, Fragment.shown_append wider.shown fun _ member =>
      absurd member List.not_mem_nil⟩
    · refine kept.pattern.settled.wellScoped_bind trivial fun member => fresh ?_
      exact kept.pattern.owned target member
    · show Sparql.Atom.NamedIn more
        (Sparql.groupAtoms (branch.pattern ++ [.bind (.var terminal) target]))
      rw [Sparql.groupAtoms_append]
      refine Sparql.Atom.namedIn_append.2 ⟨wider.pattern.named, ?_⟩
      exact Sparql.Atom.namedIn_append.2 ⟨Sparql.Atom.namedIn_append.2
        ⟨Sparql.Atom.namedIn_term (wider.leads _ ended),
          Sparql.Atom.namedIn_targets (List.forall_mem_singleton.2 owned)⟩,
        Sparql.Atom.namedIn_nil⟩
  · rename_i terminal other _
    have ground : terminal.names = [] := by
      cases terminal with
      | var name => exact absurd rfl (other name)
      | _ => rfl
    exact (wider.append (Fragment.scoped_hidden
      (.column owned (List.forall_mem_singleton.2 ground)))).branch
  · exact wider.branch

/-- The node in common of a union has a number of its own. -/
theorem scoped_joined {first scope : Scope} (precedes : first.Precedes scope)
    (other : ∀ slot : Slot, slot.toVariable scope.stem ∉ lowering.focus.names)
    {branches : List Fragment}
    (kept : ∀ branch ∈ branches, branch.Scoped (lowering.Reserves first scope)) :
    scope.Precedes (lowering.joined scope branches).2.2 ∧
      (∀ branch ∈ (lowering.joined scope branches).1,
        branch.ScopedBranch (lowering.Reserves first (lowering.joined scope branches).2.2)) ∧
      ∀ last ∈ (lowering.joined scope branches).2.1, ∀ name ∈ last.names,
        lowering.Reserves first (lowering.joined scope branches).2.2 name := by
  unfold joined
  split
  · exact ⟨.refl scope, fun branch member => (kept branch member).branch, nofun⟩
  · rename_i terminal found
    obtain ⟨head, foremost, ended⟩ := Option.bind_eq_some_iff.1 found
    split
    · refine ⟨.refl scope, fun branch member => (kept branch member).branch, ?_⟩
      exact fun last member => Option.some.inj member ▸
        (kept head (List.mem_of_mem_head? foremost)).leads terminal ended
    · simp only [plain.node]
      have later : scope.Precedes { scope with nextNode := scope.nextNode + 1 } :=
        ⟨rfl, Nat.le_succ _, Nat.le_refl _, Nat.le_refl _⟩
      have common : lowering.Reserves first { scope with nextNode := scope.nextNode + 1 }
          ((Slot.node scope.nextNode).toVariable scope.stem) := by
        refine .inr ⟨.node scope.nextNode, ⟨precedes.node, Nat.lt_succ_self _⟩, ?_⟩
        rw [precedes.stem]
      refine ⟨later, List.forall_mem_map.2 fun branch member => ?_, fun last member =>
        Option.some.inj member ▸ List.forall_mem_singleton.2 common⟩
      refine scopedBranch_bound (kept branch member) ?_
        (fun _ reserves => reserves.mono (.refl _) later) common
      · rintro (inFocus | ⟨slot, between, same⟩)
        · exact other _ inFocus
        · rw [← precedes.stem] at same
          cases Slot.toVariable_injective _ (Unknown.var.inj same)
          exact absurd between.2 (Nat.lt_irrefl _)

theorem scoped_choices (classes : List Iri) (undecided : Bool) (scope : Scope)
    (other : ∀ slot : Slot, slot.toVariable scope.stem ∉ lowering.focus.names)
    {choices : List ShapePath} (filled : ∀ path ∈ choices, path.path.Filled)
    (steps : ∀ path ∈ choices, path.path.hops ≠ 0) :
    scope.Precedes (lowering.choices classes undecided scope choices).2 ∧
      (lowering.choices classes undecided scope choices).1.Scoped
        (lowering.Reserves scope (lowering.choices classes undecided scope choices).2) := by
  obtain ⟨precedes, branches⟩ := scoped_branches plain classes undecided scope filled steps
  unfold Lowering.choices
  split
  · exact ⟨.refl scope, Fragment.scoped_empty⟩
  · cases undecided with
    | false =>
      exact ⟨precedes,
        Fragment.scoped_union (fun branch member => (branches branch member).branch) nofun⟩
    | true =>
      have otherThere : ∀ slot : Slot, slot.toVariable
          (lowering.branches classes true scope choices).2.stem ∉ lowering.focus.names := by
        rw [precedes.stem]
        exact other
      obtain ⟨later, joined, leads⟩ := scoped_joined plain precedes otherThere branches
      exact ⟨precedes.trans later, Fragment.scoped_union joined leads⟩

/-! ### Property shapes -/

omit plain in
theorem scoped_filter (scope : Scope) {constraint : FilterConstraint}
    (ground : ∀ value ∈ constraint.values, value.unknown? = none) :
    (lowering.filter scope constraint).1.Scoped
      (lowering.Reserves scope (lowering.filter scope constraint).2) := by
  unfold Lowering.filter
  split
  · rename_i value only
    rw [only, List.forall_mem_singleton] at ground
    refine Fragment.scoped_ofTriple fun name named => ?_
    rcases Path.mem_names_step.1 named with inFocus | inValue
    · exact .inl inFocus
    · rw [Term.names_of_ground ground] at inValue
      exact absurd inValue List.not_mem_nil
  · have choice : lowering.Reserves scope { scope with nextChoice := scope.nextChoice + 1 }
        ((Slot.choice scope.nextChoice).toVariable scope.stem) :=
      reserves_slot ⟨Nat.le_refl _, Nat.lt_succ_self _⟩
    have values : ∀ value ∈ constraint.values, value.names = [] := fun value member =>
      Term.names_of_ground (ground value member)
    refine (Fragment.scoped_hidden (.column choice values)).append
      (Fragment.scoped_ofTriple fun name named => ?_)
    rcases Path.mem_names_step.1 named with inFocus | inChoice
    · exact .inl inFocus
    · exact List.mem_singleton.1 inChoice ▸ choice

omit plain in
theorem scoped_filters (scope : Scope) {constraints : List FilterConstraint}
    (ground : ∀ constraint ∈ constraints, ∀ value ∈ constraint.values, value.unknown? = none) :
    scope.Precedes (lowering.filters scope constraints).2 ∧
      (lowering.filters scope constraints).1.Scoped
        (lowering.Reserves scope (lowering.filters scope constraints).2) := by
  induction constraints generalizing scope with
  | nil => exact ⟨.refl scope, Fragment.scoped_empty⟩
  | cons constraint rest inductionHypothesis =>
    rw [List.forall_mem_cons] at ground
    have precedes : scope.Precedes (lowering.filter scope constraint).2 :=
      filter_precedes scope constraint
    obtain ⟨later, others⟩ :=
      inductionHypothesis (lowering.filter scope constraint).2 ground.2
    rw [filters_cons]
    refine ⟨precedes.trans later, Fragment.Scoped.append ?_ ?_⟩
    · exact (scoped_filter scope ground.1).mono fun _ reserves => reserves.mono (.refl _) later
    · exact others.mono fun _ reserves => reserves.mono precedes (.refl _)

omit plain in
theorem scoped_exclusion {scope next : Scope} {shape : PropertyShape} {fragment : Fragment}
    (lowered : lowering.exclusion scope shape = .ok (fragment, next)) :
    scope.Precedes next ∧ fragment.Scoped (lowering.Reserves scope next) := by
  obtain ⟨predicates, -, made⟩ := Success.bind_ok.1 lowered
  cases made
  refine ⟨⟨rfl, Nat.le_refl _, Nat.le_succ _, Nat.le_refl _⟩, Fragment.Scoped.append ?_ ?_⟩
  · exact scoped_anyTriple (reserves_focus _ _)
      (reserves_slot ⟨Nat.le_refl _, Nat.lt_succ_self _⟩ : lowering.Reserves _ _
        ((Slot.predicate scope.nextPredicate).toVariable scope.stem))
      (reserves_slot ⟨Nat.le_refl _, Nat.lt_succ_self _⟩ : lowering.Reserves _ _
        ((Slot.excludedValue scope.nextPredicate).toVariable scope.stem))
  · have predicate : lowering.Reserves scope
        { scope with nextPredicate := scope.nextPredicate + 1 }
        ((Slot.predicate scope.nextPredicate).toVariable scope.stem) :=
      reserves_slot ⟨Nat.le_refl _, Nat.lt_succ_self _⟩
    exact Fragment.scoped_hidden (.filter (.noneOf
      (List.forall_mem_map.2 fun name _ => .iri name) (.var predicate)))

omit plain in
theorem scoped_madeOptional {owns : Variable → Prop} {fragment : Fragment}
    (kept : fragment.Scoped owns) : (madeOptional fragment).Scoped owns := by
  refine ⟨kept.pattern.optional, fun triple member name named => ?_, kept.leads⟩
  exact List.mem_append_left _ (kept.shown triple member name named)

/-- A property shape keeps to the focus and to its own numbers. -/
theorem scoped_property {scope next : Scope} {shape : PropertyShape} {fragment : Fragment}
    (other : ∀ slot : Slot, slot.toVariable scope.stem ∉ lowering.focus.names)
    (regular : shape.Regular) (filled : shape.Filled)
    (lowered : lowering.property scope shape = .ok (fragment, next)) :
    scope.Precedes next ∧ fragment.Scoped (lowering.Reserves scope next) := by
  by_cases values : shape.maxCount = some 0
  · rw [Lowering.property, if_pos values] at lowered
    exact scoped_exclusion lowered
  · rw [lowering.property_of_values scope values] at lowered
    obtain ⟨rfl, rfl⟩ := Prod.mk.inj (Except.ok.inj lowered)
    obtain ⟨toRequired, required⟩ := scoped_paths plain shape.classes true scope
      (fun path member => filled.paths path (List.mem_mergeSort.1 member))
      fun path member => regular.paths path (List.mem_mergeSort.1 member)
    obtain ⟨toChosen, chosen⟩ := scoped_choices plain shape.classes
      (lowering.required scope shape).1.terminal.isNone (lowering.required scope shape).2
      (fun slot => toRequired.stem ▸ other slot) filled.choices regular.choices
    obtain ⟨toConditions, conditions⟩ :=
      @scoped_filters lowering (lowering.chosen scope shape).2 _ regular.values
    have together : (lowering.together scope shape).Scoped
        (lowering.Reserves scope (lowering.conditions scope shape).2) := by
      refine Fragment.Scoped.append (Fragment.Scoped.append ?_ ?_) ?_
      · exact required.mono fun _ reserves =>
          reserves.mono (.refl _) (toChosen.trans toConditions)
      · exact chosen.mono fun _ reserves => reserves.mono toRequired toConditions
      · exact conditions.mono fun _ reserves =>
          reserves.mono (toRequired.trans toChosen) (.refl _)
    refine ⟨toRequired.trans (toChosen.trans toConditions), ?_⟩
    split
    · exact scoped_madeOptional together
    · exact together

end Plain

end Lowering

/-! ### Node shapes -/

/-- Whether the name of a variable has an underscore in it and is not that of an order value. -/
def Sparql.Variable.IsCompound (name : Variable) : Prop :=
  '_' ∈ name.name.toList ∧ name.name ≠ "order_by_val"

instance (name : Variable) : Decidable name.IsCompound :=
  inferInstanceAs (Decidable (_ ∧ _))

/-- Numbered names are compound. -/
theorem Sparql.Variable.isCompound_numbered (text : String) (number : Nat) :
    IsCompound ⟨text ++ "_" ++ toString number⟩ := by
  refine ⟨by simp, fun same => ?_⟩
  have split : "order_by_val" = "order_by" ++ "_" ++ String.ofList "val".toList := by decide
  exact Shape.numbered_ne (by decide) (by decide : 'v' ∈ "val".toList) (by decide) text number
    (same.trans split)

theorem Shape.Slot.isCompound (stem : String) (slot : Slot) : (slot.toVariable stem).IsCompound :=
  Variable.isCompound_numbered _ _

namespace Lowering

variable {lowering : Lowering}

/-- The focus and the variables with compound names. -/
def Covers (lowering : Lowering) (name : Variable) : Prop :=
  name ∈ lowering.focus.names ∨ name.IsCompound

theorem Reserves.covers {before after : Scope} {name : Variable}
    (reserves : lowering.Reserves before after name) : lowering.Covers name := by
  rcases reserves with inFocus | ⟨slot, -, same⟩
  · exact .inl inFocus
  · cases same
    exact .inr (slot.isCompound _)

theorem scoped_blankLevels {owns : Variable → Prop} {start : List TriplePattern}
    (startOwned : ∀ triple ∈ start, ∀ name ∈ triple.names, owns name)
    (predicates : ∀ depth, owns (Shape.blankPredicate depth))
    (objects : ∀ depth, owns (Shape.blankObject depth)) (depth remaining : Nat) :
    (Shape.blankLevels start depth remaining).Scoped owns := by
  induction remaining generalizing start depth with
  | zero => exact Fragment.scoped_empty
  | succ remaining inductionHypothesis =>
    have step : ∀ name ∈ (Shape.blankStep (.var (Shape.blankObject depth)) (depth + 1)).names,
        owns name := by
      simp [Shape.blankStep, TriplePattern.names, Sparql.Verb.names, Term.names, predicates,
        objects]
    have triples : ∀ triple ∈ start ++ [Shape.blankStep (.var (Shape.blankObject depth))
        (depth + 1)], ∀ name ∈ triple.names, owns name :=
      List.forall_mem_append.2 ⟨startOwned, List.forall_mem_singleton.2 step⟩
    have deeper : (Shape.blankLevels [] (depth + 1) remaining).Scoped owns :=
      inductionHypothesis (fun _ member => absurd member List.not_mem_nil) (depth + 1)
    have test : Group.ScopedIn owns
        [.filter (.call .isBlank [.var (Shape.blankObject depth)])] :=
      .filter (.call (List.forall_mem_singleton.2 (.var (objects depth))) _)
    have listed := Group.ScopedIn.ofTriples triples
    rw [Shape.blankLevels]
    refine ⟨((listed.append test).append deeper.pattern).optional, ?_,
      by intro _ member; cases member⟩
    refine List.forall_mem_append.2 ⟨fun shown member name named => ?_, fun shown member name named =>
      ?_⟩
    · obtain ⟨triple, among, found⟩ := List.mem_filterMap.1 member
      rw [TriplePattern.names_of_template? found] at named
      refine List.mem_append_left _ (mem_groupScope.2 ⟨.triple triple, ?_, named⟩)
      exact List.mem_append_left _ (List.mem_append_left _ (List.mem_map_of_mem among))
    · refine List.mem_append_left _ ?_
      show name ∈ groupScope (_ ++ _)
      rw [groupScope_append]
      exact List.mem_append_right _ (deeper.shown shown member name named)

variable (plain : lowering.Plain)
  (other : ∀ (stem : String) (slot : Slot), slot.toVariable stem ∉ lowering.focus.names)

include plain other

theorem scoped_properties {index : Nat} {shared : Scope} {properties : List PropertyShape}
    {fragment : Fragment} (regular : ∀ property ∈ properties, property.Regular)
    (filled : ∀ property ∈ properties, property.Filled)
    (lowered : lowering.properties index shared properties = .ok fragment) :
    fragment.Scoped lowering.Covers := by
  induction properties generalizing index shared fragment with
  | nil =>
    cases lowered
    exact Fragment.scoped_empty
  | cons property rest inductionHypothesis =>
    rw [List.forall_mem_cons] at regular filled
    obtain ⟨⟨first, next⟩, firstLowered, further⟩ := Success.bind_ok.1 lowered
    obtain ⟨others, othersLowered, made⟩ := Success.bind_ok.1 further
    cases made
    obtain ⟨-, kept⟩ :=
      scoped_property plain (other _) regular.1 filled.1 firstLowered
    exact (kept.mono fun _ reserves => reserves.covers).append
      (inductionHypothesis regular.2 filled.2 othersLowered)

/-- A node shape keeps to its focus and to variables with compound names, and shows what it has in
scope. -/
theorem scoped_nodeShape {shape : NodeShape} {fragment : Fragment}
    (regular : ∀ property ∈ shape.properties, property.Regular)
    (filled : ∀ property ∈ shape.properties, property.Filled)
    (lowered : lowering.nodeShape shape = .ok fragment) : fragment.Scoped lowering.Covers := by
  have focus : ∀ name ∈ lowering.focus.names, lowering.Covers name := fun _ member => .inl member
  unfold nodeShape at lowered
  split at lowered
  · cases lowered
  · split at lowered
    · cases lowered
    · obtain ⟨properties, propertiesLowered, made⟩ := Success.bind_ok.1 lowered
      cases made
      have described := scoped_properties plain other regular filled propertiesLowered
      have targets : (lowering.targetClasses shape.classes).Scoped lowering.Covers := by
        unfold targetClasses
        split
        · exact Fragment.scoped_empty
        · exact Fragment.scoped_classified focus (.inr (by decide)) _
      have predicates (depth : Nat) : lowering.Covers (Shape.blankPredicate depth) :=
        .inr (Variable.isCompound_numbered "bn_p" depth)
      have objects (depth : Nat) : lowering.Covers (Shape.blankObject depth) :=
        .inr (Variable.isCompound_numbered "bn_o" depth)
      have chain : (Shape.blankChain lowering.focus (shape.blankDepth.getD 0)).Scoped
          lowering.Covers := by
        refine scoped_blankLevels (List.forall_mem_singleton.2 ?_) predicates objects 1 _
        simpa [Shape.blankStep, TriplePattern.names, Sparql.Verb.names, Term.names, or_imp,
          forall_and, predicates, objects] using focus
      exact ((targets.append described).append chain).ended (by intro _ member; cases member)

end Lowering

end ShapeQuery
