/-
This file proves that lowering a shape does not depend on the stem of its variables or on the term
of its focus: the fragment for other ones is the fragment with these replaced.
-/
import Mathlib.Data.List.Basic
import ShapeQuery.Proofs.Shape.Naming
import ShapeQuery.Proofs.Shape.Reading

namespace ShapeQuery

open Sparql (Path Term Variable Group Replacement TemplateTriple TriplePattern)
open Shape (Scope Slot)

/-! ### Fragments -/

/-- A triple of a template after a replacement. -/
def Sparql.Replacement.templateTriple (replacement : Replacement) (triple : TemplateTriple) :
    TemplateTriple :=
  ⟨replacement.term triple.subject, replacement.term triple.predicate,
    replacement.term triple.object⟩

/-- A fragment after a replacement. -/
def Fragment.replaced (replacement : Replacement) (fragment : Fragment) : Fragment :=
  ⟨replacement.group fragment.pattern, fragment.template.map replacement.templateTriple,
    fragment.terminal.map replacement.term⟩

namespace Fragment

variable (replacement : Replacement)

theorem replaced_append (first second : Fragment) :
    (first ++ second).replaced replacement =
      first.replaced replacement ++ second.replaced replacement := by
  show (append first second).replaced replacement = append _ _
  unfold append Fragment.replaced
  rw [Replacement.group_append, List.map_append]
  cases first.terminal <;> rfl

theorem isNone_replaced (fragment : Fragment) :
    (fragment.replaced replacement).terminal.isNone = fragment.terminal.isNone :=
  Option.isNone_map

theorem template?_triple (triple : TriplePattern) :
    (replacement.triple triple).template? =
      triple.template?.map replacement.templateTriple := by
  unfold TriplePattern.template?
  rw [Replacement.triple, Replacement.term?_verb]
  cases triple.verb.term? <;> rfl

theorem replaced_ofTriple (triple : TriplePattern) :
    (ofTriple triple).replaced replacement = ofTriple (replacement.triple triple) := by
  unfold ofTriple Fragment.replaced
  rw [template?_triple]
  cases triple.template? <;> rfl

theorem replaced_hidden (pattern : Group) :
    (hidden pattern).replaced replacement = hidden (replacement.group pattern) := rfl

/-- Terms without an unknown stay as they are. -/
theorem term_of_ground {term : Term} (ground : term.unknown? = none) :
    replacement.term term = term := by
  cases term with
  | var name => cases ground
  | blank label => cases ground
  | iri name => rfl
  | literal value => rfl

/-- A table of one column after a replacement. -/
theorem element_column (target : Variable) (values : List Term) :
    replacement.element (.column target values) =
      .column (replacement.target target) (values.map replacement.term) := by
  show Sparql.Element.values (replacement.data (Sparql.Data.column target values)) = _
  unfold Sparql.Element.column Sparql.Data.column Replacement.data
  rw [List.map_map, List.map_map]
  rfl

theorem replaced_column (target : Variable) {values : List Term}
    (ground : ∀ value ∈ values, value.unknown? = none) :
    replacement.element (.column target values) = .column (replacement.target target) values := by
  rw [element_column, List.map_congr_left fun value member =>
    term_of_ground replacement (ground value member), List.map_id']

theorem ground_iris (classes : List Iri) :
    ∀ value ∈ classes.map Term.iri, value.unknown? = none := by
  intro value member
  obtain ⟨name, -, rfl⟩ := List.mem_map.1 member
  rfl

theorem replaced_classified (node : Term) {before after : Variable}
    (substitute : replacement.substitute before = .var after)
    (target : replacement.target before = after) (classes : List Iri) :
    (classified node before classes).replaced replacement =
      classified (replacement.term node) after classes := by
  match classes with
  | [] => rfl
  | [single] => exact replaced_ofTriple replacement _
  | first :: second :: rest =>
    have named : replacement.term (.var before) = .var after := by
      rw [Replacement.term, substitute]
      rfl
    unfold classified
    rw [replaced_append, replaced_ofTriple, replaced_hidden, Replacement.triple, named,
      Replacement.group, replaced_column replacement before (ground_iris _), target]
    rfl

theorem replaced_union (branches : List Fragment) (terminal : Option Term) :
    replaced replacement
        ⟨[.union (branches.map Fragment.pattern)], branches.flatMap Fragment.template, terminal⟩ =
      ⟨[.union ((branches.map (replaced replacement)).map Fragment.pattern)],
        (branches.map (replaced replacement)).flatMap Fragment.template,
        terminal.map replacement.term⟩ := by
  unfold replaced
  rw [Replacement.group, Replacement.element, Replacement.branches_eq_map, List.map_map,
    List.map_map, List.map_flatMap, List.flatMap_map]
  rfl

end Fragment

/-! ### Steps -/

namespace Sparql.Path

variable (replacement : Replacement)

theorem triple_step (path : Path) (subject object : Term) :
    replacement.triple (path.step subject object) =
      path.step (replacement.term subject) (replacement.term object) := by
  unfold step
  split <;> rfl

theorem shownStep?_term (path : Path) (subject object : Term) :
    path.shownStep? (replacement.term subject) (replacement.term object) =
      (path.shownStep? subject object).map replacement.templateTriple := by
  unfold shownStep?
  rw [← triple_step, Fragment.template?_triple]
  cases (path.step subject object).template? with
  | some triple => rfl
  | none =>
    cases path.repeated? with
    | none => rfl
    | some inner =>
      show (inner.step _ _).template? = Option.map _ (inner.step _ _).template?
      rw [← triple_step, Fragment.template?_triple]

theorem replaced_hop (path : Path) (subject object : Term) :
    (path.hop subject object).replaced replacement =
      path.hop (replacement.term subject) (replacement.term object) := by
  unfold hop
  split
  · rename_i members
    have branches : replacement.branches
        (members.map fun member => [.triple (member.step subject object)]) =
          members.map fun member =>
            [.triple (member.step (replacement.term subject) (replacement.term object))] := by
      rw [Replacement.branches_eq_map, List.map_map]
      refine List.map_congr_left fun member _ => ?_
      show [Element.triple (replacement.triple _)] = _
      rw [triple_step]
    have shownSteps : (members.filterMap fun member =>
        member.shownStep? subject object).map replacement.templateTriple =
          members.filterMap fun member =>
            member.shownStep? (replacement.term subject) (replacement.term object) := by
      rw [List.map_filterMap]
      exact List.filterMap_congr fun member _ => (shownStep?_term replacement member _ _).symm
    unfold Fragment.replaced
    rw [shownSteps, Replacement.group, Replacement.element, branches]
    rfl
  · unfold Fragment.replaced
    rw [Replacement.group, Replacement.element, triple_step, shownStep?_term]
    cases path.shownStep? subject object <;> rfl

theorem replaced_walk (steps : List (Path × Term)) (subject : Term) :
    (walk subject steps).replaced replacement =
      walk (replacement.term subject) (steps.map (Prod.map id replacement.term)) := by
  induction steps generalizing subject with
  | nil => rfl
  | cons step rest inductionHypothesis =>
    obtain ⟨path, object⟩ := step
    rw [walk, Fragment.replaced_append, replaced_hop, inductionHypothesis]
    rfl

theorem replaced_whole (path : Path) (subject object : Term) :
    (path.whole subject object).replaced replacement =
      path.whole (replacement.term subject) (replacement.term object) := by
  unfold whole
  split
  · rename_i members
    have shownMembers : (members.filterMap fun member =>
        (member.step subject object).template?).map replacement.templateTriple =
          members.filterMap fun member =>
            (member.step (replacement.term subject) (replacement.term object)).template? := by
      rw [List.map_filterMap]
      refine List.filterMap_congr fun member _ => ?_
      rw [← triple_step, Fragment.template?_triple]
    unfold Fragment.replaced
    rw [shownMembers]
    rfl
  · rw [Fragment.replaced_ofTriple, triple_step]

end Sparql.Path

/-! ### Lowering -/

/-- A scope with another stem. -/
def Shape.Scope.moved (stem : String) (scope : Scope) : Scope :=
  { scope with stem }

/-- Whether a replacement carries what one lowering makes in scopes with a stem into what another
one makes in scopes with another stem. -/
structure Lowering.Transfers (replacement : Replacement) (before after : Lowering)
    (stem other : String) : Prop where
  kind : after.kind = before.kind
  focus : replacement.term before.focus = after.focus
  substitute : ∀ slot : Slot,
    replacement.substitute (slot.toVariable stem) = .var (slot.toVariable other)
  target : ∀ slot : Slot,
    replacement.target (slot.toVariable stem) = slot.toVariable other
  node : ∀ number last,
    replacement.term (before.node stem number last) = after.node other number last
  /-- A node that is a variable stays one, also where values are bound to it. -/
  renamed : ∀ {name}, before.IsNode stem (.var name) →
    replacement.substitute name = .var (replacement.target name)
  /-- Nodes stay different. -/
  apart : ∀ {first second}, before.IsNode stem first → before.IsNode stem second →
    replacement.term first = replacement.term second → first = second

namespace Lowering.Transfers

variable {replacement : Replacement} {before after : Lowering} {stem other : String}
  (transfers : Transfers replacement before after stem other)

include transfers

theorem term (slot : Slot) :
    replacement.term (.var (slot.toVariable stem)) = .var (slot.toVariable other) := by
  rw [Replacement.term, transfers.substitute]
  rfl

theorem nodes (first hops : Nat) :
    (before.nodes stem first hops).map replacement.term = after.nodes other first hops := by
  unfold Lowering.nodes
  rw [List.map_map]
  exact List.map_congr_left fun offset _ => transfers.node _ _

theorem anyTriple (predicate value : Slot) :
    (before.anyTriple (predicate.toVariable stem) (value.toVariable stem)).replaced replacement =
      after.anyTriple (predicate.toVariable other) (value.toVariable other) := by
  unfold Lowering.anyTriple
  rw [Fragment.replaced_ofTriple, Replacement.triple, transfers.focus, transfers.term,
    Replacement.verb, transfers.substitute]
  rfl

theorem along (path : Path) (nodes : List Term) (terminal : Term) :
    (before.along path nodes terminal).replaced replacement =
      after.along path (nodes.map replacement.term) (replacement.term terminal) := by
  unfold Lowering.along
  rw [transfers.kind]
  split
  · split
    · rw [Path.replaced_whole, transfers.focus]
    · rw [Path.replaced_walk, transfers.focus, List.zip_map_right]
  · rw [Path.replaced_whole, transfers.focus]

theorem shown (synonym : Option Iri) (terminal : Term) (walked : Fragment) :
    (before.shown synonym terminal walked).replaced replacement =
      after.shown synonym (replacement.term terminal) (walked.replaced replacement) := by
  cases synonym with
  | none => rfl
  | some predicate =>
    unfold Lowering.shown Fragment.replaced
    rw [← transfers.focus]
    rfl

/-! ### Paths -/

theorem path (classes : List Iri) (undecided : Bool) {scope : Scope} (inScope : scope.stem = stem)
    {shapePath : ShapePath} (step : shapePath.path.hops ≠ 0) :
    after.path classes undecided (scope.moved other) shapePath =
      ((before.path classes undecided scope shapePath).1.replaced replacement,
        (before.path classes undecided scope shapePath).2.moved other) := by
  subst inScope
  unfold Lowering.path
  split
  · rw [transfers.anyTriple]
    rfl
  · simp only [before.last_node _ _ step, after.last_node _ _ step, Shape.Scope.moved]
    refine Prod.ext ?_ rfl
    have constraint : (if undecided then Fragment.classified
        (after.node other (scope.nextNode + shapePath.path.hops - 1) true)
        ((Slot.nodeClasses (scope.nextNode + shapePath.path.hops - 1)).toVariable other) classes
        else .empty) =
        (if undecided then Fragment.classified
          (before.node scope.stem (scope.nextNode + shapePath.path.hops - 1) true)
          ((Slot.nodeClasses (scope.nextNode + shapePath.path.hops - 1)).toVariable scope.stem)
          classes else Fragment.empty).replaced replacement := by
      split
      · rw [Fragment.replaced_classified replacement _ (transfers.substitute _)
          (transfers.target _), transfers.node]
      · rfl
    have walked := transfers.shown shapePath.synonym
      (before.node scope.stem (scope.nextNode + shapePath.path.hops - 1) true)
      (before.along shapePath.path
        (before.nodes scope.stem scope.nextNode shapePath.path.hops)
        (before.node scope.stem (scope.nextNode + shapePath.path.hops - 1) true))
    rw [transfers.along, transfers.nodes, transfers.node] at walked
    rw [constraint, ← walked, ← Fragment.replaced_append]
    unfold Fragment.replaced
    rw [Option.map_some, transfers.node]

theorem paths (classes : List Iri) (undecided : Bool) {scope : Scope}
    (inScope : scope.stem = stem) {shapePaths : List ShapePath}
    (steps : ∀ path ∈ shapePaths, path.path.hops ≠ 0) :
    after.paths classes undecided (scope.moved other) shapePaths =
      ((before.paths classes undecided scope shapePaths).1.replaced replacement,
        (before.paths classes undecided scope shapePaths).2.moved other) := by
  induction shapePaths generalizing undecided scope with
  | nil => rfl
  | cons first rest inductionHypothesis =>
    rw [List.forall_mem_cons] at steps
    have next := (before.path_stem classes undecided scope first).trans inScope
    simp only [Lowering.paths_cons, transfers.path classes undecided inScope steps.1,
      inductionHypothesis _ next steps.2, Fragment.replaced_append, Fragment.isNone_replaced]

/-! ### Unions -/

theorem branches (classes : List Iri) (undecided : Bool) {scope : Scope}
    (inScope : scope.stem = stem) {shapePaths : List ShapePath}
    (steps : ∀ path ∈ shapePaths, path.path.hops ≠ 0) :
    after.branches classes undecided (scope.moved other) shapePaths =
      ((before.branches classes undecided scope shapePaths).1.map
          (Fragment.replaced replacement),
        (before.branches classes undecided scope shapePaths).2.moved other) := by
  induction shapePaths generalizing scope with
  | nil => rfl
  | cons first rest inductionHypothesis =>
    rw [List.forall_mem_cons] at steps
    have next := (before.path_stem classes undecided scope first).trans inScope
    simp only [Lowering.branches_cons, transfers.path classes undecided inScope steps.1,
      inductionHypothesis next steps.2, List.map_cons]

/-- A terminal is bound as a variable or as a value, whichever it is. -/
theorem bound (target : Variable) {branch : Fragment}
    (terminals : ∀ terminal, branch.terminal = some terminal → before.IsNode stem terminal) :
    (Lowering.bound target branch).replaced replacement =
      Lowering.bound (replacement.target target) (branch.replaced replacement) := by
  have replacedTerminal :
      (branch.replaced replacement).terminal = branch.terminal.map replacement.term := rfl
  unfold Lowering.bound
  rw [replacedTerminal]
  cases found : branch.terminal with
  | none => rfl
  | some terminal =>
    cases terminal with
    | var name =>
      have known := transfers.renamed (terminals _ found)
      have sameTerm : replacement.term (.var name) = .var (replacement.target name) := by
        rw [Replacement.term, known]
        rfl
      rw [Option.map_some, sameTerm]
      simp only
      rw [Fragment.replaced_append, Fragment.replaced_hidden, Replacement.group,
        Replacement.element, Replacement.expression, known]
      rfl
    | _ =>
      show Fragment.replaced replacement (_ ++ _) = _ ++ _
      rw [Fragment.replaced_append, Fragment.replaced_hidden, Replacement.group,
        Fragment.element_column]
      rfl

theorem joined {scope : Scope} (inScope : scope.stem = stem) {branches : List Fragment}
    (terminals : ∀ branch ∈ branches, ∀ terminal, branch.terminal = some terminal →
      before.IsNode stem terminal) :
    after.joined (scope.moved other) (branches.map (Fragment.replaced replacement)) =
      ((before.joined scope branches).1.map (Fragment.replaced replacement),
        (before.joined scope branches).2.1.map replacement.term,
        (before.joined scope branches).2.2.moved other) := by
  have head : (branches.map (Fragment.replaced replacement)).head?.bind Fragment.terminal =
      (branches.head?.bind Fragment.terminal).map replacement.term := by
    cases branches <;> rfl
  unfold Lowering.joined
  rw [head]
  cases found : branches.head?.bind Fragment.terminal with
  | none => rfl
  | some terminal =>
    obtain ⟨first, firstFound, terminalFound⟩ := Option.bind_eq_some_iff.1 found
    have isNode := terminals first (List.mem_of_head? firstFound) _ terminalFound
    have same : ((branches.map (Fragment.replaced replacement)).all fun branch =>
        branch.terminal = some (replacement.term terminal)) =
          branches.all fun branch => branch.terminal = some terminal := by
      rw [List.all_map, Bool.eq_iff_iff, List.all_eq_true, List.all_eq_true]
      refine forall_congr' fun branch => forall_congr' fun member => ?_
      simp only [Function.comp_apply, decide_eq_true_eq]
      show branch.terminal.map replacement.term = _ ↔ _
      cases ended : branch.terminal with
      | none => exact iff_of_false nofun nofun
      | some terminal =>
        rw [Option.map_some, Option.some_inj, Option.some_inj]
        constructor
        · exact transfers.apart (terminals branch member _ ended) isNode
        · exact congrArg replacement.term
    simp only [Option.map_some]
    rw [same]
    split
    · rfl
    · subst inScope
      simp only [Shape.Scope.moved, ← transfers.node]
      cases shared : before.node scope.stem scope.nextNode false with
      | var name =>
        have known := transfers.renamed ⟨_, _, shared.symm⟩
        have sameTerm : replacement.term (.var name) = .var (replacement.target name) := by
          rw [Replacement.term, known]
          rfl
        simp only [sameTerm, List.map_map, Option.map_some]
        refine Prod.ext (List.map_congr_left fun branch member => ?_) rfl
        exact (transfers.bound name (terminals branch member)).symm
      | _ => rfl

theorem choices (classes : List Iri) (undecided : Bool) {scope : Scope}
    (inScope : scope.stem = stem) {shapePaths : List ShapePath}
    (steps : ∀ path ∈ shapePaths, path.path.hops ≠ 0) :
    after.choices classes undecided (scope.moved other) shapePaths =
      ((before.choices classes undecided scope shapePaths).1.replaced replacement,
        (before.choices classes undecided scope shapePaths).2.moved other) := by
  have terminals := before.branches_isNode classes undecided scope steps
  rw [inScope] at terminals
  have next := (before.branches_stem classes undecided scope shapePaths).trans inScope
  unfold Lowering.choices
  rw [transfers.branches classes undecided inScope steps]
  split
  · rfl
  · cases undecided with
    | false =>
      simp only [Bool.false_eq_true, if_false]
      rw [Fragment.replaced_union]
      rfl
    | true =>
      simp only [if_true]
      rw [transfers.joined next terminals, Fragment.replaced_union]

/-! ### Property shapes -/

theorem filter {scope : Scope} (inScope : scope.stem = stem) {constraint : FilterConstraint}
    (kept : ∀ value ∈ constraint.values, replacement.term value = value) :
    after.filter (scope.moved other) constraint =
      ((before.filter scope constraint).1.replaced replacement,
        (before.filter scope constraint).2.moved other) := by
  subst inScope
  unfold Lowering.filter
  split
  · rename_i value single
    rw [single] at kept
    rw [Fragment.replaced_ofTriple, Path.triple_step, transfers.focus,
      kept value List.mem_cons_self]
  · refine Prod.ext ?_ rfl
    show _ ++ _ = Fragment.replaced replacement (_ ++ _)
    rw [Fragment.replaced_append, Fragment.replaced_hidden, Fragment.replaced_ofTriple,
      Replacement.group, Fragment.element_column, List.map_congr_left kept, List.map_id',
      Path.triple_step, transfers.focus, transfers.target, transfers.term]
    rfl

theorem filters {scope : Scope} (inScope : scope.stem = stem)
    {constraints : List FilterConstraint}
    (kept : ∀ constraint ∈ constraints, ∀ value ∈ constraint.values,
      replacement.term value = value) :
    after.filters (scope.moved other) constraints =
      ((before.filters scope constraints).1.replaced replacement,
        (before.filters scope constraints).2.moved other) := by
  induction constraints generalizing scope with
  | nil => rfl
  | cons first rest inductionHypothesis =>
    rw [List.forall_mem_cons] at kept
    have next := (before.filter_stem scope first).trans inScope
    simp only [Lowering.filters_cons, transfers.filter inScope kept.1,
      inductionHypothesis next kept.2, Fragment.replaced_append]

theorem exclusion {scope : Scope} (inScope : scope.stem = stem) (shape : PropertyShape) :
    after.exclusion (scope.moved other) shape =
      (before.exclusion scope shape).map fun result =>
        (result.1.replaced replacement, result.2.moved other) := by
  subst inScope
  unfold Lowering.exclusion
  show (bind _ _ : Except _ _) = Except.map _ (bind _ _)
  generalize (List.mapM _ _ : Except Shape.Error (List Iri)) = read
  cases read with
  | error fault => rfl
  | ok predicates =>
    refine congrArg Except.ok (Prod.ext ?_ rfl)
    show _ ++ _ = Fragment.replaced replacement (_ ++ _)
    rw [Fragment.replaced_append, transfers.anyTriple, Fragment.replaced_hidden,
      Replacement.group, Replacement.element, Replacement.expression, Replacement.expression,
      transfers.substitute, Replacement.list_eq_map, List.map_map]
    rfl

/-- A property shape is lowered alike by both lowerings. -/
theorem property {scope : Scope} (inScope : scope.stem = stem) {shape : PropertyShape}
    (steps : ∀ path ∈ shape.paths ++ shape.choices, path.path.hops ≠ 0)
    (kept : ∀ constraint ∈ shape.filters, ∀ value ∈ constraint.values,
      replacement.term value = value) :
    after.property (scope.moved other) shape =
      (before.property scope shape).map fun result =>
        (result.1.replaced replacement, result.2.moved other) := by
  unfold Lowering.property
  split
  · exact transfers.exclusion inScope shape
  · rw [List.forall_mem_append] at steps
    have ordered : ∀ path ∈ longestFirst shape.paths, path.path.hops ≠ 0 := fun path member =>
      steps.1 path (List.mem_mergeSort.1 member)
    have afterPaths := (before.paths_stem shape.classes true scope
      (longestFirst shape.paths)).trans inScope
    have afterChoices := (before.choices_stem shape.classes
      (before.paths shape.classes true scope (longestFirst shape.paths)).1.terminal.isNone
      (before.paths shape.classes true scope (longestFirst shape.paths)).2
      shape.choices).trans afterPaths
    simp only [transfers.paths _ true inScope ordered, Fragment.isNone_replaced,
      transfers.choices shape.classes _ afterPaths steps.2,
      transfers.filters afterChoices kept, ← Fragment.replaced_append, Except.map]
    split <;> rfl

end Lowering.Transfers

/-- Whether a replacement moves a lowering to another focus and to another stem. -/
structure Lowering.Moves (replacement : Replacement) (before after : Lowering)
    (stem other : String) : Prop where
  kind : after.kind = before.kind
  plainBefore : before.Plain
  plainAfter : after.Plain
  focus : replacement.term before.focus = after.focus
  substitute : ∀ slot : Slot,
    replacement.substitute (slot.toVariable stem) = .var (slot.toVariable other)
  target : ∀ slot : Slot,
    replacement.target (slot.toVariable stem) = slot.toVariable other

namespace Lowering.Moves

variable {replacement : Replacement} {before after : Lowering} {stem other : String}
  (moves : Moves replacement before after stem other)

include moves

/-- Nodes that are named by their slots are carried over with these. -/
theorem transfers : Transfers replacement before after stem other := by
  have term (slot : Slot) :
      replacement.term (.var (slot.toVariable stem)) = .var (slot.toVariable other) := by
    rw [Replacement.term, moves.substitute]
    rfl
  refine ⟨moves.kind, moves.focus, moves.substitute, moves.target, fun number last => ?_, ?_, ?_⟩
  · rw [moves.plainBefore.node, moves.plainAfter.node, term]
  · rintro name ⟨number, last, isNode⟩
    rw [moves.plainBefore.node] at isNode
    rw [Term.var.inj isNode, moves.substitute, moves.target]
  · rintro _ _ ⟨number, last, rfl⟩ ⟨number', last', rfl⟩ same
    rw [moves.plainBefore.node, moves.plainBefore.node, term, term] at same
    rw [moves.plainBefore.node, moves.plainBefore.node,
      Slot.toVariable_injective other (Term.var.inj same)]

/-- A property shape is lowered alike for another focus and in a scope with another stem. -/
theorem property {scope : Scope} (inScope : scope.stem = stem) {shape : PropertyShape}
    (regular : shape.Regular) :
    after.property (scope.moved other) shape =
      (before.property scope shape).map fun result =>
        (result.1.replaced replacement, result.2.moved other) :=
  moves.transfers.property inScope
    (List.forall_mem_append.2 ⟨regular.paths, regular.choices⟩)
    fun constraint member value among =>
      Fragment.term_of_ground replacement (regular.values constraint member value among)

end Lowering.Moves

end ShapeQuery
