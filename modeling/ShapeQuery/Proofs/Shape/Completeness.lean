/-
This file proves that shapes that are read from graphs are lowered to complete fragments. The reader
refuses empty paths and makes no union without members; every stage of the lowering hands that on.
-/
import ShapeQuery.Proofs.Shape.Naming
import ShapeQuery.Proofs.Shape.Reading
import ShapeQuery.Proofs.Sparql.Completeness

namespace ShapeQuery

open Sparql (Path Term Variable Group Element Expression TriplePattern TemplateTriple)
open Shape (Scope)
open Success (bind_ok source_of_mem_mapM)

/-! ### Reading shapes -/

/-- A property shape whose paths can be written. -/
structure PropertyShape.Complete (shape : PropertyShape) : Prop where
  paths : ∀ path ∈ shape.paths, path.path.Complete
  choices : ∀ path ∈ shape.choices, path.path.Complete
  filters : ∀ constraint ∈ shape.filters, constraint.path.Complete

namespace Rdf.Graph

variable {graph : Graph}

/-- A path that is read has no empty part at any depth. -/
theorem complete_of_pathWithin {levels : Nat} {node : Term} {path : Path}
    (read : graph.pathWithin levels node = .ok path) : path.Complete := by
  induction levels generalizing node path with
  | zero => cases read
  | succ levels inductionHypothesis =>
    rcases pathWithin_cases read with ⟨name, -, rfl⟩ | ⟨source, inner, innerRead, made⟩ |
      ⟨sources, paths, found, filled, made⟩
    · exact Path.complete_predicate name
    · have complete : inner.Complete := inductionHypothesis innerRead
      rcases made with rfl | rfl | rfl | rfl <;> exact complete
    · have complete : ∀ path ∈ paths, path.Complete := by
        intro path member
        obtain ⟨source, -, read⟩ := source_of_mem_mapM found path member
        exact inductionHypothesis read
      rcases made with rfl | rfl | rfl
      · exact (Path.complete_alternative paths).2 ⟨filled, complete⟩
      · exact (Path.complete_sequence paths).2 ⟨filled, complete⟩
      · exact List.forall_mem_singleton.1 complete

/-- A property shape that is read has complete paths. -/
theorem complete_of_propertyShape {node : Node} {shape : PropertyShape}
    (read : graph.propertyShape node = .ok shape) : shape.Complete := by
  obtain ⟨paths, choices⟩ := holds_of_propertyShape complete_of_pathWithin read
  refine ⟨paths, choices, fun constraint member => ?_⟩
  obtain ⟨source, constraintRead⟩ := filterConstraint_of_propertyShape read constraint member
  obtain ⟨value, pathRead, -⟩ := filterConstraint_cases constraintRead
  exact complete_of_pathWithin pathRead

theorem complete_of_nodeShape {name : Iri} {shape : NodeShape}
    (read : graph.nodeShape name = .ok shape) :
    ∀ property ∈ shape.properties, property.Complete := by
  intro property member
  obtain ⟨node, propertyRead⟩ := propertyShape_of_nodeShape read property member
  exact complete_of_propertyShape propertyRead

end Rdf.Graph

/-! ### Fragments -/

namespace Fragment

/-- A fragment whose parts can be written. -/
structure Complete (fragment : Fragment) : Prop where
  pattern : Group.Complete fragment.pattern
  template : ∀ triple ∈ fragment.template, triple.Complete

theorem complete_empty : empty.Complete :=
  ⟨Group.complete_nil, fun _ member => absurd member List.not_mem_nil⟩

theorem Complete.append {first second : Fragment} (complete : first.Complete)
    (later : second.Complete) : (first ++ second).Complete :=
  ⟨(Group.complete_append _ _).2 ⟨complete.pattern, later.pattern⟩,
    List.forall_mem_append.2 ⟨complete.template, later.template⟩⟩

/-- Where a fragment leads to does not matter. -/
theorem Complete.leading {fragment : Fragment} (complete : fragment.Complete)
    (terminal : Option Term) : Complete { fragment with terminal } :=
  ⟨complete.pattern, complete.template⟩

theorem complete_hidden {pattern : Group} (complete : Group.Complete pattern) :
    (hidden pattern).Complete :=
  ⟨complete, fun _ member => absurd member List.not_mem_nil⟩

/-- A single triple with what it shows. -/
theorem complete_single {triple : TriplePattern} (complete : triple.verb.Complete)
    {shown : List TemplateTriple} (told : ∀ triple ∈ shown, triple.Complete)
    (terminal : Option Term) : Complete ⟨[.triple triple], shown, terminal⟩ :=
  ⟨(Group.complete_cons _ _).2 ⟨complete, Group.complete_nil⟩, told⟩

theorem complete_ofTriple {triple : TriplePattern} (complete : triple.verb.Complete) :
    (ofTriple triple).Complete :=
  complete_single complete (fun _ member => triple.complete_template? (Option.mem_toList.1 member))
    none

theorem complete_column (target : Variable) (values : List Term) :
    (hidden [.column target values]).Complete :=
  complete_hidden ((Group.complete_cons _ _).2
    ⟨Element.complete_column target values, Group.complete_nil⟩)

theorem complete_when (needed : Bool) {fragment : Fragment} (complete : fragment.Complete) :
    (if needed then fragment else empty).Complete := by
  cases needed with
  | true => exact complete
  | false => exact complete_empty

theorem complete_classified (node : Term) (classVariable : Variable) (classes : List Iri) :
    (classified node classVariable classes).Complete := by
  unfold classified
  split
  · exact complete_empty
  · exact complete_ofTriple (Sparql.Verb.complete_predicate _)
  · exact Complete.append (complete_ofTriple (Sparql.Verb.complete_predicate _))
      (complete_column _ _)

end Fragment

/-! ### Steps -/

namespace Sparql.Path

variable {path : Path}

theorem complete_step (complete : path.Complete) (subject object : Term) :
    (path.step subject object).verb.Complete := by
  unfold step
  split
  · rfl
  · exact complete

theorem complete_shownStep {subject object : Term} {shown : TemplateTriple}
    (found : path.shownStep? subject object = some shown) : shown.Complete := by
  unfold shownStep? at found
  cases direct : (path.step subject object).template? with
  | some triple =>
    rw [direct] at found
    cases found
    exact TriplePattern.complete_template? direct
  | none =>
    rw [direct] at found
    obtain ⟨inner, -, shownInner⟩ := Option.bind_eq_some_iff.1 found
    exact TriplePattern.complete_template? shownInner

theorem complete_hop (complete : path.Complete) (subject object : Term) :
    (path.hop subject object).Complete := by
  unfold hop
  split
  · rename_i members
    obtain ⟨filled, each⟩ := (complete_alternative members).1 complete
    refine ⟨(Group.complete_cons _ _).2 ⟨(Element.complete_union _).2 ⟨?_, ?_⟩,
      Group.complete_nil⟩, fun shown member => ?_⟩
    · exact fun empty => filled (List.map_eq_nil_iff.1 empty)
    · refine List.forall_mem_map.2 fun member listed => ?_
      exact (Group.complete_cons _ _).2
        ⟨complete_step (each member listed) subject object, Group.complete_nil⟩
    · obtain ⟨step, -, found⟩ := List.mem_filterMap.1 member
      exact complete_shownStep found
  · exact Fragment.complete_single (complete_step complete subject object)
      (fun _ member => complete_shownStep (Option.mem_toList.1 member)) none

theorem complete_walk {steps : List (Path × Term)} (complete : ∀ step ∈ steps, step.1.Complete)
    (subject : Term) : (walk subject steps).Complete := by
  induction steps generalizing subject with
  | nil => exact Fragment.complete_empty
  | cons step rest inductionHypothesis =>
    rw [List.forall_mem_cons] at complete
    exact (complete_hop complete.1 subject step.2).append
      (inductionHypothesis complete.2 step.2)

theorem complete_whole (complete : path.Complete) (subject object : Term) :
    (path.whole subject object).Complete := by
  unfold whole
  split
  · rename_i members
    have verb : (TriplePattern.mk subject (.path (.alternative members)) object).verb.Complete :=
      complete
    refine Fragment.complete_single verb (fun shown member => ?_) none
    obtain ⟨step, -, found⟩ := List.mem_filterMap.1 member
    exact TriplePattern.complete_template? found
  · exact Fragment.complete_ofTriple (complete_step complete subject object)

end Sparql.Path

/-! ### Property shapes -/

namespace Lowering

variable {lowering : Lowering}

theorem complete_anyTriple (predicate value : Variable) :
    (lowering.anyTriple predicate value).Complete :=
  Fragment.complete_ofTriple rfl

theorem complete_along {path : Path} (complete : path.Complete) (nodes : List Term)
    (terminal : Term) : (lowering.along path nodes terminal).Complete := by
  have whole := Path.complete_whole complete lowering.focus terminal
  unfold along
  split
  · rename_i paths
    split
    · exact whole
    · refine Path.complete_walk (fun step member => ?_) lowering.focus
      exact ((Path.complete_sequence paths).1 complete).2 step.1 (List.of_mem_zip member).1
  · exact whole

theorem complete_shown {walked : Fragment} (complete : walked.Complete) (synonym : Option Iri)
    (terminal : Term) : (lowering.shown synonym terminal walked).Complete := by
  unfold shown
  split
  · exact ⟨complete.pattern, List.forall_mem_singleton.2 (TemplateTriple.complete_iri _ _ _)⟩
  · exact complete

theorem complete_path {path : ShapePath} (complete : path.path.Complete) (classes : List Iri)
    (undecided : Bool) (scope : Scope) :
    (lowering.path classes undecided scope path).1.Complete := by
  unfold Lowering.path
  split
  · exact complete_anyTriple _ _
  · have walked (nodes : List Term) (terminal : Term) :
        (lowering.shown path.synonym terminal
          (lowering.along path.path nodes terminal)).Complete :=
      complete_shown (complete_along complete nodes terminal) path.synonym terminal
    have constraint (node : Term) (name : Variable) :=
      Fragment.complete_when undecided (Fragment.complete_classified node name classes)
    exact ((walked _ _).append (constraint _ _)).leading _

theorem complete_paths {paths : List ShapePath} (complete : ∀ path ∈ paths, path.path.Complete)
    (classes : List Iri) (undecided : Bool) (scope : Scope) :
    (lowering.paths classes undecided scope paths).1.Complete := by
  induction paths generalizing undecided scope with
  | nil => exact Fragment.complete_empty
  | cons path rest inductionHypothesis =>
    rw [List.forall_mem_cons] at complete
    rw [paths_cons]
    exact (complete_path complete.1 classes undecided scope).append
      (inductionHypothesis complete.2 _ _)

theorem complete_branches {paths : List ShapePath}
    (complete : ∀ path ∈ paths, path.path.Complete) (classes : List Iri) (undecided : Bool)
    (scope : Scope) :
    ∀ branch ∈ (lowering.branches classes undecided scope paths).1, branch.Complete := by
  induction paths generalizing scope with
  | nil => exact fun _ member => absurd member List.not_mem_nil
  | cons path rest inductionHypothesis =>
    rw [List.forall_mem_cons] at complete
    rw [branches_cons, List.forall_mem_cons]
    exact ⟨complete_path complete.1 classes undecided scope, inductionHypothesis complete.2 _⟩

/-- Every choice has a branch. -/
theorem length_branches (lowering : Lowering) (paths : List ShapePath) (classes : List Iri)
    (undecided : Bool) (scope : Scope) :
    (lowering.branches classes undecided scope paths).1.length = paths.length := by
  induction paths generalizing scope with
  | nil => rfl
  | cons path rest inductionHypothesis =>
    rw [branches_cons, List.length_cons, List.length_cons, inductionHypothesis]

theorem complete_bound (target : Variable) {branch : Fragment} (complete : branch.Complete) :
    (bound target branch).Complete := by
  unfold bound
  split
  · refine complete.append (Fragment.complete_hidden ((Group.complete_cons _ _).2 ⟨?_,
      Group.complete_nil⟩))
    exact (Element.complete_bind _ _).2 (Expression.complete_var _)
  · exact complete.append (Fragment.complete_column target _)
  · exact complete

/-- Joining keeps the branches and their number. -/
theorem complete_joined (lowering : Lowering) (scope : Scope) {branches : List Fragment}
    (complete : ∀ branch ∈ branches, branch.Complete) :
    (∀ branch ∈ (lowering.joined scope branches).1, branch.Complete) ∧
      (lowering.joined scope branches).1.length = branches.length := by
  unfold joined
  split
  · exact ⟨complete, rfl⟩
  · split
    · exact ⟨complete, rfl⟩
    · dsimp only
      split
      · exact ⟨List.forall_mem_map.2 fun branch member => complete_bound _ (complete branch member),
          List.length_map _⟩
      · exact ⟨complete, rfl⟩

theorem complete_choices {choices : List ShapePath}
    (complete : ∀ path ∈ choices, path.path.Complete) (classes : List Iri) (undecided : Bool)
    (scope : Scope) : (lowering.choices classes undecided scope choices).1.Complete := by
  unfold Lowering.choices
  split
  · exact Fragment.complete_empty
  · rename_i given
    have branches : ∀ branch ∈ (lowering.branches classes undecided scope choices).1,
        branch.Complete :=
      complete_branches complete classes undecided scope
    have length := lowering.length_branches choices classes undecided scope
    have union (parts : List Fragment) (each : ∀ part ∈ parts, part.Complete)
        (many : parts.length = choices.length) (terminal : Option Term) :
        Fragment.Complete ⟨[.union (parts.map Fragment.pattern)],
          parts.flatMap Fragment.template, terminal⟩ := by
      refine ⟨(Group.complete_cons _ _).2 ⟨(Element.complete_union _).2 ⟨fun empty => given ?_,
        List.forall_mem_map.2 fun part member => (each part member).pattern⟩,
        Group.complete_nil⟩, fun triple member => ?_⟩
      · rw [List.isEmpty_iff_length_eq_zero, ← many, List.map_eq_nil_iff.1 empty]
        rfl
      · obtain ⟨part, partMember, inside⟩ := List.mem_flatMap.1 member
        exact (each part partMember).template triple inside
    cases undecided with
    | false => exact union _ branches length none
    | true =>
      obtain ⟨parts, kept⟩ := lowering.complete_joined _ branches
      exact union _ parts (kept.trans length) _

theorem complete_filter {constraint : FilterConstraint} (complete : constraint.path.Complete)
    (scope : Scope) : (lowering.filter scope constraint).1.Complete := by
  have step (value : Term) := Fragment.complete_ofTriple
    (Path.complete_step complete lowering.focus value)
  unfold Lowering.filter
  split
  · exact step _
  · exact (Fragment.complete_column _ _).append (step _)

theorem complete_filters {constraints : List FilterConstraint}
    (complete : ∀ constraint ∈ constraints, constraint.path.Complete) (scope : Scope) :
    (lowering.filters scope constraints).1.Complete := by
  induction constraints generalizing scope with
  | nil => exact Fragment.complete_empty
  | cons constraint rest inductionHypothesis =>
    rw [List.forall_mem_cons] at complete
    rw [filters_cons]
    exact (complete_filter complete.1 scope).append (inductionHypothesis complete.2 _)

theorem complete_exclusion {scope next : Scope} {shape : PropertyShape} {fragment : Fragment}
    (lowered : lowering.exclusion scope shape = .ok (fragment, next)) : fragment.Complete := by
  obtain ⟨predicates, -, made⟩ := bind_ok.1 lowered
  cases made
  refine (complete_anyTriple _ _).append (Fragment.complete_hidden ((Group.complete_cons _ _).2
    ⟨?_, Group.complete_nil⟩))
  refine (Element.complete_filter _).2 ((Expression.complete_noneOf _ _).2
    ⟨Expression.complete_var _, List.forall_mem_map.2 fun predicate _ => ?_⟩)
  exact Expression.complete_iri predicate

theorem complete_madeOptional {fragment : Fragment} (complete : fragment.Complete) :
    (madeOptional fragment).Complete :=
  ⟨(Group.complete_cons _ _).2 ⟨(Element.complete_optional _).2 complete.pattern,
    Group.complete_nil⟩, complete.template⟩

/-- A property shape with complete paths is lowered to a complete fragment. -/
theorem complete_property {scope next : Scope} {shape : PropertyShape} {fragment : Fragment}
    (complete : shape.Complete)
    (lowered : lowering.property scope shape = .ok (fragment, next)) : fragment.Complete := by
  by_cases values : shape.maxCount = some 0
  · rw [Lowering.property, if_pos values] at lowered
    exact complete_exclusion lowered
  · rw [lowering.property_of_values scope values] at lowered
    obtain ⟨rfl, rfl⟩ := Prod.mk.inj (Except.ok.inj lowered)
    have required : (lowering.required scope shape).1.Complete :=
      complete_paths (fun path member => complete.paths path (List.mem_mergeSort.1 member)) _ _ _
    have chosen : (lowering.chosen scope shape).1.Complete :=
      complete_choices complete.choices _ _ _
    have conditions : (lowering.conditions scope shape).1.Complete :=
      complete_filters complete.filters _
    have together : (lowering.together scope shape).Complete :=
      (required.append chosen).append conditions
    split
    · exact complete_madeOptional together
    · exact together

/-! ### Node shapes -/

theorem complete_properties {index : Nat} {shared : Scope} {properties : List PropertyShape}
    {fragment : Fragment} (complete : ∀ property ∈ properties, property.Complete)
    (lowered : lowering.properties index shared properties = .ok fragment) :
    fragment.Complete := by
  induction properties generalizing index shared fragment with
  | nil =>
    cases lowered
    exact Fragment.complete_empty
  | cons property rest inductionHypothesis =>
    rw [List.forall_mem_cons] at complete
    obtain ⟨⟨first, next⟩, firstLowered, further⟩ := bind_ok.1 lowered
    obtain ⟨others, othersLowered, made⟩ := bind_ok.1 further
    cases made
    exact (complete_property complete.1 firstLowered).append
      (inductionHypothesis complete.2 othersLowered)

theorem complete_blankLevels {start : List TriplePattern}
    (complete : ∀ triple ∈ start, triple.verb.Complete) (depth remaining : Nat) :
    (Shape.blankLevels start depth remaining).Complete := by
  induction remaining generalizing start depth with
  | zero => exact Fragment.complete_empty
  | succ remaining inductionHypothesis =>
    have deeper : (Shape.blankLevels [] (depth + 1) remaining).Complete :=
      inductionHypothesis (fun _ member => absurd member List.not_mem_nil) (depth + 1)
    have triples : ∀ triple ∈ start ++ [Shape.blankStep (.var (Shape.blankObject depth))
        (depth + 1)], triple.verb.Complete :=
      List.forall_mem_append.2
        ⟨complete, List.forall_mem_singleton.2 (Sparql.Verb.complete_var _)⟩
    have test : (Element.filter (.call .isBlank [.var (Shape.blankObject depth)])).Complete :=
      (Element.complete_filter _).2 ((Expression.complete_call _ _).2
        ⟨rfl, List.forall_mem_singleton.2 (Expression.complete_var _)⟩)
    rw [Shape.blankLevels]
    refine ⟨(Group.complete_cons _ _).2 ⟨(Element.complete_optional _).2 ?_, Group.complete_nil⟩,
      List.forall_mem_append.2 ⟨fun shown member => ?_, deeper.template⟩⟩
    · simp only [Group.complete_append, Group.complete_cons]
      exact ⟨⟨Element.complete_ofTriples triples, test, Group.complete_nil⟩, deeper.pattern⟩
    · obtain ⟨triple, -, found⟩ := List.mem_filterMap.1 member
      exact TriplePattern.complete_template? found

/-- A node shape with complete paths is lowered to a complete fragment. -/
theorem complete_nodeShape {shape : NodeShape} {fragment : Fragment}
    (complete : ∀ property ∈ shape.properties, property.Complete)
    (lowered : lowering.nodeShape shape = .ok fragment) : fragment.Complete := by
  unfold nodeShape at lowered
  split at lowered
  · cases lowered
  · split at lowered
    · cases lowered
    · obtain ⟨properties, propertiesLowered, made⟩ := bind_ok.1 lowered
      cases made
      have targets : (lowering.targetClasses shape.classes).Complete := by
        unfold targetClasses
        split
        · exact Fragment.complete_empty
        · exact Fragment.complete_classified _ _ _
      have chain : (Shape.blankChain lowering.focus (shape.blankDepth.getD 0)).Complete :=
        complete_blankLevels (List.forall_mem_singleton.2 (Sparql.Verb.complete_var _)) 1 _
      exact ((targets.append (complete_properties complete propertiesLowered)).append chain).leading
        none

end Lowering

end ShapeQuery
