/-
This file proves what every shape that is read from a graph satisfies: its paths have steps, and its
conditions compare with values that are no unknowns.
-/
import ShapeQuery.Proofs.Rdf.Collections
import ShapeQuery.Proofs.Sparql.Replacement
import ShapeQuery.Proofs.Success
import ShapeQuery.Shape.Reader

namespace ShapeQuery

open Sparql (Path)
open Success (bind_ok map_ok mapError_ok source_of_mem_mapM length_of_mapM)

/-- Whether every path of a shape has a step and no condition compares with an unknown. -/
structure PropertyShape.Regular (shape : PropertyShape) : Prop where
  paths : ∀ path ∈ shape.paths, path.path.hops ≠ 0
  choices : ∀ path ∈ shape.choices, path.path.hops ≠ 0
  values : ∀ constraint ∈ shape.filters, ∀ value ∈ constraint.values, value.unknown? = none

/-- Whether a path can be followed step by step: no step is an alternative without members. -/
def Sparql.Path.Filled : Path → Prop
  | .alternative members => members ≠ []
  | .sequence paths => ∀ path ∈ paths, path ≠ .alternative []
  | _ => True

/-- Whether the paths of a shape can be followed step by step. -/
structure PropertyShape.Filled (shape : PropertyShape) : Prop where
  paths : ∀ path ∈ shape.paths, path.path.Filled
  choices : ∀ path ∈ shape.choices, path.path.Filled

namespace Rdf.Graph

variable {graph : Graph}

/-! ### Reading paths -/

/-- A collection that starts at a blank node has an element. -/
theorem ne_nil_of_collection {label : String} {elements : List Term}
    (read : graph.collection (.blank label) = .ok elements) : elements ≠ [] := by
  cases collection_ok.1 read with
  | cons => exact List.cons_ne_nil _ _

/-- What a path that is read is made of. -/
theorem pathWithin_cases {levels : Nat} {node : Term} {path : Path}
    (read : graph.pathWithin (levels + 1) node = .ok path) :
    (∃ name, node = .iri name ∧ path = .predicate name) ∨
    (∃ source inner, graph.pathWithin levels source = .ok inner ∧
      (path = .inverse inner ∨ path = .zeroOrMore inner ∨ path = .oneOrMore inner ∨
        path = .zeroOrOne inner)) ∨
    (∃ (sources : List Term) (paths : List Path),
      sources.mapM (graph.pathWithin levels) = .ok paths ∧ paths ≠ [] ∧
      (path = .alternative paths ∨ path = .sequence paths ∨ paths = [path])) := by
  cases node with
  | literal value => cases read
  | iri name =>
    unfold pathWithin at read
    simp only at read
    split at read
    · cases read
    · cases read
      exact .inl ⟨name, rfl, rfl⟩
  | blank label =>
    right
    unfold pathWithin at read
    simp only at read
    split at read
    · obtain ⟨inner, found, rfl⟩ := map_ok.1 read
      exact .inl ⟨_, inner, found, .inl rfl⟩
    split at read
    · obtain ⟨inner, found, rfl⟩ := map_ok.1 read
      exact .inl ⟨_, inner, found, .inr (.inl rfl)⟩
    split at read
    · obtain ⟨inner, found, rfl⟩ := map_ok.1 read
      exact .inl ⟨_, inner, found, .inr (.inr (.inl rfl))⟩
    split at read
    · obtain ⟨inner, found, rfl⟩ := map_ok.1 read
      exact .inl ⟨_, inner, found, .inr (.inr (.inr rfl))⟩
    right
    split at read
    · obtain ⟨members, -, further⟩ := bind_ok.1 read
      obtain ⟨paths, found, chosen⟩ := bind_ok.1 further
      split at chosen
      · cases chosen
      · rename_i filled
        cases chosen
        exact ⟨members, paths, found, fun empty => filled (by rw [empty]; rfl), .inl rfl⟩
    split at read
    · obtain ⟨members, collected, further⟩ := bind_ok.1 read
      obtain ⟨paths, found, chosen⟩ := bind_ok.1 further
      have filled : paths ≠ [] := fun empty => by
        have lengths := length_of_mapM found
        rw [empty, List.length_nil] at lengths
        exact ne_nil_of_collection (mapError_ok.1 collected)
          (List.eq_nil_of_length_eq_zero lengths.symm)
      refine ⟨members, paths, found, filled, .inr ?_⟩
      split at chosen
      · cases chosen
        exact .inr rfl
      · cases chosen
        exact .inl rfl
    split at read <;> cases read

/-- Every path that is read has a step. -/
theorem hops_of_pathWithin {levels : Nat} {node : Term} {path : Path}
    (read : graph.pathWithin levels node = .ok path) : path.hops ≠ 0 := by
  induction levels generalizing node path with
  | zero => cases read
  | succ levels inductionHypothesis =>
    rcases pathWithin_cases read with ⟨name, -, rfl⟩ | ⟨source, inner, -, made⟩ |
      ⟨sources, paths, found, filled, made⟩
    · exact Nat.one_ne_zero
    · rcases made with rfl | rfl | rfl | rfl <;> exact Nat.one_ne_zero
    · rcases made with rfl | rfl | rfl
      · exact Nat.one_ne_zero
      · exact fun empty => filled (List.eq_nil_of_length_eq_zero empty)
      · obtain ⟨source, -, read⟩ := source_of_mem_mapM found path List.mem_cons_self
        exact inductionHypothesis read

/-- No path that is read is an alternative without members. -/
theorem ne_alternative_nil_of_pathWithin {levels : Nat} {node : Term} {path : Path}
    (read : graph.pathWithin levels node = .ok path) : path ≠ .alternative [] := by
  induction levels generalizing node path with
  | zero => cases read
  | succ levels inductionHypothesis =>
    rcases pathWithin_cases read with ⟨name, -, rfl⟩ | ⟨source, inner, -, made⟩ |
      ⟨sources, paths, found, filled, made⟩
    · exact nofun
    · rcases made with rfl | rfl | rfl | rfl <;> exact nofun
    · rcases made with rfl | rfl | rfl
      · exact fun equal => filled (Path.alternative.inj equal)
      · exact nofun
      · obtain ⟨source, -, read⟩ := source_of_mem_mapM found path List.mem_cons_self
        exact inductionHypothesis read

/-- Every step of a path that is read can be followed. -/
theorem filled_of_pathWithin {levels : Nat} {node : Term} {path : Path}
    (read : graph.pathWithin levels node = .ok path) : path.Filled := by
  induction levels generalizing node path with
  | zero => cases read
  | succ levels inductionHypothesis =>
    rcases pathWithin_cases read with ⟨name, -, rfl⟩ | ⟨source, inner, -, made⟩ |
      ⟨sources, paths, found, filled, made⟩
    · trivial
    · rcases made with rfl | rfl | rfl | rfl <;> trivial
    · rcases made with rfl | rfl | rfl
      · exact filled
      · intro step member
        obtain ⟨source, -, read⟩ := source_of_mem_mapM found step member
        exact ne_alternative_nil_of_pathWithin read
      · obtain ⟨source, -, read⟩ := source_of_mem_mapM found path List.mem_cons_self
        exact inductionHypothesis read

/-! ### Reading shapes -/

section Paths

variable {Holds : Path → Prop}
  (holds : ∀ {levels : Nat} {node : Term} {path : Path},
    graph.pathWithin levels node = .ok path → Holds path)

include holds

theorem holds_of_choice {member : Term} {path : ShapePath}
    (read : graph.choice member = .ok path) : Holds path.path := by
  unfold choice at read
  simp only at read
  split at read
  · obtain ⟨synonym, -, further⟩ := bind_ok.1 read
    obtain ⟨inner, found, made⟩ := bind_ok.1 further
    cases made
    exact holds found
  · obtain ⟨inner, found, made⟩ := bind_ok.1 read
    cases made
    exact holds found

theorem holds_of_choices? {path : Term} {members : List ShapePath}
    (read : graph.choices? path = .ok (some members)) :
    ∀ member ∈ members, Holds member.path := by
  unfold choices? at read
  split at read
  · cases read
  · obtain ⟨elements, -, further⟩ := bind_ok.1 read
    obtain ⟨read, found, made⟩ := bind_ok.1 further
    cases made
    intro member listed
    obtain ⟨source, -, read⟩ := source_of_mem_mapM found member listed
    exact holds_of_choice holds read

theorem holds_of_shapePaths {synonym : Option Iri} {values : List Term}
    {result : List ShapePath × List ShapePath}
    (read : graph.shapePaths synonym values = .ok result) :
    (∀ path ∈ result.1, Holds path.path) ∧ ∀ path ∈ result.2, Holds path.path := by
  induction values generalizing result with
  | nil =>
    cases read
    exact ⟨fun _ member => absurd member List.not_mem_nil,
      fun _ member => absurd member List.not_mem_nil⟩
  | cons value rest inductionHypothesis =>
    obtain ⟨choices, choicesRead, further⟩ := bind_ok.1 read
    cases choices with
    | some members =>
      obtain ⟨others, othersRead, made⟩ := bind_ok.1 further
      cases made
      obtain ⟨paths, choices⟩ := inductionHypothesis othersRead
      refine ⟨paths, fun path member => ?_⟩
      rcases List.mem_append.1 member with listed | later
      · exact holds_of_choices? holds choicesRead path listed
      · exact choices path later
    | none =>
      obtain ⟨path, pathRead, further⟩ := bind_ok.1 further
      obtain ⟨others, othersRead, made⟩ := bind_ok.1 further
      cases made
      obtain ⟨paths, choices⟩ := inductionHypothesis othersRead
      refine ⟨fun other member => ?_, choices⟩
      rcases List.mem_cons.1 member with rfl | later
      · exact holds pathRead
      · exact paths other later

/-- What holds of every path that is read holds of the paths and the choices of a property shape
that is read. -/
theorem holds_of_propertyShape {node : Node} {shape : PropertyShape}
    (read : graph.propertyShape node = .ok shape) :
    (∀ path ∈ shape.paths, Holds path.path) ∧ ∀ path ∈ shape.choices, Holds path.path := by
  unfold propertyShape at read
  obtain ⟨synonym, -, further⟩ := bind_ok.1 read
  obtain ⟨paths, pathsRead, further⟩ := bind_ok.1 further
  simp only at further
  split at further
  · cases further
  · obtain ⟨filters, -, further⟩ := bind_ok.1 further
    obtain ⟨classes, -, further⟩ := bind_ok.1 further
    obtain ⟨minCount, -, further⟩ := bind_ok.1 further
    obtain ⟨maxCount, -, made⟩ := bind_ok.1 further
    cases made
    obtain ⟨paths, choices⟩ := holds_of_shapePaths holds pathsRead
    exact ⟨fun path member => paths path (List.mem_mergeSort.1 member), choices⟩

end Paths

/-! ### Reading conditions -/

theorem ground_of_plainValue {shape : Node} {predicate : Iri} {value : Term}
    {result : Sparql.Term} (read : plainValue shape predicate value = .ok result) :
    result.unknown? = none := by
  cases value with
  | iri name =>
    cases read
    rfl
  | literal written =>
    cases read
    rfl
  | blank label => cases read

/-- What a condition that is read is made of. -/
theorem filterConstraint_cases {node : Node} {constraint : FilterConstraint}
    (read : graph.filterConstraint node = .ok constraint) :
    ∃ value, graph.path value = .ok constraint.path ∧
      ∀ term ∈ constraint.values, ∃ predicate source, plainValue node predicate source = .ok term := by
  unfold filterConstraint at read
  split at read
  · cases read
  · rename_i value _
    obtain ⟨path, pathRead, further⟩ := bind_ok.1 read
    obtain ⟨single, singleRead, further⟩ := bind_ok.1 further
    have joined {listed : List Sparql.Term}
        (plain : ∀ term ∈ listed, ∃ predicate source, plainValue node predicate source = .ok term)
        (made : (if (sortedByKey Sparql.Term.text single ++ listed).isEmpty then
          .error (.missingFilterValue node)
          else return ⟨path, sortedByKey Sparql.Term.text single ++ listed⟩ :
            Except Shape.Error FilterConstraint) = .ok constraint) :
        ∃ value, graph.path value = .ok constraint.path ∧ ∀ term ∈ constraint.values,
          ∃ predicate source, plainValue node predicate source = .ok term := by
      split at made
      · cases made
      · cases made
        refine ⟨value, pathRead, List.forall_mem_append.2 ⟨fun term member => ?_, plain⟩⟩
        obtain ⟨source, -, read⟩ := source_of_mem_mapM singleRead term
          (List.mem_mergeSort.1 member)
        exact ⟨_, source, read⟩
    simp only at further
    split at further
    · exact joined (fun _ member => absurd member List.not_mem_nil) further
    · obtain ⟨elements, -, further⟩ := bind_ok.1 further
      obtain ⟨listed, listedRead, made⟩ := bind_ok.1 further
      refine joined (fun term member => ?_) made
      obtain ⟨source, -, read⟩ := source_of_mem_mapM listedRead term member
      exact ⟨_, source, read⟩

theorem filterConstraint_of_filtersOf {property : Node} {constraints : List FilterConstraint}
    (read : graph.filtersOf property = .ok constraints) :
    ∀ constraint ∈ constraints, ∃ node, graph.filterConstraint node = .ok constraint := by
  unfold filtersOf at read
  obtain ⟨nested, -, further⟩ := bind_ok.1 read
  split at further
  · obtain ⟨only, onlyRead, made⟩ := bind_ok.1 further
    cases made
    exact List.forall_mem_singleton.2 ⟨property, onlyRead⟩
  · intro constraint member
    obtain ⟨source, -, read⟩ := source_of_mem_mapM further constraint member
    exact ⟨source, read⟩

theorem filterConstraint_of_filters {shape : Node} {constraints : List FilterConstraint}
    (read : graph.filters shape = .ok constraints) :
    ∀ constraint ∈ constraints, ∃ node, graph.filterConstraint node = .ok constraint := by
  unfold filters at read
  obtain ⟨lists, listsRead, made⟩ := bind_ok.1 read
  cases made
  intro constraint member
  obtain ⟨list, listMember, inList⟩ := List.mem_flatten.1 member
  obtain ⟨source, -, read⟩ := source_of_mem_mapM listsRead list listMember
  obtain ⟨filterShape, -, read⟩ := bind_ok.1 read
  obtain ⟨inner, innerRead, made⟩ := bind_ok.1 read
  cases made
  obtain ⟨part, partMember, inPart⟩ := List.mem_flatten.1 inList
  obtain ⟨source, -, read⟩ := source_of_mem_mapM innerRead part partMember
  obtain ⟨property, -, read⟩ := bind_ok.1 read
  exact filterConstraint_of_filtersOf read constraint inPart

/-- Every condition of a property shape that is read was read by itself. -/
theorem filterConstraint_of_propertyShape {node : Node} {shape : PropertyShape}
    (read : graph.propertyShape node = .ok shape) :
    ∀ constraint ∈ shape.filters, ∃ node, graph.filterConstraint node = .ok constraint := by
  unfold propertyShape at read
  obtain ⟨synonym, -, further⟩ := bind_ok.1 read
  obtain ⟨paths, pathsRead, further⟩ := bind_ok.1 further
  simp only at further
  split at further
  · cases further
  · obtain ⟨filters, filtersRead, further⟩ := bind_ok.1 further
    obtain ⟨classes, -, further⟩ := bind_ok.1 further
    obtain ⟨minCount, -, further⟩ := bind_ok.1 further
    obtain ⟨maxCount, -, made⟩ := bind_ok.1 further
    cases made
    exact filterConstraint_of_filters filtersRead

/-! ### Regular shapes -/

/-- A property shape that is read has regular parts. -/
theorem regular_of_propertyShape {node : Node} {shape : PropertyShape}
    (read : graph.propertyShape node = .ok shape) : shape.Regular := by
  obtain ⟨paths, choices⟩ := holds_of_propertyShape hops_of_pathWithin read
  refine ⟨paths, choices, fun constraint member => ?_⟩
  obtain ⟨source, constraintRead⟩ := filterConstraint_of_propertyShape read constraint member
  obtain ⟨-, -, plain⟩ := filterConstraint_cases constraintRead
  intro value valueMember
  obtain ⟨predicate, origin, valueRead⟩ := plain value valueMember
  exact ground_of_plainValue valueRead

/-- A property shape that is read has paths that can be followed. -/
theorem filled_of_propertyShape {node : Node} {shape : PropertyShape}
    (read : graph.propertyShape node = .ok shape) : shape.Filled := by
  obtain ⟨paths, choices⟩ := holds_of_propertyShape filled_of_pathWithin read
  exact ⟨paths, choices⟩

/-- Every property shape of a node shape that is read was read by itself. -/
theorem propertyShape_of_nodeShape {name : Iri} {shape : NodeShape}
    (read : graph.nodeShape name = .ok shape) :
    ∀ property ∈ shape.properties, ∃ node, graph.propertyShape node = .ok property := by
  unfold nodeShape at read
  simp only at read
  split at read
  · cases read
  · obtain ⟨classes, -, further⟩ := bind_ok.1 read
    obtain ⟨properties, propertiesRead, further⟩ := bind_ok.1 further
    obtain ⟨blankDepth, -, further⟩ := bind_ok.1 further
    obtain ⟨level, -, made⟩ := bind_ok.1 further
    cases made
    intro property member
    obtain ⟨source, -, read⟩ := source_of_mem_mapM propertiesRead property
      (List.mem_mergeSort.1 member)
    obtain ⟨node, -, read⟩ := bind_ok.1 read
    exact ⟨node, read⟩

/-- The property shapes of a node shape that is read have regular parts. -/
theorem regular_of_nodeShape {name : Iri} {shape : NodeShape}
    (read : graph.nodeShape name = .ok shape) :
    ∀ property ∈ shape.properties, property.Regular := by
  intro property member
  obtain ⟨node, propertyRead⟩ := propertyShape_of_nodeShape read property member
  exact regular_of_propertyShape propertyRead

end Rdf.Graph

end ShapeQuery
