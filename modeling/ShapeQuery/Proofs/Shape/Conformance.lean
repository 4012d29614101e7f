/-
This file says which resources of a graph conform to a shape.
-/
import ShapeQuery.Proofs.Sparql.Evaluation
import ShapeQuery.Shape.Lowering

namespace ShapeQuery

open Sparql (Term)

/-- Whether a term of a graph has one of some classes. -/
def Rdf.Graph.HasClass (graph : Rdf.Graph) (term : Rdf.Term) (classes : List Iri) : Prop :=
  ∃ name ∈ classes, (term, .iri name) ∈ graph.edges Vocabulary.rdfType

/-- Whether a path stands for all predicates. -/
def ShapePath.isWildcard (path : ShapePath) : Bool :=
  path.path.predicate? = some Vocabulary.shextAllPredicateValues

/-- Whether a resource is the subject of a triple. -/
def Rdf.Graph.Describes (graph : Rdf.Graph) (resource : Iri) : Prop :=
  ∃ triple ∈ graph.triples, triple.subject.term = .iri resource

/-- Whether a path leads from a resource to a value, which must have one of the classes if there
are any. For all predicates, any triple of the resource will do. -/
def ShapePath.Reaches (graph : Rdf.Graph) (resource : Iri) (classes : List Iri)
    (path : ShapePath) : Prop :=
  if path.isWildcard then graph.Describes resource
  else ∃ value, path.path.Leads graph (.iri resource) value ∧
    (classes = [] ∨ graph.HasClass value classes)

/-- Whether a path leads from a resource to one of the values of a condition. -/
def FilterConstraint.Holds (graph : Rdf.Graph) (resource : Iri)
    (constraint : FilterConstraint) : Prop :=
  ∃ value ∈ constraint.values, ∃ term, value.value .empty = some term ∧
    constraint.path.Leads graph (.iri resource) term

namespace PropertyShape

/-- The predicates that a property shape declares. -/
def declared (shape : PropertyShape) : List Iri :=
  (shape.paths ++ shape.choices).filterMap fun path => path.path.predicate?

/-- The path whose end has to have one of the classes: the first one that does not stand for all
predicates, the longest ones first. -/
def decisive? (shape : PropertyShape) : Option ShapePath :=
  (Lowering.longestFirst shape.paths).find? fun path => !path.isWildcard

/-- Whether a resource satisfies a property shape. -/
def Satisfied (graph : Rdf.Graph) (resource : Iri) (shape : PropertyShape) : Prop :=
  if shape.maxCount = some 0 then
    ∃ triple ∈ graph.triples,
      triple.subject.term = .iri resource ∧ triple.predicate ∉ shape.declared
  else shape.minCount = some 0 ∨
    (∀ path ∈ shape.paths, path.Reaches graph resource []) ∧
    (∀ path, shape.decisive? = some path → path.Reaches graph resource shape.classes) ∧
    (shape.choices = [] ∨ ∃ choice ∈ shape.choices,
      choice.Reaches graph resource (if shape.decisive?.isNone then shape.classes else [])) ∧
    ∀ constraint ∈ shape.filters, constraint.Holds graph resource

end PropertyShape

/-- Whether a resource conforms to a node shape: it has one of the target classes, unless all
resources are meant, and satisfies every property shape. -/
def NodeShape.Conforms (graph : Rdf.Graph) (resource : Iri) (shape : NodeShape) : Prop :=
  (shape.classes = [Vocabulary.rdfsResource] ∨
      graph.HasClass (.iri resource) shape.classes) ∧
    ∀ property ∈ shape.properties, property.Satisfied graph resource

theorem ShapePath.Reaches.of_classes {graph : Rdf.Graph} {resource : Iri} {classes : List Iri}
    {path : ShapePath} (reaches : path.Reaches graph resource classes) :
    path.Reaches graph resource [] := by
  unfold Reaches at reaches ⊢
  split at reaches
  · rename_i wildcard
    rwa [if_pos wildcard]
  · rename_i ordinary
    rw [if_neg ordinary]
    obtain ⟨value, leads, -⟩ := reaches
    exact ⟨value, leads, .inl rfl⟩

/-- Where its only path leads somewhere, a property shape that asks for nothing else is
satisfied. -/
theorem PropertyShape.satisfied_of_reaches {graph : Rdf.Graph} {resource : Iri} {id : String}
    {path : ShapePath} (reaches : path.Reaches graph resource []) :
    Satisfied graph resource
      { id, paths := [path], choices := [], classes := [], minCount := none, maxCount := none,
        filters := [] } := by
  rw [Satisfied, if_neg nofun]
  refine .inr ⟨List.forall_mem_singleton.2 reaches, fun other decisive => ?_, .inl rfl, nofun⟩
  have listed := List.mem_of_find?_eq_some decisive
  rw [Lowering.longestFirst, List.mergeSort_singleton, List.mem_singleton] at listed
  exact listed ▸ reaches

end ShapeQuery
