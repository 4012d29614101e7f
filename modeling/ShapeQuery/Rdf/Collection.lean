/-
This file reads RDF collections: chains of cells, each with an element and a rest, that end in the
empty collection. A cell is used once; a chain that comes back to a used cell is cyclic.
-/
import ShapeQuery.Rdf.Graph

namespace ShapeQuery.Rdf

/-- Why a chain of cells is no collection. -/
inductive CollectionFault where
  | cycle
  | literalCell
  | noElement
  | noRest
deriving DecidableEq

/-- The wording of a fault. -/
def CollectionFault.message : CollectionFault → String
  | .cycle => "the list contains a cycle"
  | .literalCell => "a list cell is a literal"
  | .noElement => "a list cell has no rdf:first"
  | .noRest => "a list cell has no rdf:rest"

namespace Graph

/-- The subjects of a graph, each of them once. -/
def subjects (graph : Graph) : List Node :=
  (graph.triples.map Triple.subject).eraseDups

/-- The elements of the chain that starts at a term, whose cells are taken from `unused`. -/
def chain (graph : Graph) (unused : List Node) (current : Term) :
    Except CollectionFault (List Term) :=
  if current = .iri Vocabulary.rdfNil then .ok []
  else
    match current.node? with
    | none => .error .literalCell
    | some cell =>
      if _member : cell ∈ unused then
        match graph.object? cell Vocabulary.rdfFirst with
        | none => .error .noElement
        | some element =>
          match graph.object? cell Vocabulary.rdfRest with
          | none => .error .noRest
          | some rest => (graph.chain (unused.erase cell) rest).map (element :: ·)
      else if graph.hasSubject cell then .error .cycle
      else .error .noElement
termination_by unused.length
decreasing_by
  rw [List.length_erase_of_mem _member]
  have := List.length_pos_of_mem _member
  omega

/-- The elements of the collection that starts at a term. -/
def collection (graph : Graph) (head : Term) : Except CollectionFault (List Term) :=
  graph.chain graph.subjects head

end Graph

end ShapeQuery.Rdf
