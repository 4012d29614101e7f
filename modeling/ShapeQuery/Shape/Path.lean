/-
This file reads property paths from shape graphs. An IRI is a path of its own; any other path is a
blank node with one construct. The nesting of paths is bounded, which also ends cyclic ones.
-/
import ShapeQuery.Shape.Basic
import ShapeQuery.Shape.Error

namespace ShapeQuery.Rdf.Graph

open Sparql (Path)
open Shape (PathFault)

/-- How deep paths may be nested. -/
def greatestPathDepth : Nat := 32

/-- The elements of the collection that starts at a term of a shape graph. -/
def elements (graph : Graph) (head : Term) : Except Shape.Error (List Term) :=
  (graph.collection head).mapError (.malformedCollection head)

/-- The path at a node, nested in fewer than the given number of levels. -/
def pathWithin (graph : Graph) : Nat → Term → Except Shape.Error Path
  | 0, node => .error (.unsupportedPath node.text .tooDeep)
  | levels + 1, node =>
    let unsupported := fun (fault : PathFault) => .error (.unsupportedPath node.text fault)
    let inner := graph.pathWithin levels
    match node with
    | .literal _ => unsupported .notAPath
    | .iri name =>
      if name = Vocabulary.rdfNil then unsupported .emptySequence else .ok (.predicate name)
    | .blank label =>
      let object? := graph.object? (.blank label)
      if let some path := object? Vocabulary.shInversePath then (inner path).map .inverse
      else if let some path := object? Vocabulary.shZeroOrMorePath then
        (inner path).map .zeroOrMore
      else if let some path := object? Vocabulary.shOneOrMorePath then
        (inner path).map .oneOrMore
      else if let some path := object? Vocabulary.shZeroOrOnePath then
        (inner path).map .zeroOrOne
      else if let some members := object? Vocabulary.shAlternativePath then do
        let paths ← (← graph.elements members).mapM inner
        if paths.isEmpty then unsupported .emptyAlternative else .ok (.alternative paths)
      else if (object? Vocabulary.rdfFirst).isSome then do
        match ← (← graph.elements node).mapM inner with
        | [path] => .ok path
        | paths => .ok (.sequence paths)
      else if (object? Vocabulary.shUnion).isSome then unsupported .nestedUnion
      else unsupported .unknownConstruct

/-- The path at a node. -/
def path (graph : Graph) (node : Term) : Except Shape.Error Path :=
  graph.pathWithin (greatestPathDepth + 1) node

end ShapeQuery.Rdf.Graph
