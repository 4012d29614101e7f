/-
This file counts the resources of a selection.
-/
import ShapeQuery.Listing.Selection
import ShapeQuery.Sparql.Query

namespace ShapeQuery.Listing.Count

open Sparql (Variable Group Query TemplateTriple)

/-- The number of the resources. -/
def count : Variable := ⟨"count"⟩

/-- The triple that tells the number. -/
def template : List TemplateTriple :=
  [⟨.blank "count", .iri Vocabulary.prezCount, .var count⟩]

/-- The query that counts the selected resources, each of them once. -/
def query (selection : Group) : Query :=
  .ofTemplate template
    [solutions [.expression resourceCount count] (resources selection) .empty] .empty

end ShapeQuery.Listing.Count
