/-
This file compiles requests to queries.
-/
import ShapeQuery.Compiler.Basic
import ShapeQuery.Listing.Assembly
import ShapeQuery.Listing.Count
import ShapeQuery.Listing.Facet

namespace ShapeQuery.Compiler

open Listing (BuildError Page Parameters Search)
open Sparql (Query Term Variable Element TemplateTriple)

/-! ### Parts -/

/-- What a profile tells about the focus. -/
def described (profile : NodeShape) (focus : Term) : Except BuildError Fragment :=
  let lowering : Lowering := ⟨.profile, focus, []⟩
  (lowering.nodeShape profile).mapError .shape

/-- The page of a request. -/
def page (compiler : Compiler) (parameters : Parameters) : Except BuildError Page :=
  parameters.toPage compiler.configuration.standardLimit compiler.configuration.greatestLimit

/-- The search for a term. -/
def searched (compiler : Compiler) (term : String) : Except BuildError Search :=
  Search.ofTerm term compiler.configuration.searchPredicates

/-! ### Queries -/

/-- The query that describes a single resource. -/
def object (profile : NodeShape) (focus : Iri) : Except BuildError Query := do
  return (← described profile (.iri focus)).query

/-- The query that describes the resources of a page. -/
def listing (compiler : Compiler) (profile : NodeShape) (request : Request) :
    Except BuildError Query := do
  let profile ← described profile Listing.focus
  let page ← compiler.page request.parameters
  let selection ← compiler.selection request
  let order ←
    request.parameters.order compiler.configuration.orderPredicate request.search.isSome
  let search ← request.search.mapM compiler.searched
  let assembly : Listing.Assembly := ⟨profile, selection, search, order, some page⟩
  assembly.query

/-- The query that counts the resources of a request. -/
def count (compiler : Compiler) (request : Request) : Except BuildError Query := do
  return Listing.Count.query (← compiler.selection request)

/-- The query that counts the resources of a request for each value of some facets. -/
def facets (compiler : Compiler) (shape : PropertyShape) (request : Request) :
    Except BuildError Query := do
  Listing.Facet.query shape (← compiler.selection request)

/-- The query of a page of search results. -/
def search (compiler : Compiler) (term : String) (parameters : Parameters) :
    Except BuildError Query := do
  let page ← compiler.page parameters
  return (← compiler.searched term).query page

/-- The query for the triples that a filter looks at. -/
def filter (compiler : Compiler) (document : Json) : Except BuildError Query :=
  let query := do compiler.translator.query (← Filter.Expression.ofJson document)
  query.mapError .filter

/-! ### Labels -/

/-- A resource with a label. -/
def labelled : Variable := ⟨"iri"⟩

/-- The predicate of a label. -/
def labelPredicate : Variable := ⟨"label_predicate"⟩

/-- A label. -/
def label : Variable := ⟨"label"⟩

/-- The query for the labels of some resources, unless there is nothing to ask for. -/
def labels (compiler : Compiler) (resources : List Iri) : Option Query :=
  if resources.isEmpty || compiler.configuration.labelPredicates.isEmpty then none
  else
    let template : TemplateTriple := ⟨.var labelled, .iri Vocabulary.prezLabel, .var label⟩
    some (.ofTemplate [template]
      [.column labelled (resources.map .iri),
        .column labelPredicate (compiler.configuration.labelPredicates.map .iri),
        .ofTriple (.var labelled) (.var labelPredicate) (.var label)]
      .empty)

end ShapeQuery.Compiler
