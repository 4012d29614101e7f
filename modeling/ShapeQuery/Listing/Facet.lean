/-
This file counts the resources of a selection for each value of some properties. Every path of a
property shape is a facet. It is named by its synonym, or else by its predicate, or else by the text
of its path.
-/
import ShapeQuery.Listing.Error
import ShapeQuery.Listing.Selection
import ShapeQuery.Shape.Lowering
import ShapeQuery.Sparql.Query

namespace ShapeQuery.Listing.Facet

open Sparql (Variable Group Element Expression Query TemplateTriple)
open Shape (Scope)

/-! ### Variables -/

/-- The name of a facet. -/
def name : Variable := ⟨"facetName"⟩

/-- A value of a facet. -/
def value : Variable := ⟨"facetValue"⟩

/-- The number of the resources with a value. -/
def count : Variable := ⟨"facetCount"⟩

/-! ### Branches -/

/-- The lowering of the paths. -/
def lowering : Lowering := ⟨.profile, focus, []⟩

/-- What names the facet of a path. -/
def label (path : ShapePath) : Except BuildError Expression :=
  match path.synonym, path.path.predicate? with
  | some synonym, _ => .ok (.iri synonym)
  | none, some predicate => .ok (.iri predicate)
  | none, none =>
    match path.path.render with
    | .ok text => .ok (.literal (.plain text))
    | .error defect => .error (.unwritable defect)

/-- The property shape of a single path. -/
def single (shape : String) (path : ShapePath) : PropertyShape :=
  { id := shape, paths := [path], choices := [], classes := [], minCount := none,
    maxCount := none, filters := [] }

/-- The branch of a facet, which binds its name and its values. -/
def branch (shape : String) (scope : Scope) (path : ShapePath) :
    Except BuildError (Group × Scope) := do
  let (fragment, scope) ← (lowering.property scope (single shape path)).mapError .shape
  match fragment.terminal.bind Sparql.Term.expression? with
  | none => .error (.shape (.unsupportedPath shape .noFacetValue))
  | some terminal =>
    return (fragment.pattern ++ [.bind (← label path) name, .bind terminal value], scope)

/-- The branches of some facets, with nodes of their own. -/
def branches (shape : String) (scope : Scope) :
    List ShapePath → Except BuildError (List Group)
  | [] => .ok []
  | path :: rest => do
    let (first, scope) ← branch shape scope path
    return first :: (← branches shape scope rest)

/-- The facets of a resource. A single branch needs no union. -/
def alternatives : List Group → Group
  | [only] => only
  | branches => [.union branches]

/-! ### The query -/

/-- The triples that tell a number. -/
def template : List TemplateTriple :=
  [⟨.blank "facet", .iri Vocabulary.prezFacetName, .var name⟩,
    ⟨.blank "facet", .iri Vocabulary.prezFacetValue, .var value⟩,
    ⟨.blank "facet", .iri Vocabulary.prezFacetCount, .var count⟩]

/-- The query that counts the selected resources for each facet and value. -/
def query (shape : PropertyShape) (selection : Group) : Except BuildError Query := do
  let paths := shape.paths ++ shape.choices
  if paths.isEmpty then .error (.shape (.missingPath shape.id))
  else
    let branches ← branches shape.id (Scope.start (lowering.kind.stem 0)) paths
    let selected := distinctly [.var Shape.focusNode] (resources selection) .empty
    return .ofTemplate template
      [solutions [.var name, .var value, .expression resourceCount count]
        (selected :: alternatives branches) ⟨[name, value], [], none, none⟩] .empty

end ShapeQuery.Listing.Facet
