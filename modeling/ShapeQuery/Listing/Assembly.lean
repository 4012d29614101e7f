/-
This file puts the query of a listing together. The resources of a page are selected first; then
the profile describes each of them.
-/
import ShapeQuery.Listing.Order
import ShapeQuery.Listing.Search
import ShapeQuery.Shape.Fragment

namespace ShapeQuery

open Sparql (Variable Group Element Projection Modifier Query TemplateTriple)

/-- The query for all that a fragment shows. -/
def Fragment.query (fragment : Fragment) : Query :=
  .ofTemplate fragment.template fragment.pattern .empty

namespace Listing

/-- What a listing is made of. -/
structure Assembly where
  profile : Fragment
  selection : Group
  search : Option Search
  order : Option Order
  page : Option Page

namespace Assembly

/-- Whether every described resource is listed. -/
def isWhole (assembly : Assembly) : Bool :=
  assembly.selection.isEmpty && assembly.search.isNone && assembly.order.isNone
    && assembly.page.isNone

/-! ### The selected resources -/

/-- The columns of the selection without those of the order. -/
def columns (assembly : Assembly) : List Projection :=
  match assembly.search with
  | some _ => Search.columns
  | none => [.var Shape.focusNode]

/-- The group of the selection without the triple of the order. -/
def selected (assembly : Assembly) : Group :=
  match assembly.search with
  | some search => assembly.selection ++ [search.matched]
  | none => resources assembly.selection

/-- The modifier of the selection without the order. -/
def sliced (assembly : Assembly) : Modifier :=
  match assembly.page with
  | none => .empty
  | some page =>
    match assembly.search with
    | some _ => Search.pageModifier page
    | none => ⟨[], [], some page.limit, some page.offset⟩

/-! ### Order -/

/-- The predicate that leads to the values of an order. Weights belong to the results of a search
and have none. -/
def orderPredicate (order : Order) (searching : Bool) : Except BuildError (Option Iri) :=
  match order.value, order.predicate with
  | .weight, _ =>
    if searching then .ok none else .error (.parameter .weightWithoutSearch)
  | _, some predicate => .ok (some predicate)
  | .label, none => .ok (some Vocabulary.rdfsLabel)
  | .property, none => .error (.parameter .orderWithoutPredicate)

/-- The column and the triple of an order value. -/
def orderValue (order : Order) (predicate : Iri) : Projection × Element :=
  (.var order.value.toVariable,
    .ofTriple focus (.predicate predicate) (.var order.value.toVariable))

/-- The selection of the resources of a page. -/
def pageSelection (assembly : Assembly) : Except BuildError Element := do
  match assembly.order with
  | none => return distinctly assembly.columns assembly.selected assembly.sliced
  | some order =>
    let modifier : Modifier := { assembly.sliced with orderBy := [order.condition] }
    match ← orderPredicate order assembly.search.isSome with
    | none => return distinctly assembly.columns assembly.selected modifier
    | some predicate =>
      let (column, triple) := orderValue order predicate
      return distinctly (assembly.columns ++ [column]) (assembly.selected ++ [triple]) modifier

/-! ### The query -/

/-- The triples that a listing shows: those of the profile and of the search results, and none of
the selection. -/
def template (assembly : Assembly) : List TemplateTriple :=
  match assembly.search with
  | some _ => assembly.profile.template ++ Search.template
  | none => assembly.profile.template

/-- The query of a listing. -/
def query (assembly : Assembly) : Except BuildError Query := do
  if assembly.isWhole then return assembly.profile.query
  else
    let selection ← assembly.pageSelection
    return .ofTemplate assembly.template (selection :: assembly.profile.pattern) .empty

end Assembly

end Listing

end ShapeQuery
