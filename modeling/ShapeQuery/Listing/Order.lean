/-
This file finds the order of a listing.
-/
import ShapeQuery.Listing.Error
import ShapeQuery.Listing.Parameters
import ShapeQuery.Sparql.Pattern

namespace ShapeQuery.Listing

open Sparql (Variable Expression OrderCondition)

/-- The variable that an order value is bound to. -/
def OrderValue.toVariable (value : OrderValue) : Variable :=
  ⟨value.text⟩

/-- The order value with a name. -/
def OrderValue.ofName (name : String) : Except BuildError OrderValue :=
  match names.lookup name with
  | some value => .ok value
  | none => .error (.parameter .unknownOrderValue)

/-- The key of an order. Weights are compared as numbers, everything else as text without
language. -/
def OrderValue.key (value : OrderValue) : Expression :=
  match value with
  | .weight => .var value.toVariable
  | _ => .call .str [.var value.toVariable]

/-- The order of a listing. The predicate leads from a resource to its order value. -/
structure Order where
  predicate : Option Iri
  value : OrderValue
  direction : Direction
deriving DecidableEq, Inhabited

/-- The criterion of an order. -/
def Order.condition (order : Order) : OrderCondition :=
  match order.direction with
  | .ascending => .ascending order.value.key
  | .descending => .descending order.value.key

/-- The predicate that a request names. -/
def Parameters.orderPredicate (parameters : Parameters) : Except BuildError (Option Iri) :=
  match parameters.orderBy with
  | none => .ok none
  | some text =>
    match Iri.ofText text with
    | .ok predicate => .ok (some predicate)
    | .error fault => .error (.parameter (.orderNotAnIri text fault))

/-- What a request is ordered by, if anything. Unless the request says so, a search is ordered by
weight, and another listing by the named or the usual predicate. -/
def Parameters.orderSource (parameters : Parameters) (named usual : Option Iri) (search : Bool) :
    Option (OrderValue × Option Iri) :=
  match parameters.orderValue with
  | some .label => some (.label, named)
  | some .weight => some (.weight, none)
  | some .property => some (.property, named <|> usual)
  | none =>
    if search then some (.weight, none)
    else (named <|> usual).map fun predicate => (.property, some predicate)

/-- The direction of an order: the given one, or else the greatest weight first and other values
from the least on. -/
def Parameters.orderDirection (parameters : Parameters) (value : OrderValue) : Direction :=
  match parameters.direction, value with
  | some direction, _ => direction
  | none, .weight => .descending
  | none, _ => .ascending

/-- The order that a request asks for. -/
def Parameters.order (parameters : Parameters) (usual : Option Iri) (search : Bool) :
    Except BuildError (Option Order) := do
  let named ← parameters.orderPredicate
  return (parameters.orderSource named usual search).map fun (value, predicate) =>
    ⟨predicate, value, parameters.orderDirection value⟩

end ShapeQuery.Listing
