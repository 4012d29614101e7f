/-
This file restricts a listing to the resources in a box and to those in a span of time.
-/
import ShapeQuery.Calendar.DateTime
import ShapeQuery.Filter.Spatial
import ShapeQuery.Listing.Error
import ShapeQuery.Text.Basic

namespace ShapeQuery.Listing

open Sparql (Term Variable Group Comparison)

/-! ### Space -/

/-- The resources whose geometry intersects a box. -/
def inBox (values : List Number.Binary64) (system : String) (target : Filter.SpatialTarget)
    (focus : Term) : Except BuildError Group :=
  let lowered := do
    let geometry ← Filter.Geometry.ofBox values
    let filter : Filter.SpatialFilter := ⟨.intersects, geometry, system, focus, "bbox"⟩
    filter.lower target
  lowered.mapError fun error => .parameter (.box error)

/-! ### Time -/

/-- A moment or a span of time with at least one bound. -/
inductive TimeSpan where
  | instant (moment : Literal)
  | until (finish : Literal)
  | since (start : Literal)
  | between (start finish : Literal)
deriving DecidableEq, Inhabited

namespace TimeSpan

/-- A moment. -/
def moment (text : String) : Except BuildError Literal :=
  match Calendar.readDateTime text with
  | .ok _ => .ok (.typed text Vocabulary.xsdDateTime)
  | .error fault => .error (.parameter (.notADatetime text fault))

/-- A bound, which may be missing. -/
def bound (text : String) : Except BuildError (Option Literal) :=
  if text = "" ∨ text = ".." then .ok none else (moment text).map some

/-- Reads a moment, or two bounds with a slash between them. -/
def ofText (text : String) : Except BuildError TimeSpan := do
  match Text.splitOnce '/' text with
  | none => return .instant (← moment text)
  | some (start, finish) =>
    let start ← bound start
    let finish ← bound finish
    match start, finish with
    | some start, some finish => return .between start finish
    | some start, none => return .since start
    | none, some finish => return .until finish
    | none, none => .error (.parameter .noDatetimeBound)

/-- The comparisons that hold of the moments in a span. -/
def comparisons : TimeSpan → List (Comparison × Literal)
  | .instant moment => [(.equal, moment)]
  | .until finish => [(.lessOrEqual, finish)]
  | .since start => [(.greaterOrEqual, start)]
  | .between start finish => [(.greaterOrEqual, start), (.lessOrEqual, finish)]

/-- The moment of a resource. -/
def datetime : Variable := ⟨"datetime"⟩

/-- The resources that have a moment in a span. -/
def lower (span : TimeSpan) (predicate : Iri) (focus : Term) : Group :=
  let conditions := span.comparisons.map fun (comparison, literal) =>
    Sparql.Element.filter (.compare (.var datetime) comparison (.literal literal))
  [.filter (.exists (.ofTriple focus (.predicate predicate) (.var datetime) :: conditions))]

end TimeSpan

end ShapeQuery.Listing
