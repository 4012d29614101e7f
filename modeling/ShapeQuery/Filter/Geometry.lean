/-
This file defines geometries, checks them, and reads them from JSON.
-/
import ShapeQuery.Filter.Error

namespace ShapeQuery.Filter

open Number (Binary64)

/-- The ordinates of a position. Only the first two of them are used. -/
abbrev Position := List Binary64

/-- A geometry. -/
inductive Geometry where
  | point (position : Position)
  | multiPoint (positions : List Position)
  | lineString (positions : List Position)
  | multiLineString (lines : List (List Position))
  | polygon (rings : List (List Position))
  | multiPolygon (polygons : List (List (List Position)))
deriving DecidableEq, Inhabited

namespace Geometry

/-- The positions of a geometry in the order of writing. -/
def positions : Geometry → List Position
  | .point position => [position]
  | .multiPoint positions => positions
  | .lineString positions => positions
  | .multiLineString lines => lines.flatten
  | .polygon rings => rings.flatten
  | .multiPolygon polygons => polygons.flatten.flatten

/-! ### Checks -/

/-- Checks the ordinates of a position. -/
def checkPosition (position : Position) : Except GeometryFault Unit :=
  if position.length < 2 ∨ 3 < position.length then .error (.positionSize position.length)
  else if position.all Binary64.isFinite then .ok ()
  else .error .infiniteOrdinate

/-- Checks the positions of a geometry and the rings of a polygon. -/
def check (geometry : Geometry) : Except GeometryFault Unit := do
  geometry.positions.forM checkPosition
  match geometry with
  | .polygon rings =>
    if rings.any fun ring => ring.length < 4 then .error .shortRing else .ok ()
  | _ => .ok ()

/-! ### Bounding boxes -/

/-- The polygon that covers a box, which is given by its least and greatest ordinates. -/
def ofBox (values : List Binary64) : Except Error Geometry :=
  match values with
  | [west, south, east, north] =>
    .ok (.polygon
      [[[west, south], [west, north], [east, north], [east, south], [west, south]]])
  | [_, _, _, _, _, _] => .error (.unsupported .solidBox)
  | _ => .error (.invalidGeometry (.boxSize values.length))

/-- Reads a bounding box. -/
def boxOfJson (box : Json) : Except Error Geometry :=
  match box.array?.bind fun elements => elements.mapM Json.float? with
  | some values => ofBox values
  | none => .error (.invalidGeometry (.box box))

/-! ### Coordinates -/

/-- The types of geometries, each with a reader of its coordinates. -/
def readers : List (String × (Json → Except Json.Fault Geometry)) :=
  let position := Json.readList Json.readFloat
  let line := Json.readList position
  let lines := Json.readList line
  [("Point", fun coordinates => (position coordinates).map .point),
   ("MultiPoint", fun coordinates => (line coordinates).map .multiPoint),
   ("LineString", fun coordinates => (line coordinates).map .lineString),
   ("MultiLineString", fun coordinates => (lines coordinates).map .multiLineString),
   ("Polygon", fun coordinates => (lines coordinates).map .polygon),
   ("MultiPolygon", fun coordinates =>
     (Json.readList lines coordinates).map .multiPolygon)]

/-- What is expected where a geometry is read. -/
def expectation : String := "adjacently tagged enum Geometry"

/-- Reads a geometry: an object with a type and coordinates, or an array of the two. -/
def form (value : Json) : Except Json.Fault Geometry := do
  match value with
  | .object members =>
    match Json.lookup "type" members with
    | none => .error (.missingField "type")
    | some type =>
      let read ← Json.readVariant readers type
      match Json.lookup "coordinates" members with
      | none => .error (.missingField "coordinates")
      | some coordinates => read coordinates
  | .array elements =>
    match elements with
    | [] => .error (.wrongLength 0 expectation)
    | type :: rest =>
      let read ← match type with
        | .string _ => Json.readVariant readers type
        | _ => .error (.wrongType type "variant identifier")
      match rest with
      | [] => .error (.wrongLength 1 expectation)
      | coordinates :: further =>
        let geometry ← read coordinates
        if further.isEmpty then .ok geometry else .error (Json.tooLong elements)
  | _ => .error (.wrongType value expectation)

/-- Reads a geometry or a bounding box. -/
def ofJson (value : Json) : Except Error Geometry := do
  match value.member? "bbox" with
  | some box => boxOfJson box
  | none =>
    let geometry ← (form value).mapError fun fault => .invalidGeometry (.form fault)
    (geometry.check).mapError .invalidGeometry
    return geometry

end Geometry

end ShapeQuery.Filter
