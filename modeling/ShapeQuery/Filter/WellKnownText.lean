/-
This file writes geometries as well-known text. All ordinates are written with as many decimal
places as the one that needs the most of them.
-/
import ShapeQuery.Filter.Geometry

namespace ShapeQuery.Filter.Geometry

open Number (Binary64)

/-- The number of decimal places of the ordinates that are written. -/
def decimalPlaces (geometry : Geometry) : Nat :=
  let written := geometry.positions.flatMap fun position => position.take 2
  (written.map Binary64.decimalPlaces).foldl max 0

/-- Texts between parentheses, separated by commas. -/
def listText (texts : List String) : String :=
  "(" ++ ", ".intercalate texts ++ ")"

/-- The first two ordinates of a position. -/
def positionText (numeral : Binary64 → String) (position : Position) : String :=
  " ".intercalate ((position.take 2).map numeral)

/-- The positions of a line or of a ring. -/
def lineText (numeral : Binary64 → String) (line : List Position) : String :=
  listText (line.map (positionText numeral))

/-- Some lines, or the rings of a polygon. -/
def linesText (numeral : Binary64 → String) (lines : List (List Position)) : String :=
  listText (lines.map (lineText numeral))

/-- The text of a geometry whose numbers are written by `numeral`. -/
def textWith (numeral : Binary64 → String) : Geometry → String
  | .point position => "POINT (" ++ positionText numeral position ++ ")"
  | .multiPoint positions =>
    "MULTIPOINT "
      ++ listText (positions.map fun position => "(" ++ positionText numeral position ++ ")")
  | .lineString positions => "LINESTRING " ++ lineText numeral positions
  | .multiLineString lines => "MULTILINESTRING " ++ linesText numeral lines
  | .polygon rings => "POLYGON " ++ linesText numeral rings
  | .multiPolygon polygons => "MULTIPOLYGON " ++ listText (polygons.map (linesText numeral))

/-- The well-known text of a geometry. -/
def wellKnownText (geometry : Geometry) : String :=
  geometry.textWith (Binary64.fixedText geometry.decimalPlaces)

end ShapeQuery.Filter.Geometry
