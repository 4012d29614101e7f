/-
This file lowers spatial relations between the geometry of a resource and a given geometry, in
the dialects of three query engines.
-/
import ShapeQuery.Filter.WellKnownText
import ShapeQuery.Sparql.Group

namespace ShapeQuery.Filter

open Sparql (Term Variable Group TriplePattern)

/-- The coordinate reference system of geometries unless another one is given. -/
def defaultReferenceSystem : String := "http://www.opengis.net/def/crs/OGC/1.3/CRS84"

/-- A dialect of spatial filters. -/
inductive SpatialTarget where
  /-- The filter functions of GeoSPARQL. -/
  | geoSparql
  /-- The spatial join service of QLever. -/
  | qlever
  /-- The relation predicates of GraphDB. -/
  | graphDb
deriving DecidableEq, Inhabited

namespace SpatialTarget

/-- The names of the dialects. -/
def names : List (String × SpatialTarget) :=
  [("geosparql", .geoSparql), ("qlever", .qlever), ("graphdb", .graphDb)]

/-- The name of a dialect. -/
def text : SpatialTarget → String
  | .geoSparql => "geosparql"
  | .qlever => "qlever"
  | .graphDb => "graphdb"

end SpatialTarget

/-- A spatial relation. -/
inductive SpatialRelation where
  | intersects
  | within
  | contains
  | disjoint
  | equals
  | overlaps
  | touches
  | crosses
deriving DecidableEq, Inhabited

namespace SpatialRelation

/-- All spatial relations. -/
def all : List SpatialRelation :=
  [.intersects, .within, .contains, .disjoint, .equals, .overlaps, .touches, .crosses]

/-- The operator of a relation. -/
def name : SpatialRelation → String
  | .intersects => "s_intersects"
  | .within => "s_within"
  | .contains => "s_contains"
  | .disjoint => "s_disjoint"
  | .equals => "s_equals"
  | .overlaps => "s_overlaps"
  | .touches => "s_touches"
  | .crosses => "s_crosses"

/-- The relation of an operator. -/
def ofName? (name : String) : Option SpatialRelation :=
  all.find? fun relation => relation.name = name

/-- The filter function of a relation. -/
def function : SpatialRelation → Iri
  | .intersects => Vocabulary.geofSfIntersects
  | .within => Vocabulary.geofSfWithin
  | .contains => Vocabulary.geofSfContains
  | .disjoint => Vocabulary.geofSfDisjoint
  | .equals => Vocabulary.geofSfEquals
  | .overlaps => Vocabulary.geofSfOverlaps
  | .touches => Vocabulary.geofSfTouches
  | .crosses => Vocabulary.geofSfCrosses

/-- The predicate of a relation. -/
def predicate : SpatialRelation → Iri
  | .intersects => Vocabulary.geoSfIntersects
  | .within => Vocabulary.geoSfWithin
  | .contains => Vocabulary.geoSfContains
  | .disjoint => Vocabulary.geoSfDisjoint
  | .equals => Vocabulary.geoSfEquals
  | .overlaps => Vocabulary.geoSfOverlaps
  | .touches => Vocabulary.geoSfTouches
  | .crosses => Vocabulary.geoSfCrosses

/-- The kind of spatial join that finds the resources in a relation to the given geometry. The
given geometry is the left side of the join, which turns the relations that are not symmetric
around. -/
def joinType? : SpatialRelation → Option Iri
  | .intersects => some Vocabulary.qleverIntersects
  | .within => some Vocabulary.qleverContains
  | .contains => some Vocabulary.qleverWithin
  | .equals => some Vocabulary.qleverEquals
  | .overlaps => some Vocabulary.qleverOverlaps
  | .touches => some Vocabulary.qleverTouches
  | .crosses => some Vocabulary.qleverCrosses
  | .disjoint => none

end SpatialRelation

/-- A relation to a geometry, for the resources whose geometry is in it. The variables of the
filter end in a suffix. -/
structure SpatialFilter where
  relation : SpatialRelation
  geometry : Geometry
  /-- The coordinate reference system. -/
  system : String
  subject : Term
  suffix : String

namespace SpatialFilter

/-- A variable of the filter. -/
def named (filter : SpatialFilter) (stem : String) : Variable :=
  ⟨stem ++ "_" ++ filter.suffix⟩

/-- The geometry as a literal, with the coordinate reference system before it. -/
def literal (filter : SpatialFilter) : Literal :=
  .typed ("<" ++ filter.system ++ "> " ++ filter.geometry.wellKnownText)
    Vocabulary.geoWktLiteral

/-- The geometry as a literal without a coordinate reference system. -/
def bareLiteral (filter : SpatialFilter) : Literal :=
  .typed filter.geometry.wellKnownText Vocabulary.geoWktLiteral

/-- The node of the geometry of the subject. -/
def geometryNode (filter : SpatialFilter) : Variable := filter.named "geom_bnode"

/-- The text of the geometry of the subject. -/
def geometryText (filter : SpatialFilter) : Variable := filter.named "geom_var"

/-- The triples that lead to the geometry of the subject. -/
def geometryTriples (filter : SpatialFilter) : List TriplePattern :=
  [⟨filter.subject, .predicate Vocabulary.geoHasGeometry, .var filter.geometryNode⟩,
   ⟨.var filter.geometryNode, .predicate Vocabulary.geoAsWkt, .var filter.geometryText⟩]

/-- The call of a spatial join. -/
def join (filter : SpatialFilter) (joinType : Iri) : Group :=
  let input := filter.named "wkt_input"
  let configuration : Term := .blank ("config_" ++ filter.suffix)
  let parameter := fun (predicate : Iri) (value : Term) =>
    TriplePattern.mk configuration (.predicate predicate) value
  let service : Group :=
    Group.ofTriples
        [parameter Vocabulary.qleverAlgorithm (.iri Vocabulary.qleverLibspatialjoin),
         parameter Vocabulary.qleverLeft (.var input),
         parameter Vocabulary.qleverRight (.var filter.geometryText),
         parameter Vocabulary.qleverPayload filter.subject,
         parameter Vocabulary.qleverJoinType (.iri joinType)]
      ++ [.group (Group.ofTriples filter.geometryTriples)]
  [.group
    [.column input [.literal filter.bareLiteral],
     .service Vocabulary.qleverNamespace false service]]

/-- Lowers the filter to a dialect. -/
def lower (filter : SpatialFilter) (target : SpatialTarget) : Except Error Group :=
  match target with
  | .geoSparql =>
    .ok (Group.ofTriples filter.geometryTriples
      ++ [.filter (.call (.custom filter.relation.function)
        [.var filter.geometryText, .literal filter.literal])])
  | .graphDb =>
    .ok (Group.ofTriples filter.geometryTriples
      ++ [.filter (.exists
        [.ofTriple (.var filter.geometryNode) (.predicate filter.relation.predicate)
          (.literal filter.literal)])])
  | .qlever =>
    match filter.relation.joinType? with
    | some joinType => .ok (filter.join joinType)
    | none => .error (.unsupported (.spatialRelation filter.relation.name))

end SpatialFilter

end ShapeQuery.Filter
