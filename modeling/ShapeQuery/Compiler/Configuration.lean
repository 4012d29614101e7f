/-
This file defines the configuration of a compiler and reads it from JSON. Every setting has a
standard value, so that a configuration names only those that differ.
-/
import ShapeQuery.Filter.Spatial
import ShapeQuery.Iri.Scan
import ShapeQuery.Json.Reader
import ShapeQuery.Json.Record

namespace ShapeQuery

/-- The settings of a compiler. -/
structure Configuration where
  /-- The dialect of spatial filters. -/
  target : Filter.SpatialTarget
  /-- The coordinate reference system of geometries that name none. -/
  system : String
  /-- The predicates of the texts that are searched. -/
  searchPredicates : List Iri
  /-- The predicates of labels. -/
  labelPredicates : List Iri
  /-- The predicate of the moment of a resource. -/
  temporalPredicate : Iri
  /-- The length of a page unless the request says otherwise. -/
  standardLimit : Nat
  /-- The greatest length of a page. -/
  greatestLimit : Nat
  /-- The predicate that listings are ordered by unless the request says otherwise. -/
  orderPredicate : Option Iri
deriving DecidableEq

namespace Configuration

/-- The configuration without any settings of its own. -/
def standard : Configuration where
  target := .geoSparql
  system := Filter.defaultReferenceSystem
  searchPredicates := [Vocabulary.rdfsLabel, Vocabulary.skosPrefLabel, Vocabulary.dctermsTitle,
    Vocabulary.dctermsDescription, Vocabulary.skosDefinition]
  labelPredicates := [Vocabulary.skosPrefLabel, Vocabulary.dctermsTitle, Vocabulary.rdfsLabel,
    Vocabulary.schemaName]
  temporalPredicate := Vocabulary.schemaTemporal
  standardLimit := 20
  greatestLimit := 100
  orderPredicate := none

/-- The names of the settings in the order of a record. -/
def fieldNames : List String :=
  ["spatial_target", "default_crs", "search_predicates", "label_predicates",
   "temporal_predicate", "default_limit", "max_limit", "listing_order_predicate"]

/-- An absolute IRI. -/
def readIri (value : Json) : Except Json.Fault Iri := do
  match Iri.ofText? (← Json.readString value) with
  | some iri => return iri
  | none => .error (.invalidValue value "an absolute IRI")

/-- Reads a configuration. -/
def ofJson (value : Json) : Except Json.Fault Configuration := do
  let fields ← Json.readRecord fieldNames value
  return {
    target := ← Json.readField fields "spatial_target" standard.target
      (Json.readVariant Filter.SpatialTarget.names)
    system := ← Json.readField fields "default_crs" standard.system Json.readString
    searchPredicates := ← Json.readField fields "search_predicates" standard.searchPredicates
      (Json.readList readIri)
    labelPredicates := ← Json.readField fields "label_predicates" standard.labelPredicates
      (Json.readList readIri)
    temporalPredicate := ← Json.readField fields "temporal_predicate" standard.temporalPredicate
      readIri
    standardLimit := ← Json.readField fields "default_limit" standard.standardLimit Json.readWord
    greatestLimit := ← Json.readField fields "max_limit" standard.greatestLimit Json.readWord
    orderPredicate := ← Json.readField fields "listing_order_predicate" standard.orderPredicate
      (Json.readNullable readIri) }

/-- Whether no setting is given twice. -/
def isUnambiguous : Json → Bool
  | .object members =>
    fieldNames.all fun name => (members.countP fun member => member.1 = name) ≤ 1
  | _ => true

/-- Reads a configuration file, of which only the settings count. -/
def ofText? (text : String) : Option Configuration := do
  let document ← Json.written? (Json.otherThan fieldNames) text
  if isUnambiguous document then (ofJson document).toOption else none

end Configuration

end ShapeQuery
