/-
This file lists the IRIs of the vocabularies that the program knows.
-/
import ShapeQuery.Iri.Basic

namespace ShapeQuery.Vocabulary

/-! ### RDF -/

def rdfType : Iri := ⟨"http://www.w3.org/1999/02/22-rdf-syntax-ns#type"⟩
def rdfValue : Iri := ⟨"http://www.w3.org/1999/02/22-rdf-syntax-ns#value"⟩
def rdfFirst : Iri := ⟨"http://www.w3.org/1999/02/22-rdf-syntax-ns#first"⟩
def rdfRest : Iri := ⟨"http://www.w3.org/1999/02/22-rdf-syntax-ns#rest"⟩
def rdfNil : Iri := ⟨"http://www.w3.org/1999/02/22-rdf-syntax-ns#nil"⟩

/-! ### RDF Schema -/

def rdfsLabel : Iri := ⟨"http://www.w3.org/2000/01/rdf-schema#label"⟩
def rdfsResource : Iri := ⟨"http://www.w3.org/2000/01/rdf-schema#Resource"⟩

/-! ### XML Schema datatypes -/

def xsdBoolean : Iri := ⟨"http://www.w3.org/2001/XMLSchema#boolean"⟩
def xsdDate : Iri := ⟨"http://www.w3.org/2001/XMLSchema#date"⟩
def xsdDateTime : Iri := ⟨"http://www.w3.org/2001/XMLSchema#dateTime"⟩
def xsdDecimal : Iri := ⟨"http://www.w3.org/2001/XMLSchema#decimal"⟩
def xsdDouble : Iri := ⟨"http://www.w3.org/2001/XMLSchema#double"⟩
def xsdInteger : Iri := ⟨"http://www.w3.org/2001/XMLSchema#integer"⟩
def xsdString : Iri := ⟨"http://www.w3.org/2001/XMLSchema#string"⟩

/-! ### SHACL -/

def shAlternativePath : Iri := ⟨"http://www.w3.org/ns/shacl#alternativePath"⟩
def shClass : Iri := ⟨"http://www.w3.org/ns/shacl#class"⟩
def shFilterShape : Iri := ⟨"http://www.w3.org/ns/shacl#filterShape"⟩
def shHasValue : Iri := ⟨"http://www.w3.org/ns/shacl#hasValue"⟩
def shIn : Iri := ⟨"http://www.w3.org/ns/shacl#in"⟩
def shInversePath : Iri := ⟨"http://www.w3.org/ns/shacl#inversePath"⟩
def shMaxCount : Iri := ⟨"http://www.w3.org/ns/shacl#maxCount"⟩
def shMinCount : Iri := ⟨"http://www.w3.org/ns/shacl#minCount"⟩
def shOneOrMorePath : Iri := ⟨"http://www.w3.org/ns/shacl#oneOrMorePath"⟩
def shOr : Iri := ⟨"http://www.w3.org/ns/shacl#or"⟩
def shPath : Iri := ⟨"http://www.w3.org/ns/shacl#path"⟩
def shProperty : Iri := ⟨"http://www.w3.org/ns/shacl#property"⟩
def shTargetClass : Iri := ⟨"http://www.w3.org/ns/shacl#targetClass"⟩
def shThis : Iri := ⟨"http://www.w3.org/ns/shacl#this"⟩
def shUnion : Iri := ⟨"http://www.w3.org/ns/shacl#union"⟩
def shZeroOrMorePath : Iri := ⟨"http://www.w3.org/ns/shacl#zeroOrMorePath"⟩
def shZeroOrOnePath : Iri := ⟨"http://www.w3.org/ns/shacl#zeroOrOnePath"⟩

/-! ### Extensions of SHACL -/

def shextAllPredicateValues : Iri := ⟨"http://example.com/shacl-extension#allPredicateValues"⟩
def shextBnodeDepth : Iri := ⟨"http://example.com/shacl-extension#bnode-depth"⟩
def shextPathAlias : Iri := ⟨"http://example.com/shacl-extension#pathAlias"⟩

/-! ### Endpoint hierarchies -/

def ontHierarchyLevel : Iri := ⟨"https://prez.dev/ont/hierarchyLevel"⟩

/-! ### Query results -/

def prezCount : Iri := ⟨"https://prez.dev/count"⟩
def prezFacetCount : Iri := ⟨"https://prez.dev/facetCount"⟩
def prezFacetName : Iri := ⟨"https://prez.dev/facetName"⟩
def prezFacetValue : Iri := ⟨"https://prez.dev/facetValue"⟩
def prezLabel : Iri := ⟨"https://prez.dev/label"⟩
def prezSearchResult : Iri := ⟨"https://prez.dev/SearchResult"⟩
def prezSearchResultMatch : Iri := ⟨"https://prez.dev/searchResultMatch"⟩
def prezSearchResultPredicate : Iri := ⟨"https://prez.dev/searchResultPredicate"⟩
def prezSearchResultUri : Iri := ⟨"https://prez.dev/searchResultURI"⟩
def prezSearchResultWeight : Iri := ⟨"https://prez.dev/searchResultWeight"⟩

/-! ### GeoSPARQL -/

def geoAsWkt : Iri := ⟨"http://www.opengis.net/ont/geosparql#asWKT"⟩
def geoHasGeometry : Iri := ⟨"http://www.opengis.net/ont/geosparql#hasGeometry"⟩
def geoWktLiteral : Iri := ⟨"http://www.opengis.net/ont/geosparql#wktLiteral"⟩
def geoSfIntersects : Iri := ⟨"http://www.opengis.net/ont/geosparql#sfIntersects"⟩
def geoSfWithin : Iri := ⟨"http://www.opengis.net/ont/geosparql#sfWithin"⟩
def geoSfContains : Iri := ⟨"http://www.opengis.net/ont/geosparql#sfContains"⟩
def geoSfDisjoint : Iri := ⟨"http://www.opengis.net/ont/geosparql#sfDisjoint"⟩
def geoSfEquals : Iri := ⟨"http://www.opengis.net/ont/geosparql#sfEquals"⟩
def geoSfOverlaps : Iri := ⟨"http://www.opengis.net/ont/geosparql#sfOverlaps"⟩
def geoSfTouches : Iri := ⟨"http://www.opengis.net/ont/geosparql#sfTouches"⟩
def geoSfCrosses : Iri := ⟨"http://www.opengis.net/ont/geosparql#sfCrosses"⟩

/-! ### GeoSPARQL functions -/

def geofSfIntersects : Iri := ⟨"http://www.opengis.net/def/function/geosparql/sfIntersects"⟩
def geofSfWithin : Iri := ⟨"http://www.opengis.net/def/function/geosparql/sfWithin"⟩
def geofSfContains : Iri := ⟨"http://www.opengis.net/def/function/geosparql/sfContains"⟩
def geofSfDisjoint : Iri := ⟨"http://www.opengis.net/def/function/geosparql/sfDisjoint"⟩
def geofSfEquals : Iri := ⟨"http://www.opengis.net/def/function/geosparql/sfEquals"⟩
def geofSfOverlaps : Iri := ⟨"http://www.opengis.net/def/function/geosparql/sfOverlaps"⟩
def geofSfTouches : Iri := ⟨"http://www.opengis.net/def/function/geosparql/sfTouches"⟩
def geofSfCrosses : Iri := ⟨"http://www.opengis.net/def/function/geosparql/sfCrosses"⟩

/-! ### Spatial joins -/

def qleverNamespace : Iri := ⟨"https://qlever.cs.uni-freiburg.de/spatialSearch/"⟩
def qleverAlgorithm : Iri := ⟨"https://qlever.cs.uni-freiburg.de/spatialSearch/algorithm"⟩
def qleverLibspatialjoin : Iri := ⟨"https://qlever.cs.uni-freiburg.de/spatialSearch/libspatialjoin"⟩
def qleverLeft : Iri := ⟨"https://qlever.cs.uni-freiburg.de/spatialSearch/left"⟩
def qleverRight : Iri := ⟨"https://qlever.cs.uni-freiburg.de/spatialSearch/right"⟩
def qleverPayload : Iri := ⟨"https://qlever.cs.uni-freiburg.de/spatialSearch/payload"⟩
def qleverJoinType : Iri := ⟨"https://qlever.cs.uni-freiburg.de/spatialSearch/joinType"⟩
def qleverIntersects : Iri := ⟨"https://qlever.cs.uni-freiburg.de/spatialSearch/intersects"⟩
def qleverContains : Iri := ⟨"https://qlever.cs.uni-freiburg.de/spatialSearch/contains"⟩
def qleverTouches : Iri := ⟨"https://qlever.cs.uni-freiburg.de/spatialSearch/touches"⟩
def qleverCrosses : Iri := ⟨"https://qlever.cs.uni-freiburg.de/spatialSearch/crosses"⟩
def qleverOverlaps : Iri := ⟨"https://qlever.cs.uni-freiburg.de/spatialSearch/overlaps"⟩
def qleverEquals : Iri := ⟨"https://qlever.cs.uni-freiburg.de/spatialSearch/equals"⟩
def qleverWithin : Iri := ⟨"https://qlever.cs.uni-freiburg.de/spatialSearch/within"⟩

/-! ### Observations -/

def sosaHasFeatureOfInterest : Iri := ⟨"http://www.w3.org/ns/sosa/hasFeatureOfInterest"⟩
def sosaHasResult : Iri := ⟨"http://www.w3.org/ns/sosa/hasResult"⟩
def sosaHasSimpleResult : Iri := ⟨"http://www.w3.org/ns/sosa/hasSimpleResult"⟩
def sosaIsFeatureOfInterestOf : Iri := ⟨"http://www.w3.org/ns/sosa/isFeatureOfInterestOf"⟩
def sosaObservedProperty : Iri := ⟨"http://www.w3.org/ns/sosa/observedProperty"⟩

/-! ### Attributes -/

def ternAttribute : Iri := ⟨"https://w3id.org/tern/ontologies/tern/attribute"⟩
def ternHasAttribute : Iri := ⟨"https://w3id.org/tern/ontologies/tern/hasAttribute"⟩
def ternHasSimpleValue : Iri := ⟨"https://w3id.org/tern/ontologies/tern/hasSimpleValue"⟩
def ternHasValue : Iri := ⟨"https://w3id.org/tern/ontologies/tern/hasValue"⟩

/-! ### schema.org -/

def schemaAdditionalProperty : Iri := ⟨"https://schema.org/additionalProperty"⟩
def schemaName : Iri := ⟨"https://schema.org/name"⟩
def schemaPropertyId : Iri := ⟨"https://schema.org/propertyID"⟩
def schemaTemporal : Iri := ⟨"https://schema.org/temporal"⟩
def schemaValue : Iri := ⟨"https://schema.org/value"⟩

/-! ### Provenance -/

def provAgent : Iri := ⟨"http://www.w3.org/ns/prov#agent"⟩
def provHadRole : Iri := ⟨"http://www.w3.org/ns/prov#hadRole"⟩
def provQualifiedAttribution : Iri := ⟨"http://www.w3.org/ns/prov#qualifiedAttribution"⟩

/-! ### SKOS -/

def skosDefinition : Iri := ⟨"http://www.w3.org/2004/02/skos/core#definition"⟩
def skosPrefLabel : Iri := ⟨"http://www.w3.org/2004/02/skos/core#prefLabel"⟩

/-! ### Dublin Core -/

def dctermsDescription : Iri := ⟨"http://purl.org/dc/terms/description"⟩
def dctermsTitle : Iri := ⟨"http://purl.org/dc/terms/title"⟩

end ShapeQuery.Vocabulary
