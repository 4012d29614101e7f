/-
This file defines node shapes and property shapes, which describe the resources of a graph by
their classes and by the paths that lead on from them.
-/
import ShapeQuery.Sparql.Path

namespace ShapeQuery

open Sparql (Path Term)

namespace Sparql.Path

/-- The number of nodes that a path binds: a sequence binds one for each element, any other path
only its last. -/
def hops : Path → Nat
  | .sequence paths => paths.length
  | _ => 1

/-- The predicate of a path that follows it backwards. -/
def inversePredicate? : Path → Option Iri
  | .inverse path => path.predicate?
  | _ => none

/-- Whether a path repeats another one. -/
def isRepetition : Path → Bool
  | .zeroOrMore _ => true
  | .oneOrMore _ => true
  | .zeroOrOne _ => true
  | _ => false

/-- The path that a repetition repeats. -/
def repeated? : Path → Option Path
  | .zeroOrMore path => some path
  | .oneOrMore path => some path
  | .zeroOrOne path => some path
  | _ => none

end Sparql.Path

/-- What a node shape is used for. -/
inductive ShapeKind where
  /-- It selects the resources of an endpoint. A path is matched as a whole. -/
  | endpoint
  /-- It describes a resource. Every step of a path is matched by itself, so that the result can
  show it. -/
  | profile
  /-- It leads from a resource to the text that a search looks at. -/
  | search
deriving DecidableEq, Inhabited

/-- The name of a kind. -/
def ShapeKind.text : ShapeKind → String
  | .endpoint => "endpoint"
  | .profile => "profile"
  | .search => "fts"

/-- A path of a property shape. With a synonym, the results show the end of the path as the value
of that predicate. -/
structure ShapePath where
  path : Path
  synonym : Option Iri
deriving Inhabited

/-- A condition on another property: its path leads to one of the values. -/
structure FilterConstraint where
  path : Path
  values : List Term
deriving Inhabited

/-- What is said about one property of a resource. -/
structure PropertyShape where
  id : String
  /-- The paths that must all lead somewhere. -/
  paths : List ShapePath
  /-- The paths one of which must lead somewhere. -/
  choices : List ShapePath
  /-- The classes one of which the value must have. -/
  classes : List Iri
  minCount : Option Nat
  maxCount : Option Nat
  filters : List FilterConstraint
deriving Inhabited

/-- What is said about a resource. -/
structure NodeShape where
  id : String
  classes : List Iri
  properties : List PropertyShape
  /-- How far chains of blank nodes are followed. -/
  blankDepth : Option Nat
  /-- The place of an endpoint in the hierarchy of endpoints. -/
  level : Option Nat
deriving Inhabited

end ShapeQuery
