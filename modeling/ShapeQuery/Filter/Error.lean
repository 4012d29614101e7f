/-
This file lists what can be wrong with a filter. All of it is the fault of the request, but a
queryable that cannot be lowered is the fault of its shape.
-/
import ShapeQuery.Iri.Scan
import ShapeQuery.Json.Fault
import ShapeQuery.Shape.Error
import ShapeQuery.Sparql.Term

namespace ShapeQuery.Filter

/-- What is wrong with an argument of an operator. -/
inductive ArgumentFault where
  | notAProperty (value : Json)
  | notAnIri (text : String) (fault : Iri.Fault)
  | notAPredicate (value : Json)
  | notAPattern (value : Json)
  | unsupportedValue (value : Json)
  | unsupportedTime (value : Json)
  | intervalBounds (value : Json)
  | unboundedInstant
  | noValue
  | noOperand
  | noValueNode (queryable : String)
  | blankOperand (term : Sparql.Term)

/-- The wording of a fault. -/
def ArgumentFault.message : ArgumentFault → String
  | .notAProperty value => "expected a property reference but got " ++ value.text
  | .notAnIri text fault => "'" ++ text ++ "' is not a valid IRI: " ++ fault.message
  | .notAPredicate value => value.text ++ " is not a predicate IRI"
  | .notAPattern value => "the pattern " ++ value.text ++ " is not a string"
  | .unsupportedValue value => "unsupported value " ++ value.text
  | .unsupportedTime value => "unsupported temporal value " ++ value.text
  | .intervalBounds value => "an interval needs exactly two bounds but got " ++ value.text
  | .unboundedInstant => "an instant cannot be unbounded"
  | .noValue => "the list of values is empty"
  | .noOperand => "at least one argument is required"
  | .noValueNode queryable => "the queryable '" ++ queryable ++ "' has no value node"
  | .blankOperand term => term.text ++ " cannot be used in a filter"

/-- What is wrong with a geometry. -/
inductive GeometryFault where
  | form (fault : Json.Fault)
  | box (value : Json)
  | boxSize (size : Nat)
  | positionSize (size : Nat)
  | infiniteOrdinate
  | shortRing

/-- The wording of a fault. -/
def GeometryFault.message : GeometryFault → String
  | .form fault => fault.message
  | .box value => "invalid bbox " ++ value.text
  | .boxSize size => "a bounding box needs four values but got " ++ toString size
  | .positionSize size =>
    "a position needs two or three ordinates but got " ++ toString size
  | .infiniteOrdinate => "ordinates must be finite numbers"
  | .shortRing => "a polygon ring needs at least four positions"

/-- What a filter may say but is not supported. -/
inductive Limitation where
  | solidBox
  | spatialRelation (relation : String)
  | inverseQueryable (name : String)
deriving DecidableEq

/-- The wording of a limitation. -/
def Limitation.message : Limitation → String
  | .solidBox => "bounding boxes with six values (XYZ)"
  | .spatialRelation relation => "the spatial operator '" ++ relation ++ "' on QLever"
  | .inverseQueryable name => "the inverse of the queryable '" ++ name ++ "'"

/-- Whether an operand of a temporal relation is a moment or has a beginning and an end. -/
inductive OperandKind where
  | instant
  | interval
deriving DecidableEq, Inhabited

/-- The name of a kind of operands. -/
def OperandKind.text : OperandKind → String
  | .instant => "instant"
  | .interval => "interval"

/-- What is wrong with a filter. -/
inductive Error where
  | notJson
  | malformed (fault : Json.Fault) (document : Json)
  | unknownOperator (name : String)
  | argumentCount (operator : String) (expected actual : Nat)
  | invalidArgument (operator : String) (fault : ArgumentFault)
  | undefinedRelation (relation : String) (left right : OperandKind)
  | unknownQueryable (name : String)
  | queryable (name : String) (source : Shape.Error)
  | invalidGeometry (fault : GeometryFault)
  | invalidTime (text : String)
  | unsupported (limitation : Limitation)

/-- The wording of an error. -/
def Error.message : Error → String
  | .notJson => "Malformed CQL2-JSON document"
  | .malformed fault document =>
    "Malformed CQL2-JSON document: " ++ fault.message ++ " in " ++ document.text
  | .unknownOperator name => "The operator '" ++ name ++ "' is not supported."
  | .argumentCount operator expected actual =>
    "The operator '" ++ operator ++ "' expects " ++ toString expected ++ " arguments but got "
      ++ toString actual ++ "."
  | .invalidArgument operator fault =>
    "Invalid argument for '" ++ operator ++ "': " ++ fault.message
  | .undefinedRelation relation left right =>
    "The temporal operator '" ++ relation ++ "' is not defined for " ++ left.text ++ " and "
      ++ right.text ++ " operands."
  | .unknownQueryable name => "Unknown queryable '" ++ name ++ "'."
  | .queryable name _ => "The queryable '" ++ name ++ "' could not be lowered."
  | .invalidGeometry fault => "Invalid geometry: " ++ fault.message
  | .invalidTime text => "Invalid date or datetime '" ++ text ++ "'."
  | .unsupported limitation => "Not supported: " ++ limitation.message

end ShapeQuery.Filter
