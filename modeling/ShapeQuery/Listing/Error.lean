/-
This file lists what can keep a query from being built, and tells the faults of a request from
those of the configuration.
-/
import ShapeQuery.Calendar.Fault
import ShapeQuery.Filter.Error
import ShapeQuery.Sparql.Defect

namespace ShapeQuery.Listing

/-- What is wrong with a parameter of a request. -/
inductive ParameterFault where
  | noLimit
  | noPage
  | pageTooLarge
  | orderNotAnIri (text : String) (fault : Iri.Fault)
  | orderWithoutPredicate
  | unknownOrderValue
  | weightWithoutSearch
  | box (fault : Filter.Error)
  | notADatetime (text : String) (fault : Calendar.Fault)
  | noDatetimeBound
  | emptyTerm
  | noSearchPredicate

namespace ParameterFault

/-- The name of the parameter. -/
def parameter : ParameterFault → String
  | .noLimit => "limit"
  | .noPage => "page"
  | .pageTooLarge => "page"
  | .orderNotAnIri .. => "order_by"
  | .orderWithoutPredicate => "order_by"
  | .unknownOrderValue => "order_by_value"
  | .weightWithoutSearch => "order_by_value"
  | .box _ => "bbox"
  | .notADatetime .. => "datetime"
  | .noDatetimeBound => "datetime"
  | .emptyTerm => "q"
  | .noSearchPredicate => "predicates"

/-- The reason in words. -/
def reason : ParameterFault → String
  | .noLimit => "must be greater than zero"
  | .noPage => "pages start at 1"
  | .pageTooLarge => "is too large"
  | .orderNotAnIri text fault => "'" ++ text ++ "' is not an IRI: " ++ fault.message
  | .orderWithoutPredicate => "ordering by value requires a predicate"
  | .unknownOrderValue => "must be \"label\", \"order_by_val\", or \"weight\""
  | .weightWithoutSearch => "ordering by weight requires a search term"
  | .box fault => fault.message
  | .notADatetime text fault => "'" ++ text ++ "' is not a datetime: " ++ fault.message
  | .noDatetimeBound => "at least one bound is required"
  | .emptyTerm => "the search term is empty"
  | .noSearchPredicate => "at least one predicate is required"

/-- The wording of a fault. -/
def message (fault : ParameterFault) : String :=
  "Invalid value for the parameter '" ++ fault.parameter ++ "': " ++ fault.reason

end ParameterFault

/-- Why a query cannot be built. -/
inductive BuildError where
  | shape (error : Shape.Error)
  | filter (error : Filter.Error)
  | parameter (fault : ParameterFault)
  /-- A part of the query that has to be named by its text has none. -/
  | unwritable (defect : Sparql.Defect)

namespace BuildError

/-- The wording of an error. -/
def message : BuildError → String
  | .shape error => error.message
  | .filter error => error.message
  | .parameter fault => fault.message
  | .unwritable defect => defect.message?.getD "A part of the query cannot be written."

/-- Whether the request is to blame, and not the configuration. -/
def isClientError : BuildError → Bool
  | .shape _ => false
  | .filter _ => true
  | .parameter _ => true
  | .unwritable _ => false

end BuildError

end ShapeQuery.Listing
