/-
This file lists what can be missing from a query tree so that it has no text.
-/
import ShapeQuery.Sparql.Term

namespace ShapeQuery.Sparql

/-- Why a query tree cannot be written. -/
inductive Defect where
  | emptySequence
  | emptyAlternative
  | emptyLogical
  | argumentCount (function : String) (count : Nat)
  | predicate (term : Term)
  | emptyRun
  | emptyUnion
  | noDataVariable
  | dataRow
  | emptyProjection
deriving DecidableEq

/-- The wording of a defect; a row of data that does not match its variables has none. -/
def Defect.message? : Defect → Option String
  | .emptySequence => some "A sequence path must have at least one element."
  | .emptyAlternative => some "An alternative path must have at least one member."
  | .emptyLogical => some "A logical expression must have at least one operand."
  | .argumentCount function count =>
    some (function ++ " does not accept " ++ toString count ++ " arguments.")
  | .predicate term => some (term.text ++ " cannot be used as a predicate.")
  | .emptyRun => some "A triples block must contain at least one triple."
  | .emptyUnion => some "A UNION must have at least one branch."
  | .noDataVariable => some "A VALUES block must bind at least one variable."
  | .dataRow => none
  | .emptyProjection => some "A SELECT clause must project at least one variable."

/-- The text of some lexemes, unless the tree they stand for has a defect; the first defect in
the order of writing is reported. -/
def rendered (defects : List Defect) (lexemes : List Lexeme) : Except Defect String :=
  match defects with
  | [] => .ok (Lexeme.written lexemes)
  | defect :: _ => .error defect

end ShapeQuery.Sparql
