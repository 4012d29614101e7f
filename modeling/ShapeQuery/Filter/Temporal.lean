/-
This file defines the temporal relations. Both sides of a relation are periods with a start and an
end; a relation is a list of comparisons between these. An unbounded start comes before everything
and an unbounded end after everything, so that a comparison with one is decided at once.
-/
import ShapeQuery.Filter.Value

namespace ShapeQuery.Filter

open Sparql (Expression Comparison)

/-- A temporal relation. -/
inductive TemporalRelation where
  | after
  | before
  | contains
  | disjoint
  | during
  | equals
  | finishedBy
  | finishes
  | intersects
  | meets
  | metBy
  | overlappedBy
  | overlaps
  | startedBy
  | starts
deriving DecidableEq, Inhabited

namespace TemporalRelation

/-- All temporal relations. -/
def all : List TemporalRelation :=
  [.after, .before, .contains, .disjoint, .during, .equals, .finishedBy, .finishes, .intersects,
   .meets, .metBy, .overlappedBy, .overlaps, .startedBy, .starts]

/-- The operator of a relation. -/
def name : TemporalRelation → String
  | .after => "t_after"
  | .before => "t_before"
  | .contains => "t_contains"
  | .disjoint => "t_disjoint"
  | .during => "t_during"
  | .equals => "t_equals"
  | .finishedBy => "t_finishedBy"
  | .finishes => "t_finishes"
  | .intersects => "t_intersects"
  | .meets => "t_meets"
  | .metBy => "t_metBy"
  | .overlappedBy => "t_overlappedBy"
  | .overlaps => "t_overlaps"
  | .startedBy => "t_startedBy"
  | .starts => "t_starts"

/-- The relation of an operator. -/
def ofName? (name : String) : Option TemporalRelation :=
  all.find? fun relation => relation.name = name

/-- Whether a relation is defined for moments too. -/
def acceptsInstants : TemporalRelation → Bool
  | .after => true
  | .before => true
  | .disjoint => true
  | .equals => true
  | .intersects => true
  | _ => false

/-- Checks that a relation is defined for two kinds of operands. -/
def checkKinds (relation : TemporalRelation) (left right : OperandKind) : Except Error Unit :=
  if (left = .instant ∨ right = .instant) ∧ !relation.acceptsInstants then
    .error (.undefinedRelation relation.name left right)
  else .ok ()

end TemporalRelation

/-! ### Periods -/

/-- An end of a period: a value, or beyond all values. -/
inductive Endpoint where
  | beforeAll
  | value (value : Expression)
  | afterAll

/-- A period; a side without a value is unbounded. -/
structure Period where
  start : Option Expression
  finish : Option Expression

namespace Period

/-- The period of a single moment. -/
def instant (value : Expression) : Period :=
  ⟨some value, some value⟩

/-- The start of a period. -/
def startPoint (period : Period) : Endpoint :=
  (period.start.map .value).getD .beforeAll

/-- The end of a period. -/
def finishPoint (period : Period) : Endpoint :=
  (period.finish.map .value).getD .afterAll

end Period

/-! ### Conditions -/

/-- A condition that is decided already, or one that is left to the query. -/
inductive Condition where
  | decided (holds : Bool)
  | undecided (expression : Expression)

namespace Condition

/-- A condition as an expression. -/
def expression : Condition → Expression
  | .decided holds => .literal (.ofBool holds)
  | .undecided expression => expression

/-- Compares two endpoints that are not both values, by the places of their sides. -/
def decide (left right : Nat) : Comparison → Bool
  | .equal => left = right
  | .notEqual => left ≠ right
  | .less => left < right
  | .lessOrEqual => left ≤ right
  | .greater => right < left
  | .greaterOrEqual => right ≤ left

/-- Whether an endpoint is before, among or after the values. -/
def place : Endpoint → Nat
  | .beforeAll => 0
  | .value _ => 1
  | .afterAll => 2

/-- Compares two endpoints. -/
def compare (left : Endpoint) (comparison : Comparison) (right : Endpoint) : Condition :=
  match left, right with
  | .value left, .value right => .undecided (.compare left comparison right)
  | left, right => .decided (decide (place left) (place right) comparison)

/-- The expressions that are left to the query. -/
def pending (conditions : List Condition) : List Expression :=
  conditions.filterMap fun
    | .decided _ => none
    | .undecided expression => some expression

/-- Whether some condition is decided in the given way. -/
def anyDecided (holds : Bool) (conditions : List Condition) : Bool :=
  conditions.any fun
    | .decided decision => decision = holds
    | .undecided _ => false

/-- All of some conditions. -/
def all (conditions : List Condition) : Condition :=
  if anyDecided false conditions then .decided false
  else
    match pending conditions with
    | [] => .decided true
    | [expression] => .undecided expression
    | expressions => .undecided (.and expressions)

/-- One of some conditions. -/
def any (conditions : List Condition) : Condition :=
  if anyDecided true conditions then .decided true
  else
    match pending conditions with
    | [] => .decided false
    | [expression] => .undecided expression
    | expressions => .undecided (.or expressions)

end Condition

/-! ### Relations between periods -/

/-- The condition under which two periods are in a relation. -/
def TemporalRelation.condition (relation : TemporalRelation) (left right : Period) : Condition :=
  let starts := fun comparison => Condition.compare left.startPoint comparison right.startPoint
  let finishes := fun comparison =>
    Condition.compare left.finishPoint comparison right.finishPoint
  let startToFinish := fun comparison =>
    Condition.compare left.startPoint comparison right.finishPoint
  let finishToStart := fun comparison =>
    Condition.compare left.finishPoint comparison right.startPoint
  match relation with
  | .after => startToFinish .greater
  | .before => finishToStart .less
  | .contains => .all [starts .less, finishes .greater]
  | .disjoint => .any [finishToStart .less, startToFinish .greater]
  | .during => .all [starts .greater, finishes .less]
  | .equals => .all [starts .equal, finishes .equal]
  | .finishedBy => .all [starts .less, finishes .equal]
  | .finishes => .all [starts .greater, finishes .equal]
  | .intersects => .all [startToFinish .lessOrEqual, finishToStart .greaterOrEqual]
  | .meets => finishToStart .equal
  | .metBy => startToFinish .equal
  | .overlappedBy => .all [starts .greater, startToFinish .less, finishes .greater]
  | .overlaps => .all [starts .less, finishToStart .greater, finishes .less]
  | .startedBy => .all [starts .equal, finishes .greater]
  | .starts => .all [starts .equal, finishes .less]

/-- The expression that holds if two periods are in a relation. -/
def TemporalRelation.filter (relation : TemporalRelation) (left right : Period) : Expression :=
  (relation.condition left right).expression

/-! ### Operands -/

/-- A bounded side of an operand. -/
inductive TimeValue where
  | property (property : Property)
  | literal (value : Literal)
deriving DecidableEq, Inhabited

/-- An operand of a temporal relation. -/
inductive TemporalOperand where
  | instant (value : TimeValue)
  | interval (start finish : Option TimeValue)
deriving DecidableEq, Inhabited

/-- The kind of an operand. -/
def TemporalOperand.kind : TemporalOperand → OperandKind
  | .instant _ => .instant
  | .interval .. => .interval

/-- The text of an unbounded side. -/
def isUnbounded (value : Json) : Bool :=
  value.string? = some ".."

/-- Reads a bounded side. -/
def TimeValue.ofJson (operator : String) (value : Json) : Except Error TimeValue :=
  match value with
  | .string text => (dateOrTimeLiteral text).map .literal
  | .object members =>
    if (Json.lookup "property" members).isSome then
      (Property.ofJson operator value).map .property
    else
      match Json.lookup "date" members, Json.lookup "timestamp" members with
      | some date, _ => (dateLiteral date).map .literal
      | none, some timestamp => (timestampLiteral timestamp).map .literal
      | none, none => .error (.invalidArgument operator (.unsupportedTime value))
  | _ => .error (.invalidArgument operator (.unsupportedTime value))

/-- Reads a side that may be unbounded. -/
def boundOfJson (operator : String) (value : Json) : Except Error (Option TimeValue) :=
  if isUnbounded value then .ok none else (TimeValue.ofJson operator value).map some

/-- Reads an operand. -/
def TemporalOperand.ofJson (operator : String) (value : Json) : Except Error TemporalOperand := do
  match value.member? "interval" with
  | some bounds =>
    match bounds with
    | .array [start, finish] =>
      let start ← boundOfJson operator start
      return .interval start (← boundOfJson operator finish)
    | _ => .error (.invalidArgument operator (.intervalBounds bounds))
  | none =>
    if isUnbounded value then .error (.invalidArgument operator .unboundedInstant)
    else return .instant (← TimeValue.ofJson operator value)

end ShapeQuery.Filter
