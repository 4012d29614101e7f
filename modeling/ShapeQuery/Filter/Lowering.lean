/-
This file lowers filters to graph patterns about the focus node. Conditions are numbered in the
order of the filter, and every variable of a condition carries its number, so that different
conditions never share one. The operands of a conjunction stand in one group, those of a
disjunction in the branches of a union, and a negation forbids the solutions of its operand.
-/
import ShapeQuery.Filter.Expression
import ShapeQuery.Filter.Function
import ShapeQuery.Shape.Lowering
import ShapeQuery.Sparql.Query
import ShapeQuery.Text.Regex

namespace ShapeQuery.Filter

open Sparql (Term Variable Group Comparison)

/-- What filters are lowered with: the shapes of the queryables, the functions, the dialect of
spatial filters and the coordinate reference system of their geometries. -/
structure Translator where
  queryables : List (String × PropertyShape)
  functions : Registry
  target : SpatialTarget
  system : String

namespace Translator

/-- The translator without queryables. -/
def standard : Translator :=
  ⟨[], .standard, .geoSparql, defaultReferenceSystem⟩

/-- The resource that is filtered. -/
def focus : Term := .var Shape.focusNode

/-! ### Properties -/

/-- The shape of a property, if it is a queryable. -/
def shape? (translator : Translator) (property : Property) : Option PropertyShape :=
  translator.queryables.lookup property.name

/-- The stem of the variables of a condition. -/
def stem (number : Nat) : String :=
  "var_" ++ toString number

/-- Binds the values of a queryable. -/
def bindShape (operator : String) (property : Property) (shape : PropertyShape) (number : Nat) :
    Except Error (Group × Term) :=
  if property.inverse then .error (.unsupported (.inverseQueryable property.name))
  else
    let lowering : Lowering := ⟨.profile, focus, []⟩
    match lowering.property (Shape.Scope.start (stem number)) shape with
    | .error source => .error (.queryable property.name source)
    | .ok (fragment, _) =>
      match fragment.terminal with
      | some terminal => .ok (fragment.pattern, terminal)
      | none => .error (.invalidArgument operator (.noValueNode property.name))

/-- Binds the values of a predicate. -/
def bindPredicate (property : Property) (number : Nat) : Except Error (Group × Term) :=
  match Iri.ofText? property.name with
  | none => .error (.unknownQueryable property.name)
  | some predicate =>
    let value : Term := .var ⟨stem number⟩
    let triple :=
      if property.inverse then Sparql.Element.ofTriple value (.predicate predicate) focus
      else Sparql.Element.ofTriple focus (.predicate predicate) value
    .ok ([triple], value)

/-- Binds the values of a property: the group that does, and the term that stands for them. -/
def bind (translator : Translator) (operator : String) (property : Property) (number : Nat) :
    Except Error (Group × Term) :=
  match translator.shape? property with
  | some shape => bindShape operator property shape number
  | none => bindPredicate property number

/-- A term as an operand. -/
def operand (operator : String) (term : Term) : Except Error Sparql.Expression :=
  match term.expression? with
  | some expression => .ok expression
  | none => .error (.invalidArgument operator (.blankOperand term))

/-! ### Conditions on values -/

/-- Lowers a comparison. Equality with a value of a predicate is identity of terms; any other
comparison is by value. -/
def compare (translator : Translator) (comparison : Comparison) (property : Property)
    (value : Value) (number : Nat) : Except Error Group := do
  let (group, object) ← translator.bind comparison.symbol property number
  match object, comparison, translator.shape? property with
  | .var name, .equal, none => return group ++ [.column name [value.term]]
  | _, _, _ =>
    let left ← operand comparison.symbol object
    return group ++ [.filter (.compare left comparison value.expression)]

/-- Lowers a comparison with a pattern. -/
def like (translator : Translator) (property : Property) (pattern : String) (number : Nat) :
    Except Error Group := do
  let (group, object) ← translator.bind "like" property number
  let left ← operand "like" object
  let regex := Sparql.Expression.literal (.plain (Text.wildcardRegex pattern))
  return group ++ [.filter (.call .regex [left, regex, .literal (.plain "i")])]

/-- Lowers a choice of values. -/
def oneOf (translator : Translator) (property : Property) (values : List Value) (number : Nat) :
    Except Error Group := do
  let (group, object) ← translator.bind "in" property number
  match object with
  | .var name => return group ++ [.column name (values.map Value.term)]
  | _ =>
    let left ← operand "in" object
    return group ++ [.filter (.oneOf left (values.map Value.expression))]

/-! ### Spatial relations -/

/-- Whether a property is the geometry of the focus itself. -/
def isOwnGeometry (property : Property) : Bool :=
  property.name = "geometry" || property.name = Vocabulary.shThis.text

/-- Lowers a spatial relation. -/
def spatial (translator : Translator) (relation : SpatialRelation) (property : Property)
    (geometry : Geometry) (number : Nat) : Except Error Group := do
  let (group, subject) ←
    if isOwnGeometry property then .ok ([], focus)
    else translator.bind relation.name property number
  let filter : SpatialFilter :=
    ⟨relation, geometry, translator.system, subject, toString number⟩
  return group ++ (← filter.lower translator.target)

/-! ### Temporal relations -/

/-- Lowers a bounded side of an operand after the given number of conditions. A property counts as
a condition. -/
def timeValue (translator : Translator) (operator : String) (count : Nat) :
    TimeValue → Except Error (Group × Sparql.Expression × Nat)
  | .literal value => .ok ([], .literal value, count)
  | .property property => do
    let (group, object) ← translator.bind operator property (count + 1)
    return (group, ← operand operator object, count + 1)

/-- Lowers a side of an operand that may be unbounded. -/
def bound (translator : Translator) (operator : String) (count : Nat) :
    Option TimeValue → Except Error (Group × Option Sparql.Expression × Nat)
  | none => .ok ([], none, count)
  | some value => do
    let (group, expression, count) ← translator.timeValue operator count value
    return (group, some expression, count)

/-- Lowers an operand to a period. -/
def period (translator : Translator) (operator : String) (count : Nat) :
    TemporalOperand → Except Error (Group × Period × Nat)
  | .instant value => do
    let (group, expression, count) ← translator.timeValue operator count value
    return (group, .instant expression, count)
  | .interval start finish => do
    let (startGroup, start, count) ← translator.bound operator count start
    let (finishGroup, finish, count) ← translator.bound operator count finish
    return (startGroup ++ finishGroup, ⟨start, finish⟩, count)

/-- Lowers a temporal relation. -/
def temporal (translator : Translator) (relation : TemporalRelation)
    (left right : TemporalOperand) (count : Nat) : Except Error (Group × Nat) := do
  relation.checkKinds left.kind right.kind
  let (leftGroup, left, count) ← translator.period relation.name count left
  let (rightGroup, right, count) ← translator.period relation.name count right
  return (leftGroup ++ rightGroup ++ [.filter (relation.filter left right)], count)

/-! ### Functions -/

/-- Lowers the use of a function. -/
def function (translator : Translator) (name : String) (arguments : List Json) (number : Nat) :
    Except Error Group :=
  match translator.functions.function? name with
  | none => .error (.unknownOperator name)
  | some function =>
    if size : arguments.length = function.arity then
      function.lower focus ⟨arguments.toArray, by simpa using size⟩ ("_" ++ toString number)
    else .error (.argumentCount name function.arity arguments.length)

/-! ### Filters -/

/-- Lowers a condition after the given number of conditions; returns the number of conditions so
far with it. -/
def leaf (translator : Translator) (count : Nat) : Leaf → Except Error (Group × Nat)
  | .compare comparison property value => do
    return (← translator.compare comparison property value (count + 1), count + 1)
  | .like property pattern => do
    return (← translator.like property pattern (count + 1), count + 1)
  | .oneOf property values => do
    return (← translator.oneOf property values (count + 1), count + 1)
  | .spatial relation property geometry => do
    return (← translator.spatial relation property geometry (count + 1), count + 1)
  | .temporal relation left right => translator.temporal relation left right count
  | .function name arguments => do
    return (← translator.function name arguments (count + 1), count + 1)

mutual

/-- Lowers a filter after the given number of conditions. -/
def lower (translator : Translator) (count : Nat) : Expression → Except Error (Group × Nat)
  | .leaf leaf => translator.leaf count leaf
  | .all operands => translator.lowerAll count operands
  | .any operands => do
    let (branches, count) ← translator.lowerEach count operands
    return ([.union branches], count)
  | .not operand => do
    let (group, count) ← translator.lower count operand
    return ([.filter (.notExists group)], count)

/-- Lowers filters into one group. -/
def lowerAll (translator : Translator) (count : Nat) :
    List Expression → Except Error (Group × Nat)
  | [] => .ok ([], count)
  | operand :: rest => do
    let (first, count) ← translator.lower count operand
    let (others, count) ← translator.lowerAll count rest
    return (first ++ others, count)

/-- Lowers filters, each into a group of its own. -/
def lowerEach (translator : Translator) (count : Nat) :
    List Expression → Except Error (List Group × Nat)
  | [] => .ok ([], count)
  | operand :: rest => do
    let (first, count) ← translator.lower count operand
    let (others, count) ← translator.lowerEach count rest
    return (first :: others, count)

end

/-- The group of the resources that a filter selects. -/
def translate (translator : Translator) (filter : Expression) : Except Error Group := do
  let (group, _) ← translator.lower 0 filter
  return group

/-- A query for the triples that a filter looks at. -/
def query (translator : Translator) (filter : Expression) : Except Error Sparql.Query := do
  return .ofPattern (← translator.translate filter)

end Translator

end ShapeQuery.Filter
