/-
This file defines filters and reads them from JSON. A filter combines conditions on a resource by
conjunction, disjunction and negation. An operator that is not known by itself names a function,
which is looked up when the filter is used.
-/
import ShapeQuery.Filter.Spatial
import ShapeQuery.Filter.Temporal
import ShapeQuery.Json.Reader

namespace ShapeQuery.Filter

open Sparql (Comparison)

/-! ### Filters -/

/-- A single condition on a resource. -/
inductive Leaf where
  | compare (comparison : Comparison) (property : Property) (value : Value)
  | like (property : Property) (pattern : String)
  | oneOf (property : Property) (values : List Value)
  | spatial (relation : SpatialRelation) (property : Property) (geometry : Geometry)
  | temporal (relation : TemporalRelation) (left right : TemporalOperand)
  | function (name : String) (arguments : List Json)

/-- A filter. -/
inductive Expression where
  | leaf (leaf : Leaf)
  | all (operands : List Expression)
  | any (operands : List Expression)
  | not (operand : Expression)

instance : Inhabited Expression := ⟨.all []⟩

/-! ### Nodes of documents -/

/-- An operator with its arguments, which are smaller than the document that holds them. -/
structure Node (document : Json) where
  operator : String
  arguments : List Json
  smaller : ∀ argument ∈ arguments, sizeOf argument < sizeOf document

theorem sizeOf_lt_of_lookup {key : String} {members : List (String × Json)} {value : Json}
    (found : Json.lookup key members = some value) :
    sizeOf value < sizeOf (Json.object members) := by
  obtain ⟨entry, located, rfl⟩ := Option.map_eq_some_iff.1 found
  have member := List.mem_reverse.1 (List.mem_of_find?_eq_some located)
  have bound := List.sizeOf_lt_of_mem member
  obtain ⟨name, value⟩ := entry
  simp only [Prod.mk.sizeOf_spec, Json.object.sizeOf_spec] at bound ⊢
  omega

theorem sizeOf_lt_of_mem_array {elements : List Json} {value : Json}
    (member : value ∈ elements) : sizeOf value < sizeOf (Json.array elements) := by
  have bound := List.sizeOf_lt_of_mem member
  simp only [Json.array.sizeOf_spec]
  omega

namespace Node

/-- What is expected where a node is read. -/
def expectation : String := "struct RawNode"

/-- The arguments of a node: the elements of a value, if there is one. -/
def arguments? (document : Json) (value : Option Json)
    (smaller : ∀ argument, value = some argument → sizeOf argument < sizeOf document) :
    Except Json.Fault
      { arguments : List Json // ∀ argument ∈ arguments, sizeOf argument < sizeOf document } :=
  match value, smaller with
  | none, _ => .ok ⟨[], fun _ member => absurd member List.not_mem_nil⟩
  | some (.array elements), smaller =>
    .ok ⟨elements, fun _ member =>
      Nat.lt_trans (sizeOf_lt_of_mem_array member) (smaller _ rfl)⟩
  | some other, _ => .error (.wrongType other "a sequence")

/-- Reads a node: an object with an operator and perhaps arguments, or an array of the two. -/
def ofJson (document : Json) : Except Json.Fault (Node document) :=
  match document with
  | .object members => do
    let ⟨arguments, smaller⟩ ← arguments? (.object members) (Json.lookup "args" members)
      fun _ => sizeOf_lt_of_lookup
    match Json.lookup "op" members with
    | none => .error (.missingField "op")
    | some operator => return ⟨← Json.readString operator, arguments, smaller⟩
  | .array [] => .error (.wrongLength 0 (expectation ++ " with 2 elements"))
  | .array (operator :: rest) => do
    let operatorName ← Json.readString operator
    let ⟨arguments, smaller⟩ ← arguments? (.array (operator :: rest)) rest.head?
      fun _ found => sizeOf_lt_of_mem_array (List.mem_cons_of_mem _ (List.mem_of_head? found))
    if 1 < rest.length then .error (Json.tooLong (operator :: rest))
    else return ⟨operatorName, arguments, smaller⟩
  | other => .error (.wrongType other expectation)

end Node

/-! ### Leaves -/

/-- The two arguments of an operator that takes two. -/
def twoArguments (operator : String) (arguments : List Json) : Except Error (Json × Json) :=
  match arguments with
  | [first, second] => .ok (first, second)
  | _ => .error (.argumentCount operator 2 arguments.length)

namespace Leaf

/-- Reads a comparison. -/
def compareOfJson (operator : String) (comparison : Comparison) (arguments : List Json) :
    Except Error Leaf := do
  let (property, value) ← twoArguments operator arguments
  let property ← Property.ofJson operator property
  return .compare comparison property (← Value.ofJson operator value)

/-- Reads a spatial relation. -/
def spatialOfJson (operator : String) (relation : SpatialRelation) (arguments : List Json) :
    Except Error Leaf := do
  let (property, geometry) ← twoArguments operator arguments
  let property ← Property.ofJson operator property
  return .spatial relation property (← Geometry.ofJson geometry)

/-- Reads a temporal relation. -/
def temporalOfJson (operator : String) (relation : TemporalRelation) (arguments : List Json) :
    Except Error Leaf := do
  let (left, right) ← twoArguments operator arguments
  let left ← TemporalOperand.ofJson operator left
  return .temporal relation left (← TemporalOperand.ofJson operator right)

/-- Reads a comparison with a pattern. -/
def likeOfJson (arguments : List Json) : Except Error Leaf := do
  let (property, pattern) ← twoArguments "like" arguments
  match pattern with
  | .string pattern => return .like (← Property.ofJson "like" property) pattern
  | _ => .error (.invalidArgument "like" (.notAPattern pattern))

/-- Reads a choice of values, given as a list or one by one. -/
def oneOfOfJson (arguments : List Json) : Except Error Leaf := do
  match arguments with
  | [property, .array values] =>
    let values ← Value.listOfJson "in" (.array values)
    return .oneOf (← Property.ofJson "in" property) values
  | property :: first :: rest =>
    let values ← (first :: rest).mapM (Value.ofJson "in")
    return .oneOf (← Property.ofJson "in" property) values
  | _ => .error (.argumentCount "in" 2 arguments.length)

/-- Reads the condition of an operator that is not a connective. -/
def ofJson (operator : String) (arguments : List Json) : Except Error Leaf :=
  match Comparison.ofSymbol? operator with
  | some comparison => compareOfJson operator comparison arguments
  | none =>
    match SpatialRelation.ofName? operator with
    | some relation => spatialOfJson operator relation arguments
    | none =>
      match TemporalRelation.ofName? operator with
      | some relation => temporalOfJson operator relation arguments
      | none =>
        if operator = "like" then likeOfJson arguments
        else if operator = "in" then oneOfOfJson arguments
        else .ok (.function operator arguments)

end Leaf

/-! ### Documents -/

namespace Expression

/-- Reads a filter. -/
def ofJson (document : Json) : Except Error Expression :=
  match Node.ofJson document with
  | .error fault => .error (.malformed fault document)
  | .ok node =>
    if node.operator = "and" ∨ node.operator = "or" then
      if node.arguments.isEmpty then .error (.invalidArgument node.operator .noOperand)
      else do
        let operands ← node.arguments.attach.mapM fun argument =>
          have := node.smaller argument.1 argument.2
          ofJson argument.1
        return if node.operator = "and" then .all operands else .any operands
    else if node.operator = "not" then
      match node.arguments, node.smaller with
      | [operand], smaller =>
        have := smaller operand List.mem_cons_self
        (ofJson operand).map .not
      | arguments, _ => .error (.argumentCount "not" 1 arguments.length)
    else (Leaf.ofJson node.operator node.arguments).map .leaf
termination_by sizeOf document

/-- Reads a filter from the text of a JSON document. -/
def ofText (text : String) : Except Error Expression :=
  match Json.parse? text with
  | some document => ofJson document
  | none => .error .notJson

end Expression

end ShapeQuery.Filter
