/-
This file reads the values that a filter compares properties with, and the properties themselves.
-/
import ShapeQuery.Calendar.DateTime
import ShapeQuery.Filter.Error
import ShapeQuery.Number.Layout
import ShapeQuery.Sparql.Pattern

namespace ShapeQuery.Filter

/-! ### Values -/

/-- A value of a filter. -/
inductive Value where
  | iri (name : Iri)
  | literal (value : Literal)
deriving DecidableEq, Inhabited

/-- A value as a term of a query. -/
def Value.term : Value → Sparql.Term
  | .iri name => .iri name
  | .literal value => .literal value

/-- A value as an expression. -/
def Value.expression : Value → Sparql.Expression
  | .iri name => .iri name
  | .literal value => .literal value

/-- A literal whose text is checked by a reader of its datatype. -/
def timeLiteral {α : Type} (read : String → Except Calendar.Fault α) (datatype : Iri)
    (value : Json) : Except Error Literal :=
  match value with
  | .string text =>
    match read text with
    | .ok _ => .ok (.typed text datatype)
    | .error _ => .error (.invalidTime text)
  | _ => .error (.invalidTime value.text)

/-- A day. -/
def dateLiteral : Json → Except Error Literal :=
  timeLiteral Calendar.readDate Vocabulary.xsdDate

/-- A moment. -/
def timestampLiteral : Json → Except Error Literal :=
  timeLiteral Calendar.readDateTime Vocabulary.xsdDateTime

/-- A moment or a day; a moment is told by the letter before its time of day. -/
def dateOrTimeLiteral (text : String) : Except Error Literal :=
  if text.toList.contains 'T' then timestampLiteral (.string text)
  else dateLiteral (.string text)

/-- The greatest integer that keeps its datatype. -/
def greatestInteger : Int := Number.twoTo 63 - 1

/-- A number as a literal. -/
def numberLiteral : JsonNumber → Literal
  | .integer value =>
    if value ≤ greatestInteger then .ofInt value
    else .typed (Number.Binary64.ofInt value).plainText Vocabulary.xsdDecimal
  | .float value => .typed value.plainText Vocabulary.xsdDecimal

/-- Whether a text is taken for an IRI. -/
def looksLikeIri (text : String) : Bool :=
  "http".toList.isPrefixOf text.toList

namespace Value

/-- Reads a value. -/
def ofJson (operator : String) (value : Json) : Except Error Value :=
  match value with
  | .string text =>
    if looksLikeIri text then
      match Iri.ofText text with
      | .ok name => .ok (.iri name)
      | .error fault => .error (.invalidArgument operator (.notAnIri text fault))
    else .ok (.literal (.plain text))
  | .bool value => .ok (.literal (.ofBool value))
  | .number number => .ok (.literal (numberLiteral number))
  | .object members =>
    match Json.lookup "date" members, Json.lookup "timestamp" members with
    | some date, _ => (dateLiteral date).map .literal
    | none, some timestamp => (timestampLiteral timestamp).map .literal
    | none, none => .error (.invalidArgument operator (.unsupportedValue value))
  | _ => .error (.invalidArgument operator (.unsupportedValue value))

/-- Reads a list of values; a single value is a list of its own. -/
def listOfJson (operator : String) (value : Json) : Except Error (List Value) :=
  match value with
  | .array [] => .error (.invalidArgument operator .noValue)
  | .array values => values.mapM (ofJson operator)
  | _ => (ofJson operator value).map fun value => [value]

end Value

/-! ### Properties -/

/-- A property: the name of a queryable, or a predicate, perhaps followed backwards. -/
structure Property where
  name : String
  inverse : Bool
deriving DecidableEq, Inhabited

namespace Property

/-- A property by its written name, which starts with a mark if it is followed backwards. -/
def ofName (name : String) : Property :=
  match name.toList with
  | '^' :: rest => ⟨String.ofList rest, true⟩
  | _ => ⟨name, false⟩

/-- Reads an object that names a property. -/
def ofJson (operator : String) (value : Json) : Except Error Property :=
  match (value.member? "property").bind Json.string? with
  | some name => .ok (ofName name)
  | none => .error (.invalidArgument operator (.notAProperty value))

end Property

end ShapeQuery.Filter
