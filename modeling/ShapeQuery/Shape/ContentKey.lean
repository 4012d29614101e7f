/-
This file writes the content of a property shape as a text by which property shapes and their
paths are sorted. The text shows every part of the shape but its own name, so that the order does
not depend on the labels of blank nodes.
-/
import ShapeQuery.Shape.Basic
import ShapeQuery.Text.Basic

namespace ShapeQuery

open Sparql (Path Term)

/-- A text with its special characters escaped. -/
def quotedKey (value : String) : String :=
  Text.quoted Text.escapeDiagnostic value

/-- Keys in square brackets. -/
def listKey (keys : List String) : String :=
  "[" ++ Text.joined ", " keys ++ "]"

/-- The key of a part that may be missing. -/
def optionKey {α : Type} (key : α → String) : Option α → String
  | none => "None"
  | some value => "Some(" ++ key value ++ ")"

/-- The key of an IRI. -/
def Iri.key (iri : Iri) : String :=
  "NamedNode \x7b iri: " ++ quotedKey iri.text ++ " \x7d"

/-- The key of a literal. -/
def Literal.key : Literal → String
  | .plain value => "String(" ++ quotedKey value ++ ")"
  | .tagged value language =>
    "LanguageTaggedString \x7b value: " ++ quotedKey value ++ ", language: "
      ++ quotedKey language ++ " \x7d"
  | .typed value datatype =>
    "TypedLiteral \x7b value: " ++ quotedKey value ++ ", datatype: " ++ datatype.key ++ " \x7d"

/-- The value of a hexadecimal digit in lower case. -/
def hexadecimalDigit (digit : Char) : Nat :=
  if digit.isDigit then digit.toNat - '0'.toNat else digit.toNat - 'a'.toNat + 10

/-- The number that a label of a blank node stands for, if it is the hexadecimal form of one of 128
bits other than zero. -/
def labelNumber? (label : String) : Option Nat :=
  let digits := label.toList
  let number := digits.foldl (fun value digit => 16 * value + hexadecimalDigit digit) 0
  if number ≠ 0 ∧ digits.length ≤ 32 ∧ digits = Nat.toDigits 16 number then some number else none

/-- The key of a label of a blank node. A label that stands for a number is kept as this number, and
as the codes of its digits in a field of 32 places. -/
def labelKey (label : String) : String :=
  match labelNumber? label with
  | none => "Named(" ++ quotedKey label ++ ")"
  | some number =>
    let codes := label.toList.map Char.toNat
    let places := codes ++ List.replicate (32 - codes.length) 0
    "Anonymous \x7b id: " ++ toString number ++ ", str: IdStr(" ++ listKey (places.map toString)
      ++ ") \x7d"

/-- The key of a term. -/
def Sparql.Term.key : Term → String
  | .var name => "Variable(Variable \x7b name: " ++ quotedKey name.name ++ " \x7d)"
  | .iri name => "NamedNode(" ++ name.key ++ ")"
  | .literal value => "Literal(Literal(" ++ value.key ++ "))"
  | .blank label => "BlankNode(BlankNode(" ++ labelKey label ++ "))"

namespace Sparql.Path

mutual

/-- The key of a path. -/
def key : Path → String
  | .predicate iri => "Direct(" ++ iri.key ++ ")"
  | .inverse path => "Inverse(" ++ path.key ++ ")"
  | .sequence paths => "Sequence(" ++ listKey (keys paths) ++ ")"
  | .alternative paths => "Alternative(" ++ listKey (keys paths) ++ ")"
  | .zeroOrMore path => "ZeroOrMore(" ++ path.key ++ ")"
  | .oneOrMore path => "OneOrMore(" ++ path.key ++ ")"
  | .zeroOrOne path => "ZeroOrOne(" ++ path.key ++ ")"

/-- The keys of some paths. -/
def keys : List Path → List String
  | [] => []
  | path :: rest => path.key :: keys rest

end

end Sparql.Path

/-- The key of a path with its synonym. -/
def ShapePath.key (path : ShapePath) : String :=
  "ShapePath \x7b path: " ++ path.path.key ++ ", alias: " ++ optionKey Iri.key path.synonym
    ++ " \x7d"

/-- The key of a condition. -/
def FilterConstraint.key (filter : FilterConstraint) : String :=
  "FilterConstraint \x7b path: " ++ filter.path.key ++ ", values: "
    ++ listKey (filter.values.map Term.key) ++ " \x7d"

/-- The key of everything that a property shape says. -/
def PropertyShape.contentKey (shape : PropertyShape) : String :=
  listKey (shape.paths.map ShapePath.key) ++ listKey (shape.choices.map ShapePath.key)
    ++ listKey (shape.classes.map Iri.key) ++ optionKey toString shape.minCount
    ++ optionKey toString shape.maxCount ++ listKey (shape.filters.map FilterConstraint.key)

/-- Sorts by a key, in the order of its code points. Values with the same key keep their order. -/
def sortedByKey {α : Type} (key : α → String) (values : List α) : List α :=
  values.mergeSort fun first second => decide (key first ≤ key second)

end ShapeQuery
