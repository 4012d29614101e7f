/-
This file defines the terms of queries. Integers, decimals and truth values with a plain lexical
form are written without quotes and datatype.
-/
import ShapeQuery.Sparql.Lexeme

namespace ShapeQuery.Literal

open Sparql (Lexeme)

/-- A lexical form without its sign. -/
def unsignedForm (value : String) : List Char :=
  match value.toList with
  | '+' :: rest => rest
  | '-' :: rest => rest
  | characters => characters

/-- Whether a lexical form is an optional sign and digits. -/
def isIntegerForm (value : String) : Bool :=
  let digits := unsignedForm value
  !digits.isEmpty && digits.all Char.isDigit

/-- Whether a lexical form is an optional sign and digits around a point, with at least one digit
after it. -/
def isDecimalForm (value : String) : Bool :=
  let unsigned := unsignedForm value
  let whole := unsigned.takeWhile (· ≠ '.')
  let fraction := (unsigned.dropWhile (· ≠ '.')).drop 1
  !fraction.isEmpty && whole.all Char.isDigit && fraction.all Char.isDigit

/-- The lexemes of a literal. -/
def lexemes : Literal → List Lexeme
  | .plain value => [.string value]
  | .tagged value tag => [.string value, .language tag]
  | .typed value datatype =>
    if datatype = Vocabulary.xsdInteger && isIntegerForm value then [.number value]
    else if datatype = Vocabulary.xsdDecimal && isDecimalForm value then [.number value]
    else if datatype = Vocabulary.xsdBoolean && (value = "true" || value = "false") then
      [.word value]
    else [.string value, .mark "^^", .iri datatype]

end ShapeQuery.Literal

namespace ShapeQuery.Sparql

/-- A term of a query. -/
inductive Term where
  | var (name : Variable)
  | iri (name : Iri)
  | literal (value : Literal)
  | blank (label : String)
deriving DecidableEq, Inhabited

namespace Term

/-- The term as a variable, if it is one. -/
def toVariable? : Term → Option Variable
  | .var name => some name
  | _ => none

/-- The lexemes of a term. -/
def lexemes : Term → List Lexeme
  | .var name => [.var name]
  | .iri name => [.iri name]
  | .literal value => value.lexemes
  | .blank label => [.blank label]

/-- The text of a term. -/
def text (term : Term) : String :=
  Lexeme.written term.lexemes

end Term

end ShapeQuery.Sparql
