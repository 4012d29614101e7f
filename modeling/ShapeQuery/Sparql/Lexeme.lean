/-
This file defines the lexemes of query texts: the tokens of SPARQL, and the white space between
them. Every part of a query is written as a list of lexemes, and its text is their concatenation.
-/
import ShapeQuery.Rdf.Term

namespace ShapeQuery.Sparql

/-- A variable. -/
structure Variable where
  name : String
deriving DecidableEq, Inhabited

/-- A token or a piece of white space. -/
inductive Lexeme where
  | var (name : Variable)
  | iri (name : Iri)
  | blank (label : String)
  | string (value : String)
  | language (tag : String)
  | number (text : String)
  | word (text : String)
  | mark (text : String)
  | space
  | newLine
deriving DecidableEq

namespace Lexeme

/-- The text of a lexeme. -/
def text : Lexeme → String
  | .var name => "?" ++ name.name
  | .iri name => name.bracketed
  | .blank label => "_:" ++ label
  | .string value => Text.quoted Text.escapeLiteral value
  | .language tag => "@" ++ tag
  | .number text => text
  | .word text => text
  | .mark text => text
  | .space => " "
  | .newLine => "\n"

/-- Whether a lexeme is white space. -/
def isBlank : Lexeme → Bool
  | .space => true
  | .newLine => true
  | _ => false

/-- The text of some lexemes. -/
def written (lexemes : List Lexeme) : String :=
  String.join (lexemes.map text)

/-- Parts with a separator between each two. -/
def separated (separator : List Lexeme) : List (List Lexeme) → List Lexeme
  | [] => []
  | [part] => part
  | part :: rest => part ++ separator ++ separated separator rest

/-- Lexemes between parentheses. -/
def parenthesised (lexemes : List Lexeme) : List Lexeme :=
  .mark "(" :: lexemes ++ [.mark ")"]

/-- Lexemes between parentheses where these are needed. -/
def grouped (needed : Bool) (lexemes : List Lexeme) : List Lexeme :=
  if needed then parenthesised lexemes else lexemes

/-- Parts on lines of their own between braces. -/
def block (lines : List (List Lexeme)) : List Lexeme :=
  .mark "\x7b" :: .newLine :: lines.flatMap (· ++ [.newLine]) ++ [.mark "\x7d"]

end Lexeme

end ShapeQuery.Sparql
