/-
This file defines property paths and writes them. Parentheses are put only around a part that
binds weaker than its place requires.
-/
import ShapeQuery.Sparql.Defect

namespace ShapeQuery.Sparql

open Lexeme (separated grouped)

/-- A property path. -/
inductive Path where
  | predicate (iri : Iri)
  | inverse (path : Path)
  | sequence (paths : List Path)
  | alternative (paths : List Path)
  | zeroOrMore (path : Path)
  | oneOrMore (path : Path)
  | zeroOrOne (path : Path)
deriving Inhabited

namespace Path

/-- The predicate of a path that is nothing else. -/
def predicate? : Path → Option Iri
  | .predicate iri => some iri
  | _ => none

/-- How strongly the outermost operator of a path binds. -/
def strength : Path → Nat
  | .alternative _ => 0
  | .sequence _ => 1
  | .inverse _ => 2
  | .zeroOrMore _ => 3
  | .oneOrMore _ => 3
  | .zeroOrOne _ => 3
  | .predicate _ => 4

mutual

/-- The lexemes of a path. -/
def lexemes : Path → List Lexeme
  | .predicate iri => [.iri iri]
  | .inverse path => .mark "^" :: grouped (path.strength < 3) path.lexemes
  | .sequence paths => separated [.mark "/"] (operands 2 paths)
  | .alternative paths => separated [.mark "|"] (operands 1 paths)
  | .zeroOrMore path => grouped (path.strength < 4) path.lexemes ++ [.mark "*"]
  | .oneOrMore path => grouped (path.strength < 4) path.lexemes ++ [.mark "+"]
  | .zeroOrOne path => grouped (path.strength < 4) path.lexemes ++ [.mark "?"]

/-- The lexemes of each of some paths that have to bind with a certain strength. -/
def operands (required : Nat) : List Path → List (List Lexeme)
  | [] => []
  | path :: rest => grouped (path.strength < required) path.lexemes :: operands required rest

end

mutual

/-- The defects of a path. -/
def defects : Path → List Defect
  | .predicate _ => []
  | .inverse path => path.defects
  | .sequence paths => if paths.isEmpty then [.emptySequence] else listDefects paths
  | .alternative paths => if paths.isEmpty then [.emptyAlternative] else listDefects paths
  | .zeroOrMore path => path.defects
  | .oneOrMore path => path.defects
  | .zeroOrOne path => path.defects

/-- The defects of some paths. -/
def listDefects : List Path → List Defect
  | [] => []
  | path :: rest => path.defects ++ listDefects rest

end

/-- The text of a path. -/
def render (path : Path) : Except Defect String :=
  rendered path.defects path.lexemes

end Path

end ShapeQuery.Sparql
