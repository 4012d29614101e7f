/-
This file defines CONSTRUCT queries, the products of the program.
-/
import ShapeQuery.Sparql.Writing

namespace ShapeQuery.Sparql

/-- A CONSTRUCT query. Its template has every triple once. -/
structure Query where
  template : List TemplateTriple
  pattern : Group
  modifier : Modifier

namespace Query

/-- A query for a template, whose triples may repeat. -/
def ofTemplate (template : List TemplateTriple) (pattern : Group) (modifier : Modifier) : Query :=
  ⟨template.eraseDups, pattern, modifier⟩

/-- A query for the triples that bind its solutions. -/
def ofPattern (pattern : Group) : Query :=
  ofTemplate pattern.template pattern .empty

/-- The lexemes of a query. -/
def lexemes (query : Query) : List Lexeme :=
  [.word "CONSTRUCT", .space] ++ Lexeme.block (query.template.map TemplateTriple.lexemes)
    ++ [.newLine, .word "WHERE", .space] ++ query.pattern.lexemes ++ query.modifier.lexemes

/-- The defects of a query. -/
def defects (query : Query) : List Defect :=
  query.template.flatMap TemplateTriple.defects ++ groupDefects query.pattern
    ++ query.modifier.defects

/-- The text of a query. -/
def render (query : Query) : Except Defect String :=
  rendered query.defects query.lexemes

end Query

end ShapeQuery.Sparql
