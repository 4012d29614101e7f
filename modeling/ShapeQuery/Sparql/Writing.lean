/-
This file writes expressions and graph patterns: their lexemes, and the defects that keep a tree
from having a text, in the order of writing.
-/
import ShapeQuery.Sparql.Group

namespace ShapeQuery.Sparql

open Lexeme (separated parenthesised grouped block)

/-! ### Leaves -/

/-- The lexemes of a comparison. -/
def Comparison.lexeme (comparison : Comparison) : Lexeme :=
  .mark comparison.symbol

/-- Whether an expression can be an operand without parentheses. -/
def Expression.isPrimary : Expression → Bool
  | .var _ => true
  | .iri _ => true
  | .literal _ => true
  | .call .. => true
  | .count .. => true
  | .sum .. => true
  | _ => false

/-- The name of a function and its arguments. -/
def callLexemes (function : Lexeme) (arguments : List Lexeme) : List Lexeme :=
  function :: parenthesised arguments

/-- The content of an aggregate. -/
def distinctLexemes (distinct : Bool) (aggregated : List Lexeme) : List Lexeme :=
  (if distinct then [.word "DISTINCT", .space] else []) ++ aggregated

/-- A value of a table. -/
def cellLexemes : Option Term → List Lexeme
  | some term => term.lexemes
  | none => [.word "UNDEF"]

/-- The lexemes of some variables. -/
def variableLexemes (names : List Variable) : List Lexeme :=
  separated [.space] (names.map fun name => [.var name])

namespace Data

/-- The lexemes of a table. A single column is written on one line. -/
def lexemes (data : Data) : List Lexeme :=
  match data.columns with
  | [name] =>
    [.word "VALUES", .space, .var name, .space, .mark "\x7b", .space]
      ++ data.rows.flatMap (fun row => row.flatMap cellLexemes ++ [.space]) ++ [.mark "\x7d"]
  | names =>
    [.word "VALUES", .space] ++ parenthesised (variableLexemes names) ++ [.space]
      ++ block (data.rows.map fun row => parenthesised (separated [.space] (row.map cellLexemes)))

/-- The defects of a table. -/
def defects (data : Data) : List Defect :=
  if data.columns.isEmpty then [.noDataVariable]
  else if data.rows.all fun row => row.length = data.columns.length then []
  else [.dataRow]

end Data

/-- The lexemes of a clause that starts a line, unless it is empty. -/
def clauseLexemes (words : List Lexeme) (content : List Lexeme) : List Lexeme :=
  if content.isEmpty then [] else .newLine :: words ++ content

/-- The lexemes of a count of solutions. -/
def sliceLexemes (word : String) : Option Nat → List Lexeme
  | some count => clauseLexemes [.word word, .space] [.number (toString count)]
  | none => []

/-! ### Lexemes -/

mutual

/-- The lexemes of an expression. -/
def Expression.lexemes : Expression → List Lexeme
  | .var name => [.var name]
  | .iri name => [.iri name]
  | .literal value => value.lexemes
  | .or operands => separated [.space, .mark "||", .space] (operandLexemes operands)
  | .and operands => separated [.space, .mark "&&", .space] (operandLexemes operands)
  | .compare left comparison right =>
    grouped (!left.isPrimary) left.lexemes ++ [.space, comparison.lexeme, .space]
      ++ grouped (!right.isPrimary) right.lexemes
  | .oneOf value choices =>
    grouped (!value.isPrimary) value.lexemes ++ [.space, .word "IN", .space]
      ++ parenthesised (separated [.mark ",", .space] (listLexemes choices))
  | .noneOf value choices =>
    grouped (!value.isPrimary) value.lexemes
      ++ [.space, .word "NOT", .space, .word "IN", .space]
      ++ parenthesised (separated [.mark ",", .space] (listLexemes choices))
  | .not operand => .mark "!" :: grouped (!operand.isPrimary) operand.lexemes
  | .call function arguments =>
    callLexemes function.lexeme (separated [.mark ",", .space] (listLexemes arguments))
  | .exists pattern => [.word "EXISTS", .space] ++ block (lineLexemes pattern)
  | .notExists pattern =>
    [.word "NOT", .space, .word "EXISTS", .space] ++ block (lineLexemes pattern)
  | .count distinct none => callLexemes (.word "COUNT") (distinctLexemes distinct [.mark "*"])
  | .count distinct (some counted) =>
    callLexemes (.word "COUNT") (distinctLexemes distinct counted.lexemes)
  | .sum distinct summed => callLexemes (.word "SUM") (distinctLexemes distinct summed.lexemes)

/-- The lexemes of each of some expressions. -/
def listLexemes : List Expression → List (List Lexeme)
  | [] => []
  | expression :: rest => expression.lexemes :: listLexemes rest

/-- The lexemes of each of some operands. -/
def operandLexemes : List Expression → List (List Lexeme)
  | [] => []
  | operand :: rest => grouped (!operand.isPrimary) operand.lexemes :: operandLexemes rest

/-- The lexemes of an element. -/
def Element.lexemes : Element → List Lexeme
  | .triple triple => triple.lexemes
  | .optional pattern => [.word "OPTIONAL", .space] ++ block (lineLexemes pattern)
  | .union branches =>
    separated [.newLine, .word "UNION", .newLine] (branchLexemes branches)
  | .group pattern => block (lineLexemes pattern)
  | .filter (.exists pattern) =>
    [.word "FILTER", .space, .word "EXISTS", .space] ++ block (lineLexemes pattern)
  | .filter (.notExists pattern) =>
    [.word "FILTER", .space, .word "NOT", .space, .word "EXISTS", .space]
      ++ block (lineLexemes pattern)
  | .filter condition => .word "FILTER" :: parenthesised condition.lexemes
  | .values data => data.lexemes
  | .bind value target =>
    .word "BIND"
      :: parenthesised (value.lexemes ++ [.space, .word "AS", .space, .var target])
  | .service name silent pattern =>
    [.word "SERVICE", .space] ++ (if silent then [.word "SILENT", .space] else [])
      ++ [.iri name, .space] ++ block (lineLexemes pattern)
  | .select query => block [query.lexemes]

/-- The lexemes of each element of a group. -/
def lineLexemes : List Element → List (List Lexeme)
  | [] => []
  | element :: rest => element.lexemes :: lineLexemes rest

/-- The lexemes of each of some groups. -/
def branchLexemes : List (List Element) → List (List Lexeme)
  | [] => []
  | branch :: rest => block (lineLexemes branch) :: branchLexemes rest

/-- The lexemes of a column of a selection. -/
def Projection.lexemes : Projection → List Lexeme
  | .var name => [.var name]
  | .expression value target =>
    parenthesised (value.lexemes ++ [.space, .word "AS", .space, .var target])

/-- The lexemes of each of some columns. -/
def columnLexemes : List Projection → List (List Lexeme)
  | [] => []
  | column :: rest => column.lexemes :: columnLexemes rest

/-- The lexemes of a criterion. -/
def OrderCondition.lexemes : OrderCondition → List Lexeme
  | .ascending key => callLexemes (.word "ASC") key.lexemes
  | .descending key => callLexemes (.word "DESC") key.lexemes

/-- The lexemes of each of some criteria. -/
def criterionLexemes : List OrderCondition → List (List Lexeme)
  | [] => []
  | criterion :: rest => criterion.lexemes :: criterionLexemes rest

/-- The lexemes of a modifier. Every clause starts a line. -/
def Modifier.lexemes : Modifier → List Lexeme
  | ⟨groupBy, orderBy, limit, offset⟩ =>
    clauseLexemes [.word "GROUP", .space, .word "BY", .space] (variableLexemes groupBy)
      ++ clauseLexemes [.word "ORDER", .space, .word "BY", .space]
        (separated [.space] (criterionLexemes orderBy))
      ++ sliceLexemes "LIMIT" limit ++ sliceLexemes "OFFSET" offset

/-- The lexemes of a selection. -/
def Select.lexemes : Select → List Lexeme
  | ⟨distinct, projection, pattern, modifier⟩ =>
    [.word "SELECT", .space]
      ++ distinctLexemes distinct
        (match projection with
        | none => [.mark "*"]
        | some columns => separated [.space] (columnLexemes columns))
      ++ [.newLine, .word "WHERE", .space] ++ block (lineLexemes pattern) ++ modifier.lexemes

end

/-- The lexemes of a group between braces. -/
def Group.lexemes (group : Group) : List Lexeme :=
  block (lineLexemes group)

attribute [grind =] Expression.lexemes listLexemes operandLexemes Element.lexemes lineLexemes
  branchLexemes

/-! ### Defects -/

mutual

/-- The defects of an expression. -/
def Expression.defects : Expression → List Defect
  | .var _ => []
  | .iri _ => []
  | .literal _ => []
  | .or operands => if operands.isEmpty then [.emptyLogical] else listDefects operands
  | .and operands => if operands.isEmpty then [.emptyLogical] else listDefects operands
  | .compare left _ right => left.defects ++ right.defects
  | .oneOf value choices => value.defects ++ listDefects choices
  | .noneOf value choices => value.defects ++ listDefects choices
  | .not operand => operand.defects
  | .call function arguments =>
    (if function.accepts arguments.length then []
      else [.argumentCount function.lexeme.text arguments.length]) ++ listDefects arguments
  | .exists pattern => groupDefects pattern
  | .notExists pattern => groupDefects pattern
  | .count _ none => []
  | .count _ (some counted) => counted.defects
  | .sum _ summed => summed.defects

/-- The defects of some expressions. -/
def listDefects : List Expression → List Defect
  | [] => []
  | expression :: rest => expression.defects ++ listDefects rest

/-- The defects of an element. -/
def Element.defects : Element → List Defect
  | .triple triple => triple.defects
  | .optional pattern => groupDefects pattern
  | .union branches => if branches.isEmpty then [.emptyUnion] else branchDefects branches
  | .group pattern => groupDefects pattern
  | .filter condition => condition.defects
  | .values data => data.defects
  | .bind value _ => value.defects
  | .service _ _ pattern => groupDefects pattern
  | .select query => query.defects

/-- The defects of some elements. -/
def groupDefects : List Element → List Defect
  | [] => []
  | element :: rest => element.defects ++ groupDefects rest

/-- The defects of some groups. -/
def branchDefects : List (List Element) → List Defect
  | [] => []
  | branch :: rest => groupDefects branch ++ branchDefects rest

/-- The defects of a column of a selection. -/
def Projection.defects : Projection → List Defect
  | .var _ => []
  | .expression value _ => value.defects

/-- The defects of some columns. -/
def columnDefects : List Projection → List Defect
  | [] => []
  | column :: rest => column.defects ++ columnDefects rest

/-- The defects of a criterion. -/
def OrderCondition.defects : OrderCondition → List Defect
  | .ascending key => key.defects
  | .descending key => key.defects

/-- The defects of some criteria. -/
def criterionDefects : List OrderCondition → List Defect
  | [] => []
  | criterion :: rest => criterion.defects ++ criterionDefects rest

/-- The defects of a modifier. -/
def Modifier.defects : Modifier → List Defect
  | ⟨_, orderBy, _, _⟩ => criterionDefects orderBy

/-- The defects of a selection. -/
def Select.defects : Select → List Defect
  | ⟨_, projection, pattern, modifier⟩ =>
    (match projection with
      | none => []
      | some columns => if columns.isEmpty then [.emptyProjection] else columnDefects columns)
      ++ groupDefects pattern ++ modifier.defects

end

/-! ### Texts -/

/-- The text of an expression. -/
def Expression.render (expression : Expression) : Except Defect String :=
  rendered expression.defects expression.lexemes

/-- The text of a group. -/
def Group.render (group : Group) : Except Defect String :=
  rendered (groupDefects group) group.lexemes

/-- The text of a block. -/
def Block.render : Block → Except Defect String
  | .run [] => .error .emptyRun
  | .run triples =>
    rendered (triples.flatMap TriplePattern.defects)
      (separated [.newLine] (triples.map TriplePattern.lexemes))
  | .single element => rendered element.defects element.lexemes

end ShapeQuery.Sparql
