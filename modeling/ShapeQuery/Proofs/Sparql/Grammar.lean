/-
This file reads a text by the grammar of SPARQL, as far as the grammar concerns the constructs that
queries are built of: every rule of the grammar is a reader of the same shape, and the rules for
expressions, paths and groups, which contain each other, are tied together by their depth. Nothing
here knows how trees are written.

One terminal depends on the place where it stands: before an operand an angle bracket opens an IRI,
after an operand it is an operator. An IRI goes on to its closing bracket, whatever stands between.
-/
import ShapeQuery.Proofs.Sparql.Lexer
import ShapeQuery.Sparql.Query

namespace ShapeQuery.Sparql

open Rdf.Turtle (skip)

/-! ### Tokens -/

/-- The places of a text: before an operand, and after one. -/
inductive Place where
  | operand
  | operator
deriving DecidableEq

namespace Lexer

/-- The IRI after an opening bracket. -/
def bracketed? (characters : List Char) : Option (Token × List Char) :=
  match characters.dropWhile (· ≠ '>') with
  | '>' :: after => some (.iri ⟨String.ofList (characters.takeWhile (· ≠ '>'))⟩, after)
  | _ => none

/-- The next token of a text, and what follows it. -/
def next? (place : Place) (characters : List Char) : Option (Token × List Char) :=
  match skip false characters with
  | '<' :: rest =>
    match place with
    | .operand => bracketed? rest
    | .operator => mark? ('<' :: rest)
  | visible => token? visible

end Lexer

namespace Token

/-- The variable that a token is. -/
def name? : Token → Option Variable
  | .var name => some name
  | _ => none

/-- The IRI that a token is. -/
def iri? : Token → Option Iri
  | .iri name => some name
  | _ => none

/-- The language that a token is. -/
def language? : Token → Option String
  | .language tag => some tag
  | _ => none

/-- Whether a token is a certain mark. -/
def mark? (mark : String) : Token → Option Unit
  | .mark text => if text = mark then some () else none
  | _ => none

/-- The keyword that a token is, in capitals. -/
def keyword? : Token → Option String
  | .word text => some (String.ofList (text.toList.map Char.toUpper))
  | _ => none

/-- Whether a token is a certain keyword. -/
def word? (keyword : String) (token : Token) : Option Unit :=
  if token.keyword? = some keyword then some () else none

/-- The natural number that a token is. -/
def natural? : Token → Option Nat
  | .number text =>
    if text.toList.all Char.isDigit then some (Nat.ofDigitChars 10 text.toList 0) else none
  | _ => none

end Token

/-! ### Readers -/

/-- A reader takes a value from the front of a text. -/
abbrev Reader (Value : Type) := StateT (List Char) Option Value

namespace Reader

variable {Value : Type}

/-- Reads a token that passes a test. -/
def demand (place : Place) (test : Token → Option Value) : Reader Value := fun text =>
  (Lexer.next? place text).bind fun found => (test found.1).map fun value => (value, found.2)

/-- Reads a token if it passes a test. -/
def accept (place : Place) (test : Token → Option Value) : Reader (Option Value) := fun text =>
  match demand place test text with
  | some (value, rest) => some (some value, rest)
  | none => some (none, text)

/-- Reads any token that may stand before an operand. -/
def token : Reader Token :=
  demand .operand some

/-- Reads a mark. -/
def mark (text : String) : Reader Unit :=
  demand .operand (Token.mark? text)

/-- Reads a keyword. -/
def word (keyword : String) : Reader Unit :=
  demand .operand (Token.word? keyword)

/-- Reads a variable. -/
def name : Reader Variable :=
  demand .operand Token.name?

/-- Reads some items, until there is none. The bound is on their number. -/
def manyWithin (item : Reader (Option Value)) : Nat → Reader (List Value)
  | 0 => failure
  | bound + 1 => do
    match ← item with
    | none => return []
    | some value => return value :: (← manyWithin item bound)

/-- Reads items until there is none. -/
def many (item : Reader (Option Value)) : Reader (List Value) := fun text =>
  manyWithin item (text.length + 1) text

/-- Reads an item if a certain token stands before it. -/
def behind (place : Place) (test : Token → Option Unit) (item : Reader Value) :
    Reader (Option Value) := do
  match ← accept place test with
  | some _ => return some (← item)
  | none => return none

/-- Reads items with a mark between each two. -/
def separated (place : Place) (text : String) (item : Reader Value) : Reader (List Value) := do
  let first ← item
  let rest ← many (behind place (Token.mark? text) item)
  return first :: rest

/-- Reads an item unless a closing mark stands there. -/
def unlessClosed (closing : String) (item : Reader Value) : Reader (Option Value) := do
  match ← accept .operand (Token.mark? closing) with
  | some _ => return none
  | none => return some (← item)

/-- Reads items up to a closing mark. -/
def upTo (closing : String) (item : Reader Value) : Reader (List Value) :=
  many (unlessClosed closing item)

/-- Reads what stands between parentheses. -/
def parenthesised (item : Reader Value) : Reader Value := do
  mark "("
  let value ← item
  mark ")"
  return value

/-- Reads what follows a keyword, if the keyword stands there. -/
def clause (keyword : String) (content : Reader Value) : Reader (Option Value) :=
  behind .operand (Token.word? keyword) content

/-- What a whole text is read as. Nothing may be left but white space and comments. -/
def whole? (reader : Reader Value) (text : String) : Option Value :=
  (reader text.toList).bind fun found => if skip false found.2 = [] then some found.1 else none

end Reader

open Reader

/-! ### Terms -/

/-- The literal that a number stands for. -/
def numeral (text : String) : Literal :=
  if text.toList.any fun character => character = 'e' || character = 'E' then
    .typed text Vocabulary.xsdDouble
  else if text.toList.contains '.' then .typed text Vocabulary.xsdDecimal
  else .typed text Vocabulary.xsdInteger

/-- Reads the language or the datatype of a string. -/
def stringLiteral (value : String) : Reader Literal := do
  match ← accept .operand Token.language? with
  | some tag => return .tagged value tag
  | none =>
    match ← accept .operand (Token.mark? "^^") with
    | some _ => return .typed value (← demand .operand Token.iri?)
    | none => return .plain value

/-- Reads the rest of a literal that begins with a token. -/
def literalFrom (token : Token) : Reader Literal :=
  match token with
  | .string value => stringLiteral value
  | .number text => return numeral text
  | _ =>
    match token.keyword? with
    | some "TRUE" => return .ofBool true
    | some "FALSE" => return .ofBool false
    | _ => failure

/-- Reads the rest of a term that begins with a token. -/
def termFrom (token : Token) : Reader Term :=
  match token with
  | .var name => return .var name
  | .iri name => return .iri name
  | .blank label => return .blank label
  | _ => return .literal (← literalFrom token)

/-- Reads a term. -/
def term : Reader Term := do
  termFrom (← token)

/-! ### Rules that contain each other -/

/-- A list of operands, which is nothing else if there is only one. -/
def collapse {Value : Type} (make : List Value → Value) : List Value → Value
  | [single] => single
  | several => make several

/-- The group that an element is, or is the only element of. -/
def Element.asGroup : Element → Group
  | .group pattern => pattern
  | element => [element]

/-- The readers of what may contain itself: expressions, paths, and what stands in a pair of braces
after the opening one, which is a group or a selection. -/
structure Grammar where
  expression : Reader Expression
  path : Reader Path
  body : Reader Element

namespace Grammar

variable (grammar : Grammar)

/-! ### Paths -/

/-- Reads an IRI, or a path in parentheses. -/
def primaryPath : Reader Path := do
  match ← token with
  | .iri name => return .predicate name
  | .mark "(" => do
    let path ← grammar.path
    mark ")"
    return path
  | _ => failure

/-- The repetition that a mark stands for. -/
def repetition? : Token → Option (Path → Path)
  | .mark "*" => some .zeroOrMore
  | .mark "+" => some .oneOrMore
  | .mark "?" => some .zeroOrOne
  | _ => none

/-- Reads a path that may be repeated. -/
def repeatedPath : Reader Path := do
  let path ← grammar.primaryPath
  match ← accept .operand repetition? with
  | some make => return make path
  | none => return path

/-- Reads a path that may be inverse. -/
def directedPath : Reader Path := do
  match ← accept .operand (Token.mark? "^") with
  | some _ => return .inverse (← grammar.repeatedPath)
  | none => grammar.repeatedPath

/-- Reads a sequence of paths. -/
def sequencePath : Reader Path :=
  collapse .sequence <$> separated .operand "/" grammar.directedPath

/-- Reads an alternative of paths. -/
def alternativePath : Reader Path :=
  collapse .alternative <$> separated .operand "|" grammar.sequencePath

/-- Reads a variable or a path. -/
def verb : Reader Verb := do
  match ← accept .operand Token.name? with
  | some name => return .var name
  | none => return .path (← grammar.alternativePath)

/-! ### Expressions -/

/-- The function of a keyword. -/
def function? : String → Option Function
  | "STR" => some .str
  | "LCASE" => some .lowercase
  | "REGEX" => some .regex
  | "ISBLANK" => some .isBlank
  | "SHA256" => some .sha256
  | "CONCAT" => some .concat
  | "URI" => some .uri
  | _ => none

/-- Reads a group between braces. -/
def group : Reader Group := do
  mark "\x7b"
  return (← grammar.body).asGroup

/-- Reads expressions with commas between them, and a closing parenthesis. -/
def list : Reader (List Expression) := do
  match ← accept .operand (Token.mark? ")") with
  | some _ => return []
  | none =>
    let items ← separated .operand "," grammar.expression
    mark ")"
    return items

/-- Reads what an aggregate is about, and its closing parenthesis. -/
def aggregated (content : Reader Expression) : Reader (Bool × Option Expression) := do
  mark "("
  let distinct ← accept .operand (Token.word? "DISTINCT")
  let star ← accept .operand (Token.mark? "*")
  let counted ← match star with
    | some _ => pure none
    | none => some <$> content
  mark ")"
  return (distinct.isSome, counted)

/-- Reads the rest of an expression that begins with a keyword. -/
def keywordFrom (keyword : String) (token : Token) : Reader Expression :=
  match keyword with
  | "EXISTS" => return .exists (← grammar.group)
  | "NOT" => do
    word "EXISTS"
    return .notExists (← grammar.group)
  | "COUNT" => do
    let (distinct, counted) ← aggregated grammar.expression
    return .count distinct counted
  | "SUM" => do
    match ← aggregated grammar.expression with
    | (distinct, some summed) => return .sum distinct summed
    | (_, none) => failure
  | "BOUND" => return .call .bound [.var (← parenthesised name)]
  | _ =>
    match function? keyword with
    | some function => do
      mark "("
      let arguments ← grammar.list
      if function.accepts arguments.length then return .call function arguments else failure
    | none => return .literal (← literalFrom token)

/-- Reads an IRI, or a call of the function with that name. -/
def callFrom (name : Iri) : Reader Expression := do
  match ← accept .operand (Token.mark? "(") with
  | some _ => return .call (.custom name) (← grammar.list)
  | none => return .iri name

/-- Reads the rest of a primary expression that begins with a token. -/
def primaryFrom (token : Token) : Reader Expression :=
  match token with
  | .var name => return .var name
  | .iri name => grammar.callFrom name
  | .mark "(" => do
    let expression ← grammar.expression
    mark ")"
    return expression
  | .word text =>
    grammar.keywordFrom (String.ofList (text.toList.map Char.toUpper)) (.word text)
  | _ => return .literal (← literalFrom token)

/-- Reads a primary expression. -/
def primary : Reader Expression := do
  grammar.primaryFrom (← token)

/-- Reads an expression that may be negated. -/
def unary : Reader Expression := do
  match ← accept .operand (Token.mark? "!") with
  | some _ => return .not (← grammar.primary)
  | none => grammar.primary

/-- What may stand between the operands of a relation. -/
inductive Relation where
  | comparison (comparison : Comparison)
  | oneOf
  | noneOf

/-- The relation that a token begins. -/
def relation? : Token → Option Relation
  | .mark symbol => (Comparison.ofSymbol? symbol).map .comparison
  | token =>
    match token.keyword? with
    | some "IN" => some .oneOf
    | some "NOT" => some .noneOf
    | _ => none

/-- Reads a relation between values. -/
def relational : Reader Expression := do
  let left ← grammar.unary
  match ← accept .operator relation? with
  | none => return left
  | some (.comparison comparison) => return .compare left comparison (← grammar.unary)
  | some .oneOf => do
    mark "("
    return .oneOf left (← grammar.list)
  | some .noneOf => do
    word "IN"
    mark "("
    return .noneOf left (← grammar.list)

/-- Reads a conjunction. -/
def conjunction : Reader Expression :=
  collapse .and <$> separated .operator "&&" grammar.relational

/-- Reads a disjunction. -/
def disjunction : Reader Expression :=
  collapse .or <$> separated .operator "||" grammar.conjunction

/-! ### Elements -/

/-- Reads a value and the variable that it is given to. -/
def named : Reader (Expression × Variable) := do
  let value ← grammar.expression
  word "AS"
  let target ← name
  mark ")"
  return (value, target)

/-- Reads the rest of a triple that begins with a token. -/
def tripleFrom (token : Token) : Reader TriplePattern := do
  let subject ← termFrom token
  let verb ← grammar.verb
  let object ← term
  mark "."
  return ⟨subject, verb, object⟩

/-- Reads a value of a table: an IRI, a literal, or none. -/
def cell : Reader (Option Term) := do
  let token ← token
  if token.keyword? = some "UNDEF" then return none
  else
    match ← termFrom token with
    | .iri name => return some (.iri name)
    | .literal value => return some (.literal value)
    | _ => failure

/-- Reads a table, whose columns stand in parentheses unless there is only one. -/
def data : Reader Data := do
  match ← accept .operand Token.name? with
  | some name =>
    mark "\x7b"
    let cells ← upTo "\x7d" cell
    return ⟨[name], cells.map fun value => [value]⟩
  | none =>
    mark "("
    let names ← upTo ")" name
    mark "\x7b"
    let rows ← upTo "\x7d" do
      mark "("
      upTo ")" cell
    return ⟨names, rows⟩

/-- The union of groups, which is a group or a selection if there is only one. -/
def union (first : Element) : List Group → Element
  | [] => first
  | others => .union (first.asGroup :: others)

/-- Reads the rest of a group, a union or a selection that begins with a brace. -/
def unionFrom : Reader Element := do
  let first ← grammar.body
  let others ← many (behind .operand (Token.word? "UNION") grammar.group)
  return union first others

/-- Reads the rest of an element that begins with a keyword. -/
def elementFrom (keyword : String) (token : Token) : Reader Element :=
  match keyword with
  | "OPTIONAL" => return .optional (← grammar.group)
  | "FILTER" => return .filter (← grammar.primary)
  | "VALUES" => return .values (← data)
  | "BIND" => do
    mark "("
    let (value, target) ← grammar.named
    return .bind value target
  | "SERVICE" => do
    let silent ← accept .operand (Token.word? "SILENT")
    let name ← demand .operand Token.iri?
    return .service name silent.isSome (← grammar.group)
  | _ => return .triple (← grammar.tripleFrom token)

/-- Reads an element of a group. -/
def element : Reader Element := do
  let token ← token
  match token with
  | .mark "\x7b" => grammar.unionFrom
  | .word text => grammar.elementFrom (String.ofList (text.toList.map Char.toUpper)) token
  | _ => return .triple (← grammar.tripleFrom token)

/-! ### Selections -/

/-- Reads a column of a selection, if there is one. -/
def column : Reader (Option Projection) := do
  match ← accept .operand Token.name? with
  | some name => return some (.var name)
  | none =>
    match ← accept .operand (Token.mark? "(") with
    | some _ => do
      let (value, target) ← grammar.named
      return some (.expression value target)
    | none => return none

/-- The direction of an order. -/
def direction? (token : Token) : Option (Expression → OrderCondition) :=
  match token.keyword? with
  | some "ASC" => some .ascending
  | some "DESC" => some .descending
  | _ => none

/-- Reads a criterion of an order, if there is one. -/
def criterion : Reader (Option OrderCondition) := do
  match ← accept .operand direction? with
  | some make => return some (make (← parenthesised grammar.expression))
  | none => return none

/-- Reads a modifier. -/
def modifier : Reader Modifier := do
  let groupBy ← clause "GROUP" do
    word "BY"
    many (accept .operand Token.name?)
  let orderBy ← clause "ORDER" do
    word "BY"
    many grammar.criterion
  let limit ← clause "LIMIT" (demand .operand Token.natural?)
  let offset ← clause "OFFSET" (demand .operand Token.natural?)
  return ⟨groupBy.getD [], orderBy.getD [], limit, offset⟩

/-- Reads the columns of a selection. -/
def projection : Reader (Option (List Projection)) := do
  match ← accept .operand (Token.mark? "*") with
  | some _ => return none
  | none => return some (← many grammar.column)

/-- Reads the rest of a selection that begins with a keyword. -/
def select : Reader Select := do
  let distinct ← accept .operand (Token.word? "DISTINCT")
  let projection ← grammar.projection
  word "WHERE"
  let pattern ← grammar.group
  let modifier ← grammar.modifier
  return ⟨distinct.isSome, projection, pattern, modifier⟩

/-- Reads a group or a selection, and the closing brace. -/
def content : Reader Element := do
  match ← accept .operand (Token.word? "SELECT") with
  | some _ => do
    let query ← grammar.select
    mark "\x7d"
    return .select query
  | none => return .group (← upTo "\x7d" grammar.element)

end Grammar

/-! ### Queries -/

/-- The rules for what contains itself at most so often. -/
def grammar : Nat → Grammar
  | 0 => ⟨failure, failure, failure⟩
  | depth + 1 => ⟨(grammar depth).disjunction, (grammar depth).alternativePath,
      (grammar depth).content⟩

/-- Reads a triple of a template. -/
def templateTriple : Reader TemplateTriple := do
  let subject ← term
  let predicate ← term
  let object ← term
  mark "."
  match predicate with
  | .var _ => return ⟨subject, predicate, object⟩
  | .iri _ => return ⟨subject, predicate, object⟩
  | _ => failure

/-- Reads a query. -/
def query (depth : Nat) : Reader Query := do
  word "CONSTRUCT"
  mark "\x7b"
  let template ← upTo "\x7d" templateTriple
  word "WHERE"
  let pattern ← (grammar depth).group
  let modifier ← (grammar depth).modifier
  return ⟨template, pattern, modifier⟩

/-- The query that a whole text is, by the grammar. Nothing in a text contains itself more often
than the text has characters. -/
def Query.parse? (text : String) : Option Query :=
  (query (text.length + 1) text.toList).bind fun found =>
    if skip false found.2 = [] then some found.1 else none

end ShapeQuery.Sparql
