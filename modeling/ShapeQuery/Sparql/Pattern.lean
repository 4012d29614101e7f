/-
This file defines the graph patterns and the expressions of queries, which contain each other. A
group is the list of its elements in the order of writing, so that joining two groups is
appending them.
-/
import ShapeQuery.Sparql.Triple

namespace ShapeQuery.Sparql

/-! ### Operators -/

/-- A comparison of two values. -/
inductive Comparison where
  | equal
  | notEqual
  | less
  | lessOrEqual
  | greater
  | greaterOrEqual
deriving DecidableEq, Inhabited

/-- The symbol of a comparison in a query. -/
def Comparison.symbol : Comparison → String
  | .equal => "="
  | .notEqual => "!="
  | .less => "<"
  | .lessOrEqual => "<="
  | .greater => ">"
  | .greaterOrEqual => ">="

/-- The comparison of a symbol; inequality has two of them. -/
def Comparison.ofSymbol? (symbol : String) : Option Comparison :=
  match symbol with
  | "=" => some .equal
  | "<>" => some .notEqual
  | "!=" => some .notEqual
  | "<" => some .less
  | "<=" => some .lessOrEqual
  | ">" => some .greater
  | ">=" => some .greaterOrEqual
  | _ => none

/-- A function that an expression calls. -/
inductive Function where
  | str
  | lowercase
  | regex
  | isBlank
  | sha256
  | concat
  | uri
  | bound
  | custom (name : Iri)
deriving DecidableEq, Inhabited

namespace Function

/-- The lexeme of a function. -/
def lexeme : Function → Lexeme
  | .str => .word "STR"
  | .lowercase => .word "LCASE"
  | .regex => .word "REGEX"
  | .isBlank => .word "isBLANK"
  | .sha256 => .word "SHA256"
  | .concat => .word "CONCAT"
  | .uri => .word "URI"
  | .bound => .word "BOUND"
  | .custom name => .iri name

/-- Whether a function takes a number of arguments. -/
def accepts (function : Function) (count : Nat) : Bool :=
  match function with
  | .regex => count = 2 || count = 3
  | .concat => 1 ≤ count
  | .custom _ => true
  | _ => count = 1

end Function

/-! ### Patterns and expressions -/

/-- A table of values, one row for each solution. An absent value leaves its variable unbound. -/
structure Data where
  columns : List Variable
  rows : List (List (Option Term))
deriving Inhabited

/-- A table with a single column. -/
def Data.column (target : Variable) (values : List Term) : Data :=
  ⟨[target], values.map fun value => [some value]⟩

mutual

/-- An expression. -/
inductive Expression where
  | var (name : Variable)
  | iri (name : Iri)
  | literal (value : Literal)
  | or (operands : List Expression)
  | and (operands : List Expression)
  | compare (left : Expression) (comparison : Comparison) (right : Expression)
  | oneOf (value : Expression) (choices : List Expression)
  | noneOf (value : Expression) (choices : List Expression)
  | not (operand : Expression)
  | call (function : Function) (arguments : List Expression)
  | exists (pattern : List Element)
  | notExists (pattern : List Element)
  | count (distinct : Bool) (counted : Option Expression)
  | sum (distinct : Bool) (summed : Expression)

/-- An element of a group. -/
inductive Element where
  | triple (triple : TriplePattern)
  | optional (pattern : List Element)
  | union (branches : List (List Element))
  | group (pattern : List Element)
  | filter (condition : Expression)
  | values (data : Data)
  | bind (value : Expression) (target : Variable)
  | service (name : Iri) (silent : Bool) (pattern : List Element)
  | select (query : Select)

/-- A column of a selection: a variable, or an expression with a name. -/
inductive Projection where
  | var (name : Variable)
  | expression (value : Expression) (target : Variable)

/-- A criterion of an order. -/
inductive OrderCondition where
  | ascending (key : Expression)
  | descending (key : Expression)

/-- What happens to the solutions after they were found: grouping, order and slice. -/
structure Modifier where
  groupBy : List Variable
  orderBy : List OrderCondition
  limit : Option Nat
  offset : Option Nat

/-- A selection nested in a group; without a projection it selects every variable. -/
structure Select where
  distinct : Bool
  projection : Option (List Projection)
  pattern : List Element
  modifier : Modifier

end

/-- The content of a pair of braces. -/
abbrev Group := List Element

instance : Inhabited Expression := ⟨.and []⟩
instance : Inhabited Element := ⟨.group []⟩

namespace Modifier

/-- The modifier that changes nothing. -/
def empty : Modifier := ⟨[], [], none, none⟩

/-- Whether a modifier changes nothing. -/
def isEmpty (modifier : Modifier) : Bool :=
  modifier.groupBy.isEmpty && modifier.orderBy.isEmpty && modifier.limit.isNone
    && modifier.offset.isNone

end Modifier

namespace Element

/-- A single triple. -/
def ofTriple (subject : Term) (verb : Verb) (object : Term) : Element :=
  .triple ⟨subject, verb, object⟩

/-- A table with a single column. -/
def column (target : Variable) (values : List Term) : Element :=
  .values (.column target values)

end Element

/-- A term as an expression; blank nodes are none. -/
def Term.expression? : Term → Option Expression
  | .var name => some (.var name)
  | .iri name => some (.iri name)
  | .literal value => some (.literal value)
  | .blank _ => none

end ShapeQuery.Sparql
