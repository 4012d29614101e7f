/-
This file defines the terms of RDF and writes them in the syntax of N-Triples.
-/
import ShapeQuery.Rdf.Vocabulary
import ShapeQuery.Text.Quoted

namespace ShapeQuery

/-- An RDF literal. A text without language and datatype is a string. -/
inductive Literal where
  | plain (value : String)
  | tagged (value : String) (language : String)
  | typed (value : String) (datatype : Iri)
deriving DecidableEq, Inhabited

namespace Literal

/-- A literal of a datatype; the strings are the plain literals. -/
def ofDatatype (value : String) (datatype : Iri) : Literal :=
  if datatype = Vocabulary.xsdString then .plain value else .typed value datatype

/-- A truth value. -/
def ofBool (value : Bool) : Literal :=
  .typed (if value then "true" else "false") Vocabulary.xsdBoolean

/-- An integer. -/
def ofInt (value : Int) : Literal :=
  .typed (toString value) Vocabulary.xsdInteger

/-- The lexical form. -/
def value : Literal → String
  | .plain value => value
  | .tagged value _ => value
  | .typed value _ => value

/-- The quoted lexical form, followed by the language or the datatype. -/
def text : Literal → String
  | .plain value => Text.quoted Text.escapeLiteral value
  | .tagged value language => Text.quoted Text.escapeLiteral value ++ "@" ++ language
  | .typed value datatype => Text.quoted Text.escapeLiteral value ++ "^^" ++ datatype.bracketed

end Literal

namespace Rdf

/-- A node of a graph that can be the subject of a triple. -/
inductive Node where
  | iri (name : Iri)
  | blank (label : String)
deriving DecidableEq, Inhabited

/-- A term of a graph. -/
inductive Term where
  | iri (name : Iri)
  | blank (label : String)
  | literal (value : Literal)
deriving DecidableEq, Inhabited

/-- A node as a term. -/
def Node.term : Node → Term
  | .iri name => .iri name
  | .blank label => .blank label

/-- A term as a node, unless it is a literal. -/
def Term.node? : Term → Option Node
  | .iri name => some (.iri name)
  | .blank label => some (.blank label)
  | .literal _ => none

/-- The text of a term. -/
def Term.text : Term → String
  | .iri name => name.bracketed
  | .blank label => "_:" ++ label
  | .literal value => value.text

/-- The text of a node. -/
def Node.text (node : Node) : String :=
  node.term.text

@[simp] theorem Node.node?_term (node : Node) : node.term.node? = some node := by
  cases node <;> rfl

theorem Term.term_of_node? {term : Term} {node : Node} (found : term.node? = some node) :
    node.term = term := by
  cases term <;> cases node <;> simp_all [Term.node?, Node.term]

end Rdf

end ShapeQuery
