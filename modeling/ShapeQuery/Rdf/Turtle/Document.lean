/-
This file reads Turtle documents. The tokens are taken one at a time by a machine whose stack holds
the statements, property lists and collections that are still open. A node that the document does
not name gets a label with a dot in front, which no written label has.
-/
import ShapeQuery.Iri.Resolve
import ShapeQuery.Rdf.Graph
import ShapeQuery.Rdf.LanguageTag
import ShapeQuery.Rdf.Turtle.Token

namespace ShapeQuery.Rdf.Turtle

/-! ### The machine -/

/-- A part of the document that is still open. -/
inductive Frame where
  /-- The properties of a node, ended by a dot or, between brackets, by the closing bracket. -/
  | properties (subject : Node) (predicate : Option Iri) (bracketed : Bool)
  /-- A collection, with its first and its last cell so far. -/
  | collection (cells : Option (Node × Node))

/-- What the machine waits for. -/
inductive Expectation where
  | statement
  | declaredLabel (dotted : Bool)
  | declaredIri (label : String) (dotted : Bool)
  | declaredBase (dotted : Bool)
  | declarationEnd
  | verb
  | verbOrDot
  | verbOrEnd
  | object
  | objectOrEnd
  | suffix (value : String)
  | datatype (value : String)
  | separator

/-- The state of the machine. -/
structure Machine where
  base : Option Iri
  labels : List (String × Iri)
  anonymous : Nat
  triples : List Triple
  frames : List Frame
  expected : Expectation

namespace Machine

/-- The machine before the first token. -/
def start : Machine :=
  { base := none, labels := [], anonymous := 0, triples := [], frames := [],
    expected := .statement }

/-- Adds a triple. -/
def record (machine : Machine) (subject : Node) (predicate : Iri) (object : Term) : Machine :=
  { machine with triples := ⟨subject, predicate, object⟩ :: machine.triples }

/-- A node without a name, and the machine that will not use it again. -/
def fresh (machine : Machine) : Node × Machine :=
  (.blank ("." ++ toString machine.anonymous), { machine with anonymous := machine.anonymous + 1 })

/-! ### Names -/

/-- An IRI reference, resolved against the base if there is one. -/
def reference? (machine : Machine) (text : String) : Option Iri :=
  match machine.base with
  | some base => (Iri.resolve base text).toOption
  | none => Iri.ofText? text

/-- A prefixed name, for a declared label. It is an IRI without a check if the local part adds only
plain characters to a path. -/
def name? (machine : Machine) (label : String) (localPart : LocalPart) : Option Iri := do
  let space ← machine.labels.lookup label
  let text := space.text ++ localPart.text
  if localPart.isDoubtful || space.path.isEmpty then Iri.ofText? text else some ⟨text⟩

/-- The IRI that a token stands for. -/
def iri? (machine : Machine) : Token → Option Iri
  | .iriReference text => machine.reference? text
  | .name label localPart => machine.name? label localPart
  | _ => none

/-! ### Values -/

/-- Takes a complete value: the object of the open predicate, an element of the open collection,
or else the subject of a new statement. -/
def take? (machine : Machine) (value : Term) : Option Machine :=
  match machine.frames with
  | .properties subject (some predicate) _ :: _ =>
    some { machine.record subject predicate value with expected := .separator }
  | .properties _ none _ :: _ => none
  | .collection none :: frames =>
    let (cell, machine) := machine.fresh
    let machine := machine.record cell Vocabulary.rdfFirst value
    some { machine with
      frames := .collection (some (cell, cell)) :: frames, expected := .objectOrEnd }
  | .collection (some (first, last)) :: frames =>
    let (cell, machine) := machine.fresh
    let machine := machine.record last Vocabulary.rdfRest cell.term
    let machine := machine.record cell Vocabulary.rdfFirst value
    some { machine with
      frames := .collection (some (first, cell)) :: frames, expected := .objectOrEnd }
  | [] =>
    value.node?.map fun subject =>
      { machine with frames := [.properties subject none false], expected := .verb }

/-- Takes the first token of a subject, an object or an element. -/
def value? (machine : Machine) : Token → Option Machine
  | .iriReference text => do machine.take? (.iri (← machine.reference? text))
  | .name label localPart => do machine.take? (.iri (← machine.name? label localPart))
  | .blank label => machine.take? (.blank label)
  | .mark '[' =>
    let (node, machine) := machine.fresh
    some { machine with
      frames := .properties node none true :: machine.frames, expected := .verbOrEnd }
  | .mark '(' =>
    some { machine with
      frames := .collection none :: machine.frames, expected := .objectOrEnd }
  | .string value =>
    if machine.frames.isEmpty then none else some { machine with expected := .suffix value }
  | .number text datatype => machine.take? (.literal (.typed text datatype))
  | .word "true" => machine.take? (.literal (.ofBool true))
  | .word "false" => machine.take? (.literal (.ofBool false))
  | _ => none

/-- Takes the predicate of the open properties. -/
def predicate? (machine : Machine) (predicate : Iri) : Option Machine :=
  match machine.frames with
  | .properties subject _ bracketed :: frames =>
    some { machine with
      frames := .properties subject (some predicate) bracketed :: frames, expected := .object }
  | _ => none

/-- Takes a predicate, for which the letter `a` is short for the type. -/
def verb? (machine : Machine) (token : Token) : Option Machine :=
  if token = .word "a" then machine.predicate? Vocabulary.rdfType
  else do machine.predicate? (← machine.iri? token)

/-! ### Ends -/

/-- Ends the open statement. -/
def dot? (machine : Machine) : Option Machine :=
  match machine.frames with
  | [.properties _ _ false] => some { machine with frames := [], expected := .statement }
  | _ => none

/-- Ends the open property list. A list that is a subject may stand alone unless it is empty. -/
def closeBracket? (machine : Machine) : Option Machine :=
  match machine.frames with
  | .properties node predicate true :: frames => do
    let closed ← { machine with frames }.take? node.term
    if frames.isEmpty && predicate.isSome then some { closed with expected := .verbOrDot }
    else some closed
  | _ => none

/-- Ends the open collection. -/
def closeParenthesis? (machine : Machine) : Option Machine :=
  match machine.frames with
  | .collection none :: frames => { machine with frames }.take? (.iri Vocabulary.rdfNil)
  | .collection (some (first, last)) :: frames =>
    let machine := machine.record last Vocabulary.rdfRest (.iri Vocabulary.rdfNil)
    { machine with frames }.take? first.term
  | _ => none

/-- Takes what follows a complete object. -/
def separator? (machine : Machine) : Token → Option Machine
  | .mark ',' => some { machine with expected := .object }
  | .mark ';' => some { machine with expected := .verbOrEnd }
  | .mark '.' => machine.dot?
  | .mark ']' => machine.closeBracket?
  | _ => none

/-! ### Declarations -/

/-- Takes the first token of a statement. -/
def statement? (machine : Machine) (token : Token) : Option Machine :=
  match token with
  | .language "prefix" => some { machine with expected := .declaredLabel true }
  | .language "base" => some { machine with expected := .declaredBase true }
  | .word word =>
    if word.toLower = "prefix" then some { machine with expected := .declaredLabel false }
    else if word.toLower = "base" then some { machine with expected := .declaredBase false }
    else none
  | .number .. => none
  | _ => machine.value? token

/-- The expectation after a declaration. -/
def afterDeclaration (dotted : Bool) : Expectation :=
  if dotted then .declarationEnd else .statement

/-- Takes one token, where a string is not waiting for its suffix. -/
def advance? (machine : Machine) (token : Token) : Option Machine :=
  match machine.expected with
  | .statement => machine.statement? token
  | .declaredLabel dotted =>
    match token with
    | .name label localPart =>
      if localPart.text.isEmpty then
        some { machine with expected := .declaredIri label dotted }
      else none
    | _ => none
  | .declaredIri label dotted =>
    match token with
    | .iriReference text => do
      let space ← machine.reference? text
      some { machine with
        labels := (label, space) :: machine.labels, expected := afterDeclaration dotted }
    | _ => none
  | .declaredBase dotted =>
    match token with
    | .iriReference text => do
      let base ← machine.reference? text
      some { machine with base := some base, expected := afterDeclaration dotted }
    | _ => none
  | .declarationEnd =>
    if token = .mark '.' then some { machine with expected := .statement } else none
  | .verb => machine.verb? token
  | .verbOrDot => if token = .mark '.' then machine.dot? else machine.verb? token
  | .verbOrEnd =>
    if token = .mark ']' then machine.closeBracket?
    else
      match machine.frames with
      | .properties _ none _ :: _ => machine.verb? token
      | _ =>
        if token = .mark ';' then some machine
        else if token = .mark '.' then machine.dot?
        else machine.verb? token
  | .object => machine.value? token
  | .objectOrEnd => if token = .mark ')' then machine.closeParenthesis? else machine.value? token
  | .suffix _ => none
  | .datatype value => do
    machine.take? (.literal (.ofDatatype value (← machine.iri? token)))
  | .separator => machine.separator? token

/-- Takes one token. A string is complete unless a language or a datatype follows. -/
def step? (machine : Machine) (token : Token) : Option Machine :=
  match machine.expected with
  | .suffix value =>
    match token with
    | .language tag =>
      if LanguageTag.isWellFormed tag.toLower then
        machine.take? (.literal (.tagged value tag.toLower))
      else none
    | .datatypeMark => some { machine with expected := .datatype value }
    | _ => do
      let machine ← machine.take? (.literal (.plain value))
      machine.advance? token
  | _ => machine.advance? token

/-- The graph of a document that has ended. -/
def graph? (machine : Machine) : Option Graph :=
  match machine.expected with
  | .statement => some (.ofList machine.triples.reverse)
  | _ => none

end Machine

end Turtle

/-- Reads a Turtle document. -/
def Graph.ofTurtle? (text : String) : Option Graph := do
  let tokens ← Turtle.tokens? text.toList
  let machine ← tokens.foldlM Turtle.Machine.step? Turtle.Machine.start
  machine.graph?

end ShapeQuery.Rdf
