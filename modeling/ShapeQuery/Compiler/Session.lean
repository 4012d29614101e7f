/-
This file keeps what a compiler knows between requests: the graphs that hold the shapes, and the
labels that were found so far. Several compilers may share it.
-/
import ShapeQuery.Compiler.Queries
import ShapeQuery.Compiler.Store
import ShapeQuery.Rdf.Turtle.Document
import ShapeQuery.Shape.Reader

namespace ShapeQuery

open Sparql (Query)

/-- A compiler with its stores. -/
structure Session where
  compiler : Compiler
  /-- The graphs that hold the shapes. -/
  shapes : Store Rdf.Graph
  /-- The labels that are known. -/
  labels : Store Literal

namespace Session

/-- The session that knows nothing yet. -/
def start (compiler : Compiler) : Session :=
  ⟨compiler, .empty, .empty⟩

/-! ### Shapes -/

/-- Stores a graph, in place of an earlier one. -/
def store (session : Session) (name : Iri) (graph : Rdf.Graph) : Session :=
  { session with shapes := session.shapes.insert name graph }

/-- Reads a graph from Turtle and stores it. A text with a fault changes nothing. -/
def load (session : Session) (name : Iri) (text : String) : Except Shape.Error Session :=
  match Rdf.Graph.ofTurtle? text with
  | some graph => .ok (session.store name graph)
  | none => .error .syntaxFault

/-- Removes the graph with a name, and tells whether there was one. -/
def dropGraph (session : Session) (name : Iri) : Session × Bool :=
  ({ session with shapes := session.shapes.erase name }, session.shapes.contains name)

/-- Removes all graphs. -/
def dropGraphs (session : Session) : Session :=
  { session with shapes := .empty }

/-- The graph with a name. -/
def graph (session : Session) (name : Iri) : Except Shape.Error Rdf.Graph :=
  match session.shapes.get? name with
  | some graph => .ok graph
  | none => .error (.notFound name.bracketed)

/-- Reads a node shape from a stored graph. -/
def nodeShape (session : Session) (name shape : Iri) : Except Shape.Error NodeShape := do
  (← session.graph name).nodeShape shape

/-- Reads a property shape from a stored graph. -/
def propertyShape (session : Session) (name shape : Iri) :
    Except Shape.Error PropertyShape := do
  (← session.graph name).propertyShape (.iri shape)

/-- Declares a property shape of a stored graph as a queryable. -/
def declare (session : Session) (name shape : Iri) (queryable : String) :
    Except Shape.Error Session := do
  let shape ← session.propertyShape name shape
  return { session with compiler := session.compiler.declare queryable shape }

/-! ### Labels -/

/-- Stores some labels. -/
def learn (session : Session) (labels : List (Iri × Literal)) : Session :=
  { session with labels := session.labels.insertAll labels }

/-- Removes the label of a resource, and tells whether there was one. -/
def forget (session : Session) (resource : Iri) : Session × Bool :=
  ({ session with labels := session.labels.erase resource }, session.labels.contains resource)

/-- Removes all labels. -/
def forgetAll (session : Session) : Session :=
  { session with labels := .empty }

/-- The query for the labels of those of some resources that have none yet. -/
def labelQuery (session : Session) (resources : List Iri) : Option Query :=
  session.compiler.labels (session.labels.missing resources)

/-! ### Compilers -/

/-- Another compiler with the same stores. -/
def sharedWith (session : Session) (compiler : Compiler) : Session :=
  { session with compiler }

end Session

end ShapeQuery
