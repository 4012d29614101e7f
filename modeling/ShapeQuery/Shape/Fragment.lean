/-
This file defines fragments of queries: patterns together with the triples that show what they
bind.
-/
import ShapeQuery.Shape.Basic
import ShapeQuery.Sparql.Group

namespace ShapeQuery

open Sparql (Group TriplePattern TemplateTriple Term Variable Element Path)

/-- A part of a query. -/
structure Fragment where
  pattern : Group
  template : List TemplateTriple
  /-- The node that a property shape leads to. -/
  terminal : Option Term
deriving Inhabited

namespace Fragment

/-- The fragment that does nothing. -/
def empty : Fragment := ⟨[], [], none⟩

/-- One fragment after another; the first terminal counts. -/
def append (first second : Fragment) : Fragment :=
  ⟨first.pattern ++ second.pattern, first.template ++ second.template,
    first.terminal <|> second.terminal⟩

instance : Append Fragment := ⟨append⟩

/-- A pattern that shows nothing. -/
def hidden (pattern : Group) : Fragment := ⟨pattern, [], none⟩

/-- A triple, shown unless its predicate is a compound path. -/
def ofTriple (triple : TriplePattern) : Fragment :=
  ⟨[.triple triple], triple.template?.toList, none⟩

/-- Gives a node one of some classes; a variable stands for the class if there are several. -/
def classified (node : Term) (classVariable : Variable) : List Iri → Fragment
  | [] => empty
  | [single] => ofTriple ⟨node, .predicate Vocabulary.rdfType, .iri single⟩
  | classes =>
    ofTriple ⟨node, .predicate Vocabulary.rdfType, .var classVariable⟩
      ++ hidden [.column classVariable (classes.map .iri)]

end Fragment

namespace Sparql.Path

/-! ### Steps -/

/-- The triple for a path between two nodes; a single predicate that is followed backwards swaps
them. -/
def step (path : Path) (subject object : Term) : TriplePattern :=
  match path.inversePredicate? with
  | some iri => ⟨object, .predicate iri, subject⟩
  | none => ⟨subject, .path path, object⟩

/-- The triple that shows a step. A repetition is shown as if it were made once. -/
def shownStep? (path : Path) (subject object : Term) : Option TemplateTriple :=
  (path.step subject object).template?
    <|> path.repeated?.bind fun inner => (inner.step subject object).template?

/-- A path as a step of its own. An alternative has a branch for each of its members. -/
def hop (path : Path) (subject object : Term) : Fragment :=
  match path with
  | .alternative members =>
    ⟨[.union (members.map fun member => [.triple (member.step subject object)])],
      members.filterMap fun member => member.shownStep? subject object, none⟩
  | _ =>
    ⟨[.triple (path.step subject object)], (path.shownStep? subject object).toList, none⟩

/-- Steps one after another, each to a node of its own. -/
def walk (subject : Term) : List (Path × Term) → Fragment
  | [] => .empty
  | (path, object) :: rest => path.hop subject object ++ walk object rest

/-- A path matched as a whole. An alternative shows each of its members that is a single
predicate. -/
def whole (path : Path) (subject object : Term) : Fragment :=
  match path with
  | .alternative members =>
    ⟨[.triple ⟨subject, .path path, object⟩],
      members.filterMap fun member => (member.step subject object).template?, none⟩
  | _ => .ofTriple (path.step subject object)

end Sparql.Path

end ShapeQuery
