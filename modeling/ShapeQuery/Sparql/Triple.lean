/-
This file defines the triple patterns of a WHERE clause and the triples of a CONSTRUCT template.
The predicate of a pattern may be a path; that of a template is a term.
-/
import ShapeQuery.Sparql.Path

namespace ShapeQuery.Sparql

/-- The predicate of a triple pattern. -/
inductive Verb where
  | var (name : Variable)
  | path (route : Path)
deriving Inhabited

namespace Verb

/-- The verb that is a single predicate. -/
def predicate (iri : Iri) : Verb :=
  .path (.predicate iri)

/-- The verb as a term, unless it is a compound path. -/
def term? : Verb → Option Term
  | .var name => some (.var name)
  | .path route => route.predicate?.map .iri

/-- The lexemes of a verb. -/
def lexemes : Verb → List Lexeme
  | .var name => [.var name]
  | .path route => route.lexemes

/-- The defects of a verb. -/
def defects : Verb → List Defect
  | .var _ => []
  | .path route => route.defects

end Verb

/-- The lexemes of the three parts of a triple. -/
def tripleLexemes (subject predicate object : List Lexeme) : List Lexeme :=
  subject ++ [.space] ++ predicate ++ [.space] ++ object ++ [.space, .mark "."]

/-- A triple of a template. -/
structure TemplateTriple where
  subject : Term
  predicate : Term
  object : Term
deriving DecidableEq, Inhabited

/-- A triple of a WHERE clause. -/
structure TriplePattern where
  subject : Term
  verb : Verb
  object : Term
deriving Inhabited

namespace TriplePattern

/-- The triple of a template that stands for a pattern without a compound path. -/
def template? (triple : TriplePattern) : Option TemplateTriple :=
  triple.verb.term?.map fun predicate => ⟨triple.subject, predicate, triple.object⟩

/-- The lexemes of a pattern. -/
def lexemes (triple : TriplePattern) : List Lexeme :=
  tripleLexemes triple.subject.lexemes triple.verb.lexemes triple.object.lexemes

/-- The defects of a pattern. -/
def defects (triple : TriplePattern) : List Defect :=
  triple.verb.defects

/-- The text of a pattern. -/
def render (triple : TriplePattern) : Except Defect String :=
  rendered triple.defects triple.lexemes

end TriplePattern

namespace TemplateTriple

/-- The pattern that a triple of a template stands for. Only variables and IRIs are
predicates. -/
def pattern (triple : TemplateTriple) : Except Defect TriplePattern :=
  match triple.predicate with
  | .var name => .ok ⟨triple.subject, .var name, triple.object⟩
  | .iri name => .ok ⟨triple.subject, .predicate name, triple.object⟩
  | other => .error (.predicate other)

/-- The lexemes of a triple. -/
def lexemes (triple : TemplateTriple) : List Lexeme :=
  tripleLexemes triple.subject.lexemes triple.predicate.lexemes triple.object.lexemes

/-- The defects of a triple. -/
def defects (triple : TemplateTriple) : List Defect :=
  match triple.predicate with
  | .var _ => []
  | .iri _ => []
  | other => [.predicate other]

/-- The text of a triple. -/
def render (triple : TemplateTriple) : Except Defect String :=
  rendered triple.defects triple.lexemes

end TemplateTriple

end ShapeQuery.Sparql
