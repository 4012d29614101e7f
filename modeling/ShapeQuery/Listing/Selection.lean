/-
This file defines what a listing selects. A selection is a group that binds the focus node; without
one, every resource with a type is selected.
-/
import ShapeQuery.Rdf.Vocabulary
import ShapeQuery.Shape.Names
import ShapeQuery.Sparql.Pattern

namespace ShapeQuery.Listing

open Sparql (Term Variable Group Element Expression Projection Modifier)

/-- The resource that is listed. -/
def focus : Term := .var Shape.focusNode

/-- The class of a resource. -/
def focusClass : Variable := ⟨"focus_class"⟩

/-- The resources that have a type. -/
def typed : Element :=
  .ofTriple focus (.predicate Vocabulary.rdfType) (.var focusClass)

/-- The group of the selected resources. -/
def resources (selection : Group) : Group :=
  if selection.isEmpty then [typed] else selection

/-- Distinct solutions of a group. -/
def distinctly (columns : List Projection) (group : Group) (modifier : Modifier) : Element :=
  .select ⟨true, some columns, group, modifier⟩

/-- Solutions of a group, made anew by their columns. -/
def solutions (columns : List Projection) (group : Group) (modifier : Modifier) : Element :=
  .select ⟨false, some columns, group, modifier⟩

/-- The number of distinct resources among some solutions. -/
def resourceCount : Expression :=
  .count true (some (.var Shape.focusNode))

end ShapeQuery.Listing
