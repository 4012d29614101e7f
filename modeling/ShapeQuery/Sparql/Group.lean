/-
This file defines the views of a group: its triples, the blocks it is written in, and the triples
that a template can make of its solutions.
-/
import ShapeQuery.Sparql.Pattern

namespace ShapeQuery.Sparql

/-- A part of a group as it is written: a run of triples, or another element. -/
inductive Block where
  | run (triples : List TriplePattern)
  | single (element : Element)

/-- The elements of a block. -/
def Block.elements : Block → List Element
  | .run triples => triples.map .triple
  | .single element => [element]

/-- Puts a triple before some blocks, into the run at their head if there is one. -/
def Block.prepend (triple : TriplePattern) : List Block → List Block
  | .run triples :: blocks => .run (triple :: triples) :: blocks
  | blocks => .run [triple] :: blocks

namespace Group

/-- The group of some triples. -/
def ofTriples (triples : List TriplePattern) : Group :=
  triples.map .triple

/-- The triples at the top level of a group. -/
def triples (group : Group) : List TriplePattern :=
  group.filterMap fun
    | .triple triple => some triple
    | _ => none

/-- The blocks of a group: the longest runs of triples, and the other elements. -/
def blocks : Group → List Block
  | [] => []
  | .triple triple :: rest => Block.prepend triple (blocks rest)
  | element :: rest => .single element :: blocks rest

end Group

mutual

/-- The triples of a template that an element gives rise to. -/
def Element.templateTriples : Element → List TemplateTriple
  | .triple triple => triple.template?.toList
  | .optional pattern => groupTemplateTriples pattern
  | .group pattern => groupTemplateTriples pattern
  | .union branches => branchesTemplateTriples branches
  | _ => []

/-- The triples of a template that some elements give rise to. -/
def groupTemplateTriples : List Element → List TemplateTriple
  | [] => []
  | element :: rest => element.templateTriples ++ groupTemplateTriples rest

/-- The triples of a template that some branches give rise to. -/
def branchesTemplateTriples : List (List Element) → List TemplateTriple
  | [] => []
  | branch :: rest => groupTemplateTriples branch ++ branchesTemplateTriples rest

end

/-- The triples of a template that binds the solutions of a group, each of them once. Compound
paths have no such triple; neither has what a filter, a service or a selection hides. -/
def Group.template (group : Group) : List TemplateTriple :=
  (groupTemplateTriples group).eraseDups

/-! ### Blocks -/

theorem Block.flatMap_elements_prepend (triple : TriplePattern) (blocks : List Block) :
    (Block.prepend triple blocks).flatMap Block.elements =
      .triple triple :: blocks.flatMap Block.elements := by
  match blocks with
  | [] => rfl
  | .run triples :: rest => rfl
  | .single element :: rest => rfl

/-- The blocks of a group hold its elements in their order. -/
theorem Group.flatMap_elements_blocks (group : Group) :
    group.blocks.flatMap Block.elements = group := by
  induction group with
  | nil => rfl
  | cons element rest inductionHypothesis =>
    cases element with
    | triple triple =>
      rw [Group.blocks, Block.flatMap_elements_prepend, inductionHypothesis]
    | _ => simp [Group.blocks, Block.elements, inductionHypothesis]

end ShapeQuery.Sparql
