/-
This file describes the chains of blank nodes that hang off a resource. A chain is followed one
blank node at a time; each further node is optional and nested in the step before it.
-/
import ShapeQuery.Shape.Fragment
import ShapeQuery.Shape.Names

namespace ShapeQuery.Shape

open Sparql (Term TriplePattern)

/-- The triple from a node along any predicate. -/
def blankStep (subject : Term) (depth : Nat) : TriplePattern :=
  ⟨subject, .var (blankPredicate depth), .var (blankObject depth)⟩

/-- The levels of a chain from a depth on. Every level leads from a blank node to a further node;
the first one starts at the focus. -/
def blankLevels (start : List TriplePattern) (depth : Nat) : Nat → Fragment
  | 0 => .empty
  | remaining + 1 =>
    let node := blankObject depth
    let triples := start ++ [blankStep (.var node) (depth + 1)]
    let deeper := blankLevels [] (depth + 1) remaining
    ⟨[.optional (triples.map .triple ++ [.filter (.call .isBlank [.var node])] ++ deeper.pattern)],
      triples.filterMap TriplePattern.template? ++ deeper.template, none⟩

/-- The chains of at most `depth` blank nodes that hang off a resource. -/
def blankChain (focus : Term) (depth : Nat) : Fragment :=
  blankLevels [blankStep focus 1] 1 depth

end ShapeQuery.Shape
