/-
This file names the variables that shapes are lowered to. A variable of a shape is told by its
slot: what it stands for, and a number that is used once in the scope of the shape.
-/
import ShapeQuery.Sparql.Lexeme

namespace ShapeQuery.Shape

open Sparql (Variable)

/-- The resource that a query describes. -/
def focusNode : Variable := ⟨"focus_node"⟩

/-- The class of the focus node, if it may be one of several. -/
def focusClasses : Variable := ⟨"focus_classes"⟩

/-- The text that a search looks at. -/
def searchNode : Variable := ⟨"fts_search_node"⟩

/-- The predicate of a step of a chain of blank nodes. -/
def blankPredicate (depth : Nat) : Variable := ⟨"bn_p_" ++ toString depth⟩

/-- The node at the end of a step of a chain of blank nodes. -/
def blankObject (depth : Nat) : Variable := ⟨"bn_o_" ++ toString depth⟩

/-- What a variable of a shape stands for. -/
inductive Slot where
  | node (number : Nat)
  | nodeClasses (number : Nat)
  | predicate (number : Nat)
  | value (number : Nat)
  | excludedValue (number : Nat)
  | choice (number : Nat)
deriving DecidableEq

namespace Slot

/-- The word in the names of the slots of one sort. -/
def family : Slot → String
  | .node _ => "node"
  | .nodeClasses _ => "node_classes"
  | .predicate _ => "preds"
  | .value _ => "vals"
  | .excludedValue _ => "excluded_pred_vals"
  | .choice _ => "filter"

/-- The number of a slot. -/
def number : Slot → Nat
  | .node number => number
  | .nodeClasses number => number
  | .predicate number => number
  | .value number => number
  | .excludedValue number => number
  | .choice number => number

/-- The variable of a slot, in the scope with the given stem. -/
def toVariable (stem : String) (slot : Slot) : Variable :=
  ⟨stem ++ "_" ++ slot.family ++ "_" ++ toString slot.number⟩

end Slot

/-- The numbers that are still free in a scope. All variables of the scope share a stem. -/
structure Scope where
  stem : String
  nextNode : Nat
  nextPredicate : Nat
  nextChoice : Nat
deriving DecidableEq, Inhabited

/-- The scope in which no number is taken. -/
def Scope.start (stem : String) : Scope :=
  ⟨stem, 1, 1, 1⟩

end ShapeQuery.Shape
