/-
This file says which unknowns a part of a lowered shape owns: those with the numbers that are free
in the scope before it and taken in the scope after it. Parts that own different numbers can be
solved apart.
-/
import ShapeQuery.Proofs.Shape.Naming
import ShapeQuery.Proofs.Sparql.Locality

namespace ShapeQuery

open Sparql (Engine Group Unknown)
open Shape (Slot Scope)

namespace Shape

/-! ### Numbers -/

/-- Whether a scope has the stem of another one and at least its numbers. -/
structure Scope.Precedes (first second : Scope) : Prop where
  stem : second.stem = first.stem
  node : first.nextNode ≤ second.nextNode
  predicate : first.nextPredicate ≤ second.nextPredicate
  choice : first.nextChoice ≤ second.nextChoice

theorem Scope.Precedes.refl (scope : Scope) : scope.Precedes scope :=
  ⟨rfl, Nat.le_refl _, Nat.le_refl _, Nat.le_refl _⟩

theorem Scope.Precedes.trans {first second third : Scope} (one : first.Precedes second)
    (other : second.Precedes third) : first.Precedes third :=
  ⟨other.stem.trans one.stem, Nat.le_trans one.node other.node,
    Nat.le_trans one.predicate other.predicate, Nat.le_trans one.choice other.choice⟩

/-- Whether the number of a slot is free in one scope and taken in a later one. -/
def Slot.Between (before after : Scope) : Slot → Prop
  | .node number => before.nextNode ≤ number ∧ number < after.nextNode
  | .nodeClasses number => before.nextNode ≤ number ∧ number < after.nextNode
  | .predicate number => before.nextPredicate ≤ number ∧ number < after.nextPredicate
  | .value number => before.nextPredicate ≤ number ∧ number < after.nextPredicate
  | .excludedValue number => before.nextPredicate ≤ number ∧ number < after.nextPredicate
  | .choice number => before.nextChoice ≤ number ∧ number < after.nextChoice

theorem Slot.Between.mono {first before after last : Scope} {slot : Slot}
    (between : slot.Between before after) (lower : first.Precedes before)
    (higher : after.Precedes last) : slot.Between first last := by
  obtain ⟨-, lowerNode, lowerPredicate, lowerChoice⟩ := lower
  obtain ⟨-, higherNode, higherPredicate, higherChoice⟩ := higher
  cases slot <;> exact ⟨Nat.le_trans (by assumption) between.1,
    Nat.lt_of_lt_of_le between.2 (by assumption)⟩

/-- No number is taken twice. -/
theorem Slot.Between.apart {first middle last : Scope} {slot : Slot}
    (between : slot.Between first middle) : ¬ slot.Between middle last := by
  intro later
  cases slot <;> exact absurd (Nat.lt_of_lt_of_le between.2 later.1) (Nat.lt_irrefl _)

/-- Whether an unknown has a number that is free in one scope and taken in a later one. -/
def Scope.Owns (before after : Scope) (unknown : Unknown) : Prop :=
  ∃ slot : Slot, slot.Between before after ∧ unknown = .var (slot.toVariable before.stem)

theorem Scope.Owns.mono {first before after last : Scope} {unknown : Unknown}
    (owns : before.Owns after unknown) (lower : first.Precedes before)
    (higher : after.Precedes last) : first.Owns last unknown := by
  obtain ⟨slot, between, rfl⟩ := owns
  exact ⟨slot, between.mono lower higher, by rw [lower.stem]⟩

theorem Scope.Owns.apart {first middle last : Scope} {unknown : Unknown}
    (precedes : first.Precedes middle) (owns : first.Owns middle unknown) :
    ¬ middle.Owns last unknown := by
  rintro ⟨other, later, same⟩
  obtain ⟨slot, between, rfl⟩ := owns
  rw [precedes.stem] at same
  cases Slot.toVariable_injective _ (Unknown.var.inj same)
  exact between.apart later

end Shape

/-! ### Lowered parts -/

namespace Lowering

variable {lowering : Lowering}

theorem path_precedes (classes : List Iri) (undecided : Bool) (scope : Scope)
    (path : ShapePath) : scope.Precedes (lowering.path classes undecided scope path).2 := by
  unfold Lowering.path
  split
  · exact ⟨rfl, Nat.le_refl _, Nat.le_succ _, Nat.le_refl _⟩
  · exact ⟨rfl, Nat.le_add_right _ _, Nat.le_refl _, Nat.le_refl _⟩

theorem filter_precedes (scope : Scope) (constraint : FilterConstraint) :
    scope.Precedes (lowering.filter scope constraint).2 := by
  unfold Lowering.filter
  split
  · exact .refl scope
  · exact ⟨rfl, Nat.le_refl _, Nat.le_refl _, Nat.le_succ _⟩

end Lowering

/-! ### Fragments -/

/-- Whether the pattern of a fragment owns its unknowns and has a solution exactly under a
condition. -/
structure Fragment.Decides (engine : Engine) (graph : Rdf.Graph) (before after : Scope)
    (fragment : Fragment) (condition : Prop) : Prop where
  precedes : before.Precedes after
  owned : ∀ unknown ∈ fragment.pattern.unknowns, before.Owns after unknown
  solvable : fragment.pattern.Solvable engine graph ↔ condition

namespace Fragment.Decides

variable {engine : Engine} {graph : Rdf.Graph}

theorem empty (scope : Scope) : Decides engine graph scope scope .empty True :=
  ⟨.refl scope, nofun, iff_true_intro (Group.solvable_nil engine graph)⟩

/-- Fragments one after another are decided one by one. -/
theorem append {before middle after : Scope} {first second : Fragment}
    {firstCondition secondCondition : Prop}
    (one : Decides engine graph before middle first firstCondition)
    (other : Decides engine graph middle after second secondCondition) :
    Decides engine graph before after (first ++ second) (firstCondition ∧ secondCondition) where
  precedes := one.precedes.trans other.precedes
  owned unknown member := by
    have split : unknown ∈ first.pattern.unknowns ++ second.pattern.unknowns := by
      rw [← Group.unknowns_append]
      exact member
    rcases List.mem_append.1 split with inFirst | inSecond
    · exact (one.owned unknown inFirst).mono (.refl _) other.precedes
    · exact (other.owned unknown inSecond).mono one.precedes (.refl _)
  solvable := by
    have apart : first.pattern.Apart second.pattern := fun unknown inFirst inSecond =>
      (one.owned unknown inFirst).apart one.precedes (other.owned unknown inSecond)
    have both := Group.solvable_append engine graph apart
    rw [one.solvable, other.solvable] at both
    exact both

theorem congr {before after : Scope} {fragment : Fragment} {condition other : Prop}
    (decides : Decides engine graph before after fragment condition)
    (same : condition ↔ other) : Decides engine graph before after fragment other :=
  ⟨decides.precedes, decides.owned, decides.solvable.trans same⟩

end Fragment.Decides

end ShapeQuery
