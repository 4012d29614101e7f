/-
This file proves that a temporal relation combines the bounds of its periods by comparisons,
conjunctions and disjunctions alone, so that it has every property that these hand on.
-/
import ShapeQuery.Filter.Temporal

namespace ShapeQuery.Filter

open Sparql (Comparison)

/-- Whether a property of comparisons follows from properties of what they compare, and is handed
on by conjunctions and disjunctions. -/
structure Inherited (before after holds : Sparql.Expression → Prop) : Prop where
  ofBool : ∀ value, holds (.literal (.ofBool value))
  compare : ∀ {left : Sparql.Expression} {comparison : Comparison} {right : Sparql.Expression},
    before left → after right → holds (.compare left comparison right)
  and : ∀ {operands : List Sparql.Expression}, operands ≠ [] → (∀ operand ∈ operands, holds operand) →
    holds (.and operands)
  or : ∀ {operands : List Sparql.Expression}, operands ≠ [] → (∀ operand ∈ operands, holds operand) →
    holds (.or operands)

/-- Whether a property holds of the bounds of a period. -/
structure Period.All (holds : Sparql.Expression → Prop) (period : Period) : Prop where
  start : ∀ bound ∈ period.start, holds bound
  finish : ∀ bound ∈ period.finish, holds bound

/-- Whether a property holds of the value of an end of a period. -/
def Endpoint.All (holds : Sparql.Expression → Prop) : Endpoint → Prop
  | .value bound => holds bound
  | _ => True

/-- Whether a property holds of what a condition leaves to the query. -/
def Condition.All (holds : Sparql.Expression → Prop) : Condition → Prop
  | .undecided expression => holds expression
  | .decided _ => True

variable {before after holds : Sparql.Expression → Prop}

theorem Period.All.startPoint {period : Period} (every : period.All holds) :
    period.startPoint.All holds := by
  unfold Period.startPoint
  cases found : period.start with
  | none => exact trivial
  | some bound => exact every.start bound found

theorem Period.All.finishPoint {period : Period} (every : period.All holds) :
    period.finishPoint.All holds := by
  unfold Period.finishPoint
  cases found : period.finish with
  | none => exact trivial
  | some bound => exact every.finish bound found

variable (inherited : Inherited before after holds)

include inherited

namespace Condition

theorem All.expression {condition : Condition} (every : condition.All holds) :
    holds condition.expression := by
  cases condition with
  | decided value => exact inherited.ofBool value
  | undecided expression => exact every

theorem all_compare {left right : Endpoint} (leftHolds : left.All before) (comparison : Comparison)
    (rightHolds : right.All after) : (compare left comparison right).All holds := by
  unfold compare
  split
  · exact inherited.compare leftHolds rightHolds
  · exact trivial

omit inherited in
theorem holds_pending {conditions : List Condition}
    (every : ∀ condition ∈ conditions, condition.All holds) :
    ∀ expression ∈ pending conditions, holds expression := by
  intro expression member
  obtain ⟨condition, inside, found⟩ := List.mem_filterMap.1 member
  cases condition with
  | decided value => cases found
  | undecided own =>
    cases found
    exact every _ inside

theorem all_all {conditions : List Condition}
    (every : ∀ condition ∈ conditions, condition.All holds) : (all conditions).All holds := by
  have expressions := holds_pending every
  unfold all
  split
  · exact trivial
  · split
    · exact trivial
    · rename_i only
      rw [only, List.forall_mem_singleton] at expressions
      exact expressions
    · rename_i several _
      exact inherited.and several expressions

theorem all_any {conditions : List Condition}
    (every : ∀ condition ∈ conditions, condition.All holds) : (any conditions).All holds := by
  have expressions := holds_pending every
  unfold any
  split
  · exact trivial
  · split
    · exact trivial
    · rename_i only
      rw [only, List.forall_mem_singleton] at expressions
      exact expressions
    · rename_i several _
      exact inherited.or several expressions

end Condition

/-- What follows from properties of the bounds of two periods holds of a relation between them. -/
theorem TemporalRelation.holds_filter (relation : TemporalRelation) {left right : Period}
    (leftHolds : left.All before) (rightHolds : right.All after) :
    holds (relation.filter left right) := by
  refine Condition.All.expression inherited ?_
  have starts (comparison : Comparison) :=
    Condition.all_compare inherited leftHolds.startPoint comparison rightHolds.startPoint
  have finishes (comparison : Comparison) :=
    Condition.all_compare inherited leftHolds.finishPoint comparison rightHolds.finishPoint
  have startToFinish (comparison : Comparison) :=
    Condition.all_compare inherited leftHolds.startPoint comparison rightHolds.finishPoint
  have finishToStart (comparison : Comparison) :=
    Condition.all_compare inherited leftHolds.finishPoint comparison rightHolds.startPoint
  cases relation with
  | after | metBy => exact startToFinish _
  | before | meets => exact finishToStart _
  | disjoint =>
    exact Condition.all_any inherited (List.forall_mem_cons.2 ⟨finishToStart _,
      List.forall_mem_singleton.2 (startToFinish _)⟩)
  | intersects =>
    exact Condition.all_all inherited (List.forall_mem_cons.2 ⟨startToFinish _,
      List.forall_mem_singleton.2 (finishToStart _)⟩)
  | overlappedBy =>
    exact Condition.all_all inherited (List.forall_mem_cons.2 ⟨starts _, List.forall_mem_cons.2
      ⟨startToFinish _, List.forall_mem_singleton.2 (finishes _)⟩⟩)
  | overlaps =>
    exact Condition.all_all inherited (List.forall_mem_cons.2 ⟨starts _, List.forall_mem_cons.2
      ⟨finishToStart _, List.forall_mem_singleton.2 (finishes _)⟩⟩)
  | _ =>
    exact Condition.all_all inherited (List.forall_mem_cons.2 ⟨starts _,
      List.forall_mem_singleton.2 (finishes _)⟩)

end ShapeQuery.Filter
