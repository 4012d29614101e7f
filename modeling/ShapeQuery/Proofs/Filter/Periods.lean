/-
This file gives the temporal relations their meaning in time. When the bounds of two periods have
places in a linear order, which an unbounded start precedes and an unbounded end follows, a relation
compares the places of the four ends. Of two periods that end after they start exactly one of
thirteen relations holds, as in Allen's algebra of intervals; and whatever the periods are, the
converse of a relation holds of them the other way round.
-/
import Mathlib.Data.String.Basic
import Mathlib.Order.WithBot
import ShapeQuery.Proofs.Filter.Temporal
import ShapeQuery.Proofs.Sparql.Evaluation

namespace ShapeQuery

namespace Sparql

/-! ### Expressions about an order -/

section

variable {α : Type*} [LinearOrder α]

/-- Whether a comparison holds of two places in an order. -/
def Comparison.holds (comparison : Comparison) (left right : α) : Bool :=
  match comparison with
  | .equal => left = right
  | .notEqual => left ≠ right
  | .less => left < right
  | .lessOrEqual => left ≤ right
  | .greater => right < left
  | .greaterOrEqual => right ≤ left

mutual

/-- Whether an expression is true when what its comparisons compare has places in an order. Only
truth values, comparisons, conjunctions and disjunctions can be. -/
def Expression.holdsAt (place : Expression → α) : Expression → Bool
  | .literal value => value = .ofBool true
  | .compare left comparison right => comparison.holds (place left) (place right)
  | .and operands => allHoldAt place operands
  | .or operands => someHoldsAt place operands
  | _ => false

/-- Whether all of some expressions are true. -/
def allHoldAt (place : Expression → α) : List Expression → Bool
  | [] => true
  | operand :: rest => operand.holdsAt place && allHoldAt place rest

/-- Whether one of some expressions is true. -/
def someHoldsAt (place : Expression → α) : List Expression → Bool
  | [] => false
  | operand :: rest => operand.holdsAt place || someHoldsAt place rest

end

/-- Without errors, a conjunction is one of truth values. -/
theorem foldr_both {Operand : Type} (test : Operand → Bool) (operands : List Operand) :
    (operands.map fun operand => some (test operand)).foldr both (some true) =
      some (operands.all test) := by
  induction operands with
  | nil => rfl
  | cons operand rest inductionHypothesis =>
    rw [List.map_cons, List.foldr_cons, inductionHypothesis, List.all_cons]
    cases test operand <;> cases rest.all test <;> rfl

/-- Without errors, a disjunction is one of truth values. -/
theorem foldr_either {Operand : Type} (test : Operand → Bool) (operands : List Operand) :
    (operands.map fun operand => some (test operand)).foldr either (some false) =
      some (operands.any test) := by
  induction operands with
  | nil => rfl
  | cons operand rest inductionHypothesis =>
    rw [List.map_cons, List.foldr_cons, inductionHypothesis, List.any_cons]
    cases test operand <;> cases rest.any test <;> rfl

namespace Expression

variable (place : Expression → α)

theorem holdsAt_ofBool (value : Bool) :
    (Expression.literal (.ofBool value)).holdsAt place = value := by
  cases value <;> simp [holdsAt, Literal.ofBool]

theorem holdsAt_and (operands : List Expression) :
    (Expression.and operands).holdsAt place = operands.all (holdsAt place) := by
  rw [holdsAt]
  induction operands with
  | nil => rfl
  | cons operand rest inductionHypothesis => rw [allHoldAt, inductionHypothesis, List.all_cons]

theorem holdsAt_or (operands : List Expression) :
    (Expression.or operands).holdsAt place = operands.any (holdsAt place) := by
  rw [holdsAt]
  induction operands with
  | nil => rfl
  | cons operand rest inductionHypothesis => rw [someHoldsAt, inductionHypothesis, List.any_cons]

/-- Whether an expression has in a query the truth value that the places tell. -/
def Agrees (engine : Engine) (graph : Rdf.Graph) (rows : List Solution) (view : Solution)
    (expression : Expression) : Prop :=
  expression.value engine graph rows view = some (.ofBool (expression.holdsAt place))

variable {engine : Engine} {graph : Rdf.Graph} {rows : List Solution} {view : Solution}
  {operands : List Expression}

theorem Agrees.value_eq {expression : Expression}
    (agrees : expression.Agrees place engine graph rows view) (truth : Bool) :
    expression.value engine graph rows view = some (.ofBool truth) ↔
      expression.holdsAt place = truth := by
  rw [Agrees] at agrees
  rw [agrees, Option.some_inj]
  cases expression.holdsAt place <;> cases truth <;> simp [Rdf.Term.ofBool, Literal.ofBool]

theorem truth_of_agrees
    (agree : ∀ operand ∈ operands, operand.Agrees place engine graph rows view) :
    (listValues engine graph rows view operands).map engine.truth? =
      operands.map fun operand => some (operand.holdsAt place) := by
  induction operands with
  | nil => rfl
  | cons operand rest inductionHypothesis =>
    rw [List.forall_mem_cons] at agree
    rw [listValues, List.map_cons, List.map_cons, inductionHypothesis agree.2, agree.1,
      Engine.truth?, Option.bind_some, engine.truth_ofBool]

theorem Agrees.and (agree : ∀ operand ∈ operands, operand.Agrees place engine graph rows view) :
    (Expression.and operands).Agrees place engine graph rows view := by
  rw [Agrees, value, truth_of_agrees place agree, foldr_both, holdsAt_and, Option.map_some]

theorem Agrees.or (agree : ∀ operand ∈ operands, operand.Agrees place engine graph rows view) :
    (Expression.or operands).Agrees place engine graph rows view := by
  rw [Agrees, value, truth_of_agrees place agree, foldr_either, holdsAt_or, Option.map_some]

end Expression

end

end Sparql

namespace Filter

open Sparql (Comparison Engine Solution)

variable {α : Type*} [LinearOrder α] (place : Sparql.Expression → α)

/-! ### Places of ends -/

/-- The place of an end of a period. -/
def Endpoint.moment : Endpoint → WithBot (WithTop α)
  | .beforeAll => ⊥
  | .value bound => ((place bound : WithTop α) : WithBot (WithTop α))
  | .afterAll => ⊤

namespace Period

/-- The place of the start of a period. -/
def startMoment (period : Period) : WithBot (WithTop α) :=
  period.startPoint.moment place

/-- The place of the end of a period. -/
def finishMoment (period : Period) : WithBot (WithTop α) :=
  period.finishPoint.moment place

/-- The values that bound a period. -/
def bounds (period : Period) : List Sparql.Expression :=
  period.start.toList ++ period.finish.toList

/-- Whether a query compares the bounds of two periods by their places. -/
def ComparedBy (engine : Engine) (graph : Rdf.Graph) (rows : List Solution) (view : Solution)
    (left right : Period) : Prop :=
  ∀ first ∈ left.bounds, ∀ second ∈ right.bounds, ∀ comparison,
    (Sparql.Expression.compare first comparison second).Agrees place engine graph rows view

theorem all_bounds (period : Period) : period.All (· ∈ period.bounds) where
  start _ member := List.mem_append_left _ (Option.mem_toList.2 member)
  finish _ member := List.mem_append_right _ (Option.mem_toList.2 member)

end Period

/-! ### Conditions -/

namespace Condition

/-- Whether a condition holds when bounds have places in an order. -/
def holdsAt (condition : Condition) : Bool :=
  condition.expression.holdsAt place

/-- Comparing with an unbounded end is comparing with a place before or after all others. -/
theorem holdsAt_compare (left : Endpoint) (comparison : Comparison) (right : Endpoint) :
    (compare left comparison right).holdsAt place =
      comparison.holds (left.moment place) (right.moment place) := by
  have beforeLast (value : α) : ((value : WithTop α) : WithBot (WithTop α)) < ⊤ :=
    WithBot.coe_lt_coe.2 (WithTop.coe_lt_top value)
  cases left <;> cases right <;> cases comparison <;>
    simp [holdsAt, compare, expression, Sparql.Expression.holdsAt, Comparison.holds,
      Endpoint.moment, decide, Condition.place, Literal.ofBool, beforeLast]

theorem all_holdsAt (conditions : List Condition) :
    conditions.all (holdsAt place) =
      (!anyDecided false conditions &&
        (pending conditions).all (Sparql.Expression.holdsAt place)) := by
  induction conditions with
  | nil => rfl
  | cons condition rest inductionHypothesis =>
    rw [List.all_cons, inductionHypothesis]
    cases condition with
    | decided value => cases value <;> rfl
    | undecided expression => exact Bool.and_left_comm _ _ _

theorem any_holdsAt (conditions : List Condition) :
    conditions.any (holdsAt place) =
      (anyDecided true conditions ||
        (pending conditions).any (Sparql.Expression.holdsAt place)) := by
  induction conditions with
  | nil => rfl
  | cons condition rest inductionHypothesis =>
    rw [List.any_cons, inductionHypothesis]
    cases condition with
    | decided value => cases value <;> rfl
    | undecided expression => exact Bool.or_left_comm _ _ _

theorem holdsAt_decided (value : Bool) : (decided value).holdsAt place = value :=
  Sparql.Expression.holdsAt_ofBool place value

/-- What is decided already can be left out of a conjunction. -/
theorem holdsAt_all (conditions : List Condition) :
    (all conditions).holdsAt place = conditions.all (holdsAt place) := by
  rw [all_holdsAt, all]
  cases anyDecided false conditions with
  | true => exact holdsAt_decided place false
  | false =>
    rw [if_neg Bool.false_ne_true, Bool.not_false, Bool.true_and]
    split
    · rename_i none
      rw [none]
      exact holdsAt_decided place true
    · rename_i only
      rw [only, List.all_cons, List.all_nil, Bool.and_true]
      rfl
    · exact Sparql.Expression.holdsAt_and place _

/-- What is decided already can be left out of a disjunction. -/
theorem holdsAt_any (conditions : List Condition) :
    (any conditions).holdsAt place = conditions.any (holdsAt place) := by
  rw [any_holdsAt, any]
  cases anyDecided true conditions with
  | true => exact holdsAt_decided place true
  | false =>
    rw [if_neg Bool.false_ne_true, Bool.false_or]
    split
    · rename_i none
      rw [none]
      exact holdsAt_decided place false
    · rename_i only
      rw [only, List.any_cons, List.any_nil, Bool.or_false]
      rfl
    · exact Sparql.Expression.holdsAt_or place _

end Condition

/-! ### Relations -/

namespace TemporalRelation

/-- When a relation holds of two periods whose ends have the given places. -/
def Means {β : Type*} [LinearOrder β] (start finish otherStart otherFinish : β) :
    TemporalRelation → Prop
  | .after => otherFinish < start
  | .before => finish < otherStart
  | .contains => start < otherStart ∧ otherFinish < finish
  | .disjoint => finish < otherStart ∨ otherFinish < start
  | .during => otherStart < start ∧ finish < otherFinish
  | .equals => start = otherStart ∧ finish = otherFinish
  | .finishedBy => start < otherStart ∧ finish = otherFinish
  | .finishes => otherStart < start ∧ finish = otherFinish
  | .intersects => start ≤ otherFinish ∧ otherStart ≤ finish
  | .meets => finish = otherStart
  | .metBy => start = otherFinish
  | .overlappedBy => otherStart < start ∧ start < otherFinish ∧ otherFinish < finish
  | .overlaps => start < otherStart ∧ otherStart < finish ∧ finish < otherFinish
  | .startedBy => start = otherStart ∧ otherFinish < finish
  | .starts => start = otherStart ∧ finish < otherFinish

/-- The filter of a relation is true exactly if the relation holds of the places. -/
theorem holdsAt_filter (relation : TemporalRelation) (left right : Period) :
    (relation.filter left right).holdsAt place = true ↔
      relation.Means (left.startMoment place) (left.finishMoment place)
        (right.startMoment place) (right.finishMoment place) := by
  show (relation.condition left right).holdsAt place = true ↔ _
  cases relation <;>
    simp [condition, Condition.holdsAt_all, Condition.holdsAt_any, Condition.holdsAt_compare,
      Comparison.holds, Means, Period.startMoment, Period.finishMoment]

/-- In a query that compares the bounds by their places, a filter has the value that the places
tell. -/
theorem agrees_filter {engine : Engine} {graph : Rdf.Graph} {rows : List Solution}
    {view : Solution} (relation : TemporalRelation) {left right : Period}
    (compared : left.ComparedBy place engine graph rows view right) :
    (relation.filter left right).Agrees place engine graph rows view := by
  refine relation.holds_filter ⟨fun value => ?_, fun {first comparison second} among other => ?_,
    fun _ agree => ?_, fun _ agree => ?_⟩ left.all_bounds right.all_bounds
  · rw [Sparql.Expression.Agrees, Sparql.Expression.holdsAt_ofBool]
    rfl
  · exact compared first among second other comparison
  · exact .and place agree
  · exact .or place agree

/-! ### Exactly one relation -/

/-- The relations of Allen's algebra. -/
def basic : List TemporalRelation :=
  [.after, .before, .meets, .metBy, .overlaps, .overlappedBy, .starts, .startedBy, .during,
   .contains, .finishes, .finishedBy, .equals]

/-- How the ends of two periods compare that are in a basic relation: start with start, end with
end, end with start, and start with end. -/
def comparisons : TemporalRelation → Option (Ordering × Ordering × Ordering × Ordering)
  | .before => some (.lt, .lt, .lt, .lt)
  | .meets => some (.lt, .lt, .eq, .lt)
  | .overlaps => some (.lt, .lt, .gt, .lt)
  | .finishedBy => some (.lt, .eq, .gt, .lt)
  | .contains => some (.lt, .gt, .gt, .lt)
  | .starts => some (.eq, .lt, .gt, .lt)
  | .equals => some (.eq, .eq, .gt, .lt)
  | .startedBy => some (.eq, .gt, .gt, .lt)
  | .during => some (.gt, .lt, .gt, .lt)
  | .finishes => some (.gt, .eq, .gt, .lt)
  | .overlappedBy => some (.gt, .gt, .gt, .lt)
  | .metBy => some (.gt, .gt, .gt, .eq)
  | .after => some (.gt, .gt, .gt, .gt)
  | _ => none

theorem eq_of_comparisons : ∀ first ∈ basic, ∀ second ∈ basic,
    first.comparisons = second.comparisons → first = second := by
  decide

section

variable {β : Type*} [LinearOrder β] {start finish otherStart otherFinish : β}

theorem exists_basic : ∃ relation ∈ basic, relation.Means start finish otherStart otherFinish := by
  rcases lt_trichotomy start otherStart with starts | starts | starts
  · rcases lt_trichotomy finish otherFinish with finishes | finishes | finishes
    · rcases lt_trichotomy finish otherStart with meets | meets | meets
      · exact ⟨.before, by decide, meets⟩
      · exact ⟨.meets, by decide, meets⟩
      · exact ⟨.overlaps, by decide, starts, meets, finishes⟩
    · exact ⟨.finishedBy, by decide, starts, finishes⟩
    · exact ⟨.contains, by decide, starts, finishes⟩
  · rcases lt_trichotomy finish otherFinish with finishes | finishes | finishes
    · exact ⟨.starts, by decide, starts, finishes⟩
    · exact ⟨.equals, by decide, starts, finishes⟩
    · exact ⟨.startedBy, by decide, starts, finishes⟩
  · rcases lt_trichotomy finish otherFinish with finishes | finishes | finishes
    · exact ⟨.during, by decide, starts, finishes⟩
    · exact ⟨.finishes, by decide, starts, finishes⟩
    · rcases lt_trichotomy start otherFinish with meets | meets | meets
      · exact ⟨.overlappedBy, by decide, starts, meets, finishes⟩
      · exact ⟨.metBy, by decide, meets⟩
      · exact ⟨.after, by decide, meets⟩

/-- A basic relation between periods that end after they start tells how all their ends compare. -/
theorem comparisons_of_means (proper : start < finish) (otherProper : otherStart < otherFinish)
    {relation : TemporalRelation} (among : relation ∈ basic)
    (means : relation.Means start finish otherStart otherFinish) :
    relation.comparisons = some (cmp start otherStart, cmp finish otherFinish,
      cmp finish otherStart, cmp start otherFinish) := by
  have ordered (first second : β) : (cmp first second = .lt ↔ first < second) ∧
      (cmp first second = .eq ↔ first = second) ∧ (cmp first second = .gt ↔ second < first) :=
    ⟨cmp_eq_lt_iff .., cmp_eq_eq_iff .., cmp_eq_gt_iff ..⟩
  -- From here on the four orders count, not how they are computed.
  have starts := ordered start otherStart
  have finishes := ordered finish otherFinish
  have meets := ordered finish otherStart
  have met := ordered start otherFinish
  generalize cmp start otherStart = startsOrder at starts ⊢
  generalize cmp finish otherFinish = finishesOrder at finishes ⊢
  generalize cmp finish otherStart = meetsOrder at meets ⊢
  generalize cmp start otherFinish = metOrder at met ⊢
  clear ordered
  cases relation with
  | disjoint => exact absurd among (by decide)
  | intersects => exact absurd among (by decide)
  | _ => grind [Means, comparisons]

/-- Of two periods that end after they start exactly one basic relation holds. -/
theorem existsUnique_means (proper : start < finish) (otherProper : otherStart < otherFinish) :
    ∃! relation, relation ∈ basic ∧ relation.Means start finish otherStart otherFinish := by
  obtain ⟨relation, among, means⟩ := @exists_basic _ _ start finish otherStart otherFinish
  refine ⟨relation, ⟨among, means⟩, fun other ⟨otherAmong, otherMeans⟩ => ?_⟩
  refine eq_of_comparisons other otherAmong relation among ?_
  rw [comparisons_of_means proper otherProper otherAmong otherMeans,
    comparisons_of_means proper otherProper among means]

end

/-- Whatever places the bounds of two periods have, of which each starts before it ends, the filter
of exactly one basic relation is true, and so it is in every query that compares the bounds by their
places. -/
theorem existsUnique_holdsAt {left right : Period}
    (leftProper : left.startMoment place < left.finishMoment place)
    (rightProper : right.startMoment place < right.finishMoment place) :
    (∃! relation, relation ∈ basic ∧ (relation.filter left right).holdsAt place = true) ∧
    ∀ {engine : Engine} {graph : Rdf.Graph} {rows : List Solution} {view : Solution},
      left.ComparedBy place engine graph rows view right →
        ∃! relation, relation ∈ basic ∧
          (relation.filter left right).value engine graph rows view = some (.ofBool true) := by
  have unique := existsUnique_means leftProper rightProper
  simp only [← holdsAt_filter] at unique
  refine ⟨unique, fun compared => ?_⟩
  simpa only [(agrees_filter place _ compared).value_eq] using unique

/-- The texts of literals, as places in time. Days of years of four digits follow each other as
their texts do. -/
def textPlace : Sparql.Expression → String
  | .literal value => value.text
  | _ => ""

/-- The engine that knows how the texts of terms compare, and nothing else. -/
def textEngine : Engine where
  __ := Engine.plain
  compare first comparison second := some (comparison.holds first.text second.text)
  compare_iri first second := by
    have same : first.text = second.text ↔ first = second :=
      ⟨fun texts => congrArg Iri.mk texts, congrArg Iri.text⟩
    simp [Comparison.holds, Rdf.Term.text, Iri.bracketed, same]

/-- A day. -/
def day (text : String) : Sparql.Expression :=
  .literal (.typed text Vocabulary.xsdDate)

/-- The time since a day. -/
def since (start : String) : Period :=
  ⟨some (day start), none⟩

/-- The time from one day to another. -/
def span (start finish : String) : Period :=
  ⟨some (day start), some (day finish)⟩

theorem agrees_day (first : String) (comparison : Comparison) (second : String) :
    (Sparql.Expression.compare (day first) comparison (day second)).Agrees textPlace textEngine
      .empty [] .empty := rfl

theorem comparedBy_since (first start finish : String) :
    (since first).ComparedBy textPlace textEngine .empty [] .empty (span start finish) :=
  List.forall_mem_singleton.2 (List.forall_mem_cons.2 ⟨fun _ => agrees_day ..,
    List.forall_mem_singleton.2 fun _ => agrees_day ..⟩)

/-- How all the time since a day is related to a later year. -/
theorem existsUnique_holdsAt_year :
    (since "2020-01-01").startMoment textPlace < (since "2020-01-01").finishMoment textPlace ∧
    (span "2021-01-01" "2022-01-01").startMoment textPlace <
      (span "2021-01-01" "2022-01-01").finishMoment textPlace ∧
    (since "2020-01-01").ComparedBy textPlace textEngine .empty [] .empty
      (span "2021-01-01" "2022-01-01") ∧
    (∃! relation, relation ∈ basic ∧
      (relation.filter (since "2020-01-01") (span "2021-01-01" "2022-01-01")).holdsAt textPlace =
        true) ∧
    ∃! relation, relation ∈ basic ∧
      (relation.filter (since "2020-01-01") (span "2021-01-01" "2022-01-01")).value textEngine
        .empty [] .empty = some (.ofBool true) := by
  have proper : (since "2020-01-01").startMoment textPlace <
      (since "2020-01-01").finishMoment textPlace :=
    WithBot.coe_lt_coe.2 (WithTop.coe_lt_top _)
  have otherProper : (span "2021-01-01" "2022-01-01").startMoment textPlace <
      (span "2021-01-01" "2022-01-01").finishMoment textPlace :=
    WithBot.coe_lt_coe.2 (WithTop.coe_lt_coe.2 (by decide))
  have exactlyOne := existsUnique_holdsAt textPlace proper otherProper
  exact ⟨proper, otherProper, comparedBy_since _ _ _, exactlyOne.1,
    exactlyOne.2 (comparedBy_since _ _ _)⟩

/-! ### Relations the other way round -/

/-- The relation that holds of two periods the other way round. -/
def converse : TemporalRelation → TemporalRelation
  | .after => .before
  | .before => .after
  | .contains => .during
  | .disjoint => .disjoint
  | .during => .contains
  | .equals => .equals
  | .finishedBy => .finishes
  | .finishes => .finishedBy
  | .intersects => .intersects
  | .meets => .metBy
  | .metBy => .meets
  | .overlappedBy => .overlaps
  | .overlaps => .overlappedBy
  | .startedBy => .starts
  | .starts => .startedBy

section

variable {β : Type*} [LinearOrder β] {start finish otherStart otherFinish : β}

theorem means_converse (relation : TemporalRelation) :
    relation.converse.Means otherStart otherFinish start finish ↔
      relation.Means start finish otherStart otherFinish := by
  cases relation <;> grind [Means, converse]

theorem means_disjoint :
    disjoint.Means start finish otherStart otherFinish ↔
      ¬ intersects.Means start finish otherStart otherFinish := by
  simp only [Means, not_and_or, not_le]
  exact or_comm

end

/-- Whatever the two periods are and whatever places their bounds have, the filter of the converse
relation the other way round has the same truth value, and the filters of being disjoint and of
intersecting have different ones; and so it is in every query that compares the bounds by their
places. -/
theorem holdsAt_converse (left right : Period) :
    (∀ relation : TemporalRelation, (relation.converse.filter right left).holdsAt place =
        (relation.filter left right).holdsAt place) ∧
      (disjoint.filter left right).holdsAt place = !(intersects.filter left right).holdsAt place ∧
    ∀ {engine : Engine} {graph : Rdf.Graph} {rows : List Solution} {view : Solution},
      left.ComparedBy place engine graph rows view right →
      right.ComparedBy place engine graph rows view left →
        (∀ relation : TemporalRelation,
          (relation.converse.filter right left).value engine graph rows view =
            (relation.filter left right).value engine graph rows view) ∧
        ∀ truth, (disjoint.filter left right).value engine graph rows view = some (.ofBool truth) ↔
          (intersects.filter left right).value engine graph rows view = some (.ofBool !truth) := by
  have converses (relation : TemporalRelation) :
      (relation.converse.filter right left).holdsAt place =
        (relation.filter left right).holdsAt place := by
    rw [Bool.eq_iff_iff, holdsAt_filter, holdsAt_filter, means_converse]
  have complements : (disjoint.filter left right).holdsAt place =
      !(intersects.filter left right).holdsAt place := by
    rw [Bool.eq_iff_iff, Bool.not_eq_true', Bool.eq_false_iff, ne_eq, holdsAt_filter,
      holdsAt_filter, means_disjoint]
  refine ⟨converses, complements, fun compared other => ⟨fun relation => ?_, fun truth => ?_⟩⟩
  · rw [agrees_filter place relation compared, agrees_filter place relation.converse other,
      converses]
  · rw [(agrees_filter place _ compared).value_eq, (agrees_filter place _ compared).value_eq,
      complements, Bool.not_eq_eq_eq_not]

/-- A year and all the time since a day, either way round. -/
theorem holdsAt_converse_year :
    (span "2021-01-01" "2022-01-01").ComparedBy textPlace textEngine .empty [] .empty
      (since "2020-01-01") ∧
    (since "2020-01-01").ComparedBy textPlace textEngine .empty [] .empty
      (span "2021-01-01" "2022-01-01") ∧
    (during.filter (span "2021-01-01" "2022-01-01") (since "2020-01-01")).value textEngine .empty []
      .empty = (contains.filter (since "2020-01-01") (span "2021-01-01" "2022-01-01")).value
        textEngine .empty [] .empty := by
  have compared : (span "2021-01-01" "2022-01-01").ComparedBy textPlace textEngine .empty [] .empty
      (since "2020-01-01") :=
    List.forall_mem_cons.2 ⟨List.forall_mem_singleton.2 fun _ => agrees_day ..,
      List.forall_mem_singleton.2 (List.forall_mem_singleton.2 fun _ => agrees_day ..)⟩
  exact ⟨compared, comparedBy_since _ _ _, ((holdsAt_converse textPlace (since "2020-01-01")
    (span "2021-01-01" "2022-01-01")).2.2 (comparedBy_since _ _ _) compared).1 .contains⟩

end TemporalRelation

end Filter

end ShapeQuery
