/-
This file tells what it means to join a group to another one. Most elements have solutions of their
own, which are joined to the current one; groups of such elements have solutions of their own, too.
The solutions of a group before them are joined with these, and its filters need not wait for them.
-/
import ShapeQuery.Proofs.Sparql.Binding
import ShapeQuery.Proofs.Sparql.Selecting

namespace ShapeQuery.Sparql

open Solution (merge_of_none merge_of_some)

namespace Solution

/-! ### Joins of joins -/

/-- Solutions can be merged in any order if they can be merged in one. -/
theorem compatible_merge_iff {first second third : Solution} :
    first.Compatible second ∧ (first.merge second).Compatible third ↔
      second.Compatible third ∧ first.Compatible (second.merge third) := by
  constructor
  · rintro ⟨earlier, later⟩
    have second_third : second.Compatible third := fun unknown left right known =>
      later unknown left right (extends_merge_right earlier unknown left known)
    refine ⟨second_third, fun unknown left right known joint => ?_⟩
    rcases Option.or_eq_some_iff.1 joint with inSecond | ⟨-, inThird⟩
    · exact earlier unknown left right known inSecond
    · exact later unknown left right (merge_of_some known second) inThird
  · rintro ⟨later, earlier⟩
    have first_second : first.Compatible second := fun unknown left right known other =>
      earlier unknown left right known (merge_of_some other third)
    refine ⟨first_second, fun unknown left right joint known => ?_⟩
    rcases Option.or_eq_some_iff.1 joint with inFirst | ⟨-, inSecond⟩
    · exact earlier unknown left right inFirst (extends_merge_right later unknown right known)
    · exact later unknown left right inSecond known

/-- Solutions that give values to one common unknown alone fit if these are the same. -/
theorem compatible_iff_same {current candidate : Solution} {unknown : Unknown}
    {first second : Rdf.Term} (known : current unknown = some first)
    (given : candidate unknown = some second)
    (alone : ∀ other ≠ unknown, current other = none ∨ candidate other = none) :
    current.Compatible candidate ↔ first = second := by
  constructor
  · exact fun compatible => compatible unknown first second known given
  · rintro rfl other left right leftKnown rightKnown
    by_cases same : other = unknown
    · rw [same, known] at leftKnown
      rw [same, given] at rightKnown
      exact Option.some.inj (leftKnown.symm.trans rightKnown)
    · rcases alone other same with free | free
      · rw [free] at leftKnown
        cases leftKnown
      · rw [free] at rightKnown
        cases rightKnown

theorem joined_cons (current candidate : Solution) (rest : List Solution) :
    joined .empty current (candidate :: rest) =
      (if current.Compatible candidate then [current.merge candidate] else []) ++
        joined .empty current rest := by
  by_cases fits : current.Compatible candidate <;> simp [joined, fits]

theorem joined_append (context current : Solution) (first second : List Solution) :
    joined context current (first ++ second) =
      joined context current first ++ joined context current second := by
  rw [joined, List.filter_append, List.map_append]
  rfl

theorem joined_flatMap {α : Type} (context current : Solution) (items : List α)
    (each : α → List Solution) :
    joined context current (items.flatMap each) =
      items.flatMap fun item => joined context current (each item) := by
  rw [joined, List.filter_flatMap, List.map_flatMap]
  rfl

/-- Joining the solution without values changes nothing. -/
theorem joined_empty (current : Solution) : joined .empty current [.empty] = [current] := by
  have fits : current.Compatible .empty := fun _ _ _ _ other => nomatch other
  simp [joined, fits]

/-- Joining one after the other is joining what was joined before. -/
theorem joined_joined (current : Solution) (first second : List Solution) :
    ((joined .empty current first).flatMap fun solution => joined .empty solution second) =
      joined .empty current (first.flatMap fun solution => joined .empty solution second) := by
  -- For one candidate, its solutions can be joined in any order.
  have one (candidate : Solution) :
      (if current.Compatible candidate then joined .empty (current.merge candidate) second
        else []) = joined .empty current (joined .empty candidate second) := by
    induction second with
    | nil => simp [joined]
    | cons last rest inductionHypothesis =>
      have order : current.Compatible candidate ∧ (current.merge candidate).Compatible last ↔
          candidate.Compatible last ∧ current.Compatible (candidate.merge last) :=
        compatible_merge_iff
      rw [joined_cons, joined_cons, joined_append, ← inductionHypothesis]
      by_cases fits : current.Compatible candidate
      · rw [if_pos fits, if_pos fits]
        congr 1
        by_cases later : candidate.Compatible last
        · by_cases all : current.Compatible (candidate.merge last)
          · rw [if_pos (order.2 ⟨later, all⟩).2, if_pos later, merge_assoc]
            simp [joined, all]
          · rw [if_neg fun both => all (order.1 ⟨fits, both⟩).2, if_pos later]
            simp [joined, all]
        · rw [if_neg fun both => later (order.1 ⟨fits, both⟩).1, if_neg later]
          rfl
      · rw [if_neg fits, if_neg fits]
        by_cases later : candidate.Compatible last
        · rw [if_pos later]
          have apart : ¬ current.Compatible (candidate.merge last) := fun all =>
            fits (order.2 ⟨later, all⟩).1
          simp [joined, apart]
        · rw [if_neg later]
          rfl
  induction first with
  | nil => rfl
  | cons candidate rest inductionHypothesis =>
    rw [joined_cons, List.flatMap_append, List.flatMap_cons, joined_append, inductionHypothesis,
      ← one]
    by_cases fits : current.Compatible candidate <;> simp [fits]

end Solution

/-! ### Elements that join -/

/-- Whether the solutions of an element do not depend on the current one. -/
def Element.Joins : Element → Prop
  | .optional _ => False
  | .bind _ _ => False
  | _ => True

variable (engine : Engine) (graph : Rdf.Graph)

theorem Element.extend_joins {element : Element} (joins : element.Joins) (current : Solution) :
    element.extend engine graph .empty current =
      Solution.joined .empty current (element.extend engine graph .empty .empty) := by
  cases element with
  | optional => exact joins.elim
  | bind => exact joins.elim
  | filter => rw [extend, extend, Solution.joined_empty]
  | _ => rw [extend, extend, Solution.joined_empty_empty]

theorem extendAll_joins {group : Group} (joins : ∀ element ∈ group, element.Joins)
    (current : Solution) :
    extendAll engine graph .empty current group =
      Solution.joined .empty current (group.candidates engine graph) := by
  induction group generalizing current with
  | nil => rw [Group.candidates, extendAll, extendAll, Solution.joined_empty]
  | cons element rest inductionHypothesis =>
    rw [List.forall_mem_cons] at joins
    have rests := inductionHypothesis joins.2
    rw [Group.candidates, extendAll, extendAll, element.extend_joins engine graph joins.1]
    simp only [rests]
    exact Solution.joined_joined current _ _

theorem Group.solutions_eq_candidates (group : Group)
    (unfiltered : ∀ view, passes engine graph view group = true) :
    group.solutions engine graph = group.candidates engine graph :=
  List.filter_eq_self.2 fun _ _ => unfiltered _

theorem flatMap_filter {α β : Type} (test : α → Bool) (each : α → List β) (items : List α) :
    (items.filter test).flatMap each =
      items.flatMap fun item => if test item then each item else [] := by
  induction items with
  | nil => rfl
  | cons item rest inductionHypothesis =>
    cases holds : test item <;> simp [holds, inductionHypothesis]

/-- Where a group leaves nothing open that a further one gives values to, its solutions are joined
with those of the further group. -/
theorem Group.solutions_append_joins {first second : Group}
    (joins : ∀ element ∈ second, element.Joins)
    (unfiltered : ∀ view, passes engine graph view second = true)
    (closed : ∀ solution ∈ first.candidates engine graph,
      ∀ candidate ∈ second.solutions engine graph, ∀ unknown ∈ first.unknowns,
        solution unknown = none → candidate unknown = none) :
    Group.solutions engine graph (first ++ second) =
      (first.solutions engine graph).flatMap fun solution =>
        Solution.joined .empty solution (second.solutions engine graph) := by
  have further := second.solutions_eq_candidates engine graph unfiltered
  -- The filters of the first group see what they saw before.
  have kept (solution : Solution) (member : solution ∈ first.candidates engine graph)
      (candidate : Solution) (found : candidate ∈ second.solutions engine graph) :
      passes engine graph (solution.merge candidate) first = passes engine graph solution first := by
    refine passes_congr engine graph first fun unknown among => ?_
    cases known : solution unknown with
    | some value => exact merge_of_some known candidate
    | none => rw [merge_of_none known, closed solution member candidate found unknown among known]
  have joint (solution : Solution) (member : solution ∈ first.candidates engine graph) :
      ((extendAll engine graph .empty solution second).filter fun row =>
          passes engine graph (row.merge .empty) (first ++ second)) =
        if passes engine graph (solution.merge .empty) first then
          Solution.joined .empty solution (second.solutions engine graph) else [] := by
    have same : ∀ row ∈ Solution.joined .empty solution (second.solutions engine graph),
        passes engine graph (row.merge .empty) (first ++ second) =
          passes engine graph (solution.merge .empty) first := by
      intro row among
      obtain ⟨candidate, found, -, rfl⟩ := Solution.mem_joined.1 among
      rw [passes_append, unfiltered, Bool.and_true, Solution.merge_empty, Solution.merge_empty,
        kept solution member candidate found]
    rw [extendAll_joins engine graph joins, ← further, List.filter_congr same]
    cases passes engine graph (solution.merge .empty) first <;> simp
  have firsts : first.solutions engine graph = (first.candidates engine graph).filter fun solution =>
      passes engine graph (solution.merge .empty) first := rfl
  rw [Group.solutions, accepted, extendAll_append, List.filter_flatMap, firsts, flatMap_filter]
  exact List.flatMap_congr joint

end ShapeQuery.Sparql
