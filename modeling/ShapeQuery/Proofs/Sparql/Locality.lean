/-
This file proves that an evaluation is about the unknowns of its pattern alone: solutions give
values to nothing else, and what is known about other unknowns neither hinders nor helps. Groups
without common unknowns are therefore solved one by one.
-/
import ShapeQuery.Proofs.Sparql.Evaluation

namespace ShapeQuery.Sparql

open Solution (Within Outside Agree joined)

variable (engine : Engine) (graph : Rdf.Graph)

/-! ### Unknowns of parts -/

/-- The unknowns of an element. -/
def Element.unknowns (element : Element) : List Unknown :=
  Atom.unknowns element.atoms

/-- The unknowns of an expression. -/
def Expression.unknowns (expression : Expression) : List Unknown :=
  Atom.unknowns expression.atoms

theorem Group.unknowns_cons (element : Element) (rest : Group) :
    Group.unknowns (element :: rest) = element.unknowns ++ Group.unknowns rest := by
  rw [Group.unknowns, groupAtoms, Atom.unknowns_append]
  rfl

theorem Group.unknowns_append (first second : Group) :
    Group.unknowns (first ++ second) = first.unknowns ++ second.unknowns := by
  rw [Group.unknowns, groupAtoms_append, Atom.unknowns_append]
  rfl

theorem Term.mem_unknowns_of_unknown? {term : Term} {unknown : Unknown} {atoms : List Atom}
    (named : term.unknown? = some unknown) (member : .term term ∈ atoms) :
    unknown ∈ Atom.unknowns atoms :=
  List.mem_filterMap.2 ⟨.term term, member, named⟩

theorem mem_unknowns_of_target {name : Variable} {atoms : List Atom}
    (member : .target name ∈ atoms) : .var name ∈ Atom.unknowns atoms :=
  List.mem_filterMap.2 ⟨.target name, member, rfl⟩

/-! ### What solutions give values to -/

theorem Term.assign_within {term : Term} {solution extended : Solution} {value : Rdf.Term}
    {atoms : List Atom} (within : solution.Within (Atom.unknowns atoms))
    (member : .term term ∈ atoms) (assigned : term.assign solution value = some extended) :
    extended.Within (Atom.unknowns atoms) := by
  cases term with
  | var name => exact within.assign (mem_unknowns_of_unknown? rfl member) assigned
  | blank label => exact within.assign (mem_unknowns_of_unknown? rfl member) assigned
  | iri name =>
    rw [Term.assign, Option.ite_none_right_eq_some, Option.some_inj] at assigned
    exact assigned.2 ▸ within
  | literal written =>
    rw [Term.assign, Option.ite_none_right_eq_some, Option.some_inj] at assigned
    exact assigned.2 ▸ within

theorem TriplePattern.solutions_within (context : Solution) (triple : TriplePattern) :
    ∀ solution ∈ triple.solutions graph context,
      solution.Within (Atom.unknowns triple.atoms) := by
  intro solution member
  have subjectMember : .term triple.subject ∈ triple.atoms := List.mem_cons_self
  have objectMember : .term triple.object ∈ triple.atoms :=
    List.mem_cons_of_mem _ (List.mem_append_right _ List.mem_cons_self)
  unfold TriplePattern.solutions at member
  split at member
  · rename_i name verb
    have verbMember : .term (.var name) ∈ triple.atoms := by
      simp [TriplePattern.atoms, verb, Verb.term?]
    obtain ⟨found, -, chosen⟩ := List.mem_filterMap.1 member
    simp only [Option.bind_eq_bind, Option.bind_eq_some_iff] at chosen
    obtain ⟨first, subjectAssigned, second, verbAssigned, objectAssigned⟩ := chosen
    have firstWithin := Term.assign_within (Solution.within_empty _) subjectMember subjectAssigned
    have secondWithin :=
      firstWithin.assign (Term.mem_unknowns_of_unknown? rfl verbMember) verbAssigned
    exact Term.assign_within secondWithin objectMember objectAssigned
  · obtain ⟨pair, -, chosen⟩ := List.mem_filterMap.1 member
    simp only [Option.bind_eq_bind, Option.bind_eq_some_iff] at chosen
    obtain ⟨first, subjectAssigned, objectAssigned⟩ := chosen
    have firstWithin := Term.assign_within (Solution.within_empty _) subjectMember subjectAssigned
    exact Term.assign_within firstWithin objectMember objectAssigned

theorem assignRow_within {row : List (Variable × Option Term)} {columns : List Variable}
    {solution extended : Solution} (named : ∀ cell ∈ row, cell.1 ∈ columns)
    (within : solution.Within (columns.map .var))
    (assigned : assignRow solution row = some extended) :
    extended.Within (columns.map .var) := by
  induction row generalizing solution with
  | nil =>
    cases assigned
    exact within
  | cons entry rest inductionHypothesis =>
    obtain ⟨name, cell⟩ := entry
    have others : ∀ cell ∈ rest, cell.1 ∈ columns := fun cell member =>
      named cell (List.mem_cons_of_mem _ member)
    unfold assignRow at assigned
    split at assigned
    · exact inductionHypothesis others within assigned
    · simp only [Option.bind_eq_bind, Option.bind_eq_some_iff] at assigned
      obtain ⟨next, one, further⟩ := assigned
      exact inductionHypothesis others
        (within.assign (List.mem_map_of_mem (named _ List.mem_cons_self)) one) further

theorem Data.solutions_within (data : Data) :
    ∀ solution ∈ data.solutions, solution.Within (Atom.unknowns data.atoms) := by
  intro solution member
  obtain ⟨row, -, assigned⟩ := List.mem_filterMap.1 member
  have named : ∀ cell ∈ data.columns.zip row, cell.1 ∈ data.columns := fun cell found =>
    (List.of_mem_zip found).1
  refine (assignRow_within named (Solution.within_empty _) assigned).mono fun unknown found => ?_
  obtain ⟨name, column, rfl⟩ := List.mem_map.1 found
  exact mem_unknowns_of_target (List.mem_append_left _ (List.mem_map_of_mem column))

theorem target_mem_columnAtoms {columns : List Projection} {name : Variable}
    (member : name ∈ columns.map Projection.target) : .target name ∈ columnAtoms columns := by
  induction columns with
  | nil => cases member
  | cons column rest inductionHypothesis =>
    rw [columnAtoms, List.mem_append]
    rcases List.mem_cons.1 member with rfl | later
    · left
      cases column with
      | var name => exact List.mem_cons_self
      | expression value target => exact List.mem_append_right _ List.mem_cons_self
    · exact .inr (inductionHypothesis later)

/-- A group of a selection without columns stands for one of the solutions or for values to group
them by. -/
theorem groupedBy_within {names : List Variable} {rows : List Solution} {unknowns : List Unknown}
    (named : ∀ name ∈ names, .var name ∈ unknowns) :
    ∀ group ∈ groupedBy names rows, group.2.Within unknowns := by
  intro group member
  unfold groupedBy at member
  split at member
  · rw [List.mem_singleton.1 member]
    exact Solution.within_empty _
  · obtain ⟨key, found, rfl⟩ := List.mem_map.1 member
    obtain ⟨row, -, rfl⟩ := List.mem_map.1 (List.mem_dedup.1 found)
    refine (Within.restrict row names).mono fun unknown restricted => ?_
    obtain ⟨name, listed, rfl⟩ := List.mem_map.1 restricted
    exact named name listed

theorem mem_arranged {engine : Engine} {groups : List (List Solution × Solution)}
    {view : List Solution → Solution → Solution}
    {keys : List Solution → Solution → List (Bool × Option Rdf.Term)} {solution : Solution}
    (member : solution ∈ arranged engine groups view keys) :
    ∃ group ∈ groups, solution = view group.1 group.2 := by
  obtain ⟨entry, entryMember, rfl⟩ := List.mem_map.1 member
  obtain ⟨group, groupMember, rfl⟩ := List.mem_map.1 (List.mem_mergeSort.1 entryMember)
  exact ⟨group, groupMember, rfl⟩

theorem mem_of_mem_sliced {distinct : Bool} {limit offset : Option Nat}
    {solutions : List Solution} {solution : Solution}
    (member : solution ∈ sliced distinct limit offset solutions) : solution ∈ solutions := by
  have dropped : ∀ other ∈ (if distinct then solutions.dedup else solutions).drop
      (offset.getD 0), other ∈ solutions := by
    intro other found
    have found := List.mem_of_mem_drop found
    split at found
    · exact List.mem_dedup.1 found
    · exact found
  cases limit with
  | none => exact dropped solution member
  | some limit => exact dropped solution (List.mem_of_mem_take member)

mutual

/-- An element gives values to its own unknowns only. -/
theorem Element.extend_within (element : Element) (context current : Solution)
    {unknowns : List Unknown} (within : current.Within unknowns)
    (subset : element.unknowns ⊆ unknowns) :
    ∀ solution ∈ element.extend engine graph context current, solution.Within unknowns := by
  match element with
  | .triple triple =>
    exact Solution.joined_within within fun candidate member =>
      (TriplePattern.solutions_within graph context triple candidate member).mono subset
  | .optional pattern =>
    intro solution member
    rw [Element.extend] at member
    split at member
    · rwa [List.mem_singleton.1 member]
    · refine Solution.joined_within within (fun candidate found => ?_) solution
        (List.mem_of_mem_filter member)
      exact extendAll_within pattern context .empty (Solution.within_empty _) subset candidate found
  | .union branches =>
    exact Solution.joined_within within fun candidate member =>
      (branchSolutions_within branches context candidate member).mono subset
  | .group pattern =>
    refine Solution.joined_within within fun candidate member => ?_
    exact extendAll_within pattern context .empty (Solution.within_empty _) subset candidate
      (List.mem_of_mem_filter member)
  | .filter condition =>
    intro solution member
    rw [Element.extend] at member
    rwa [List.mem_singleton.1 member]
  | .values data =>
    exact Solution.joined_within within fun candidate member =>
      (Data.solutions_within data candidate member).mono subset
  | .bind expression target =>
    intro solution member
    rw [Element.extend] at member
    split at member
    · rwa [List.mem_singleton.1 member]
    · refine Solution.joined_within within (fun candidate found => ?_) solution member
      intro unknown absent
      have targetMember : .var target ∈ unknowns :=
        subset (mem_unknowns_of_target (List.mem_append_right _ List.mem_cons_self))
      have different : unknown ≠ .var target := fun equal => absent (equal ▸ targetMember)
      rw [List.mem_singleton.1 found, Function.update_of_ne different]
      rfl
  | .service name silent pattern =>
    exact Solution.joined_within within fun candidate member =>
      (engine.service_within name pattern candidate member).mono subset
  | .select query =>
    exact Solution.joined_within within fun candidate member =>
      (Select.solutions_within query candidate member).mono subset

/-- Elements give values to their own unknowns only. -/
theorem extendAll_within (group : Group) (context current : Solution) {unknowns : List Unknown}
    (within : current.Within unknowns) (subset : group.unknowns ⊆ unknowns) :
    ∀ solution ∈ extendAll engine graph context current group, solution.Within unknowns := by
  match group with
  | [] =>
    intro solution member
    rwa [List.mem_singleton.1 member]
  | element :: rest =>
    rw [Group.unknowns_cons, List.append_subset] at subset
    intro solution member
    obtain ⟨next, found, further⟩ := List.mem_flatMap.1 member
    have nextWithin := Element.extend_within element context current within subset.1 next found
    exact extendAll_within rest context next nextWithin subset.2 solution further

/-- Branches give values to their own unknowns only. -/
theorem branchSolutions_within (branches : List Group) (context : Solution) :
    ∀ solution ∈ branchSolutions engine graph context branches,
      solution.Within (Atom.unknowns (branchAtoms branches)) := by
  match branches with
  | [] => exact fun _ member => absurd member List.not_mem_nil
  | branch :: rest =>
    intro solution member
    rw [branchAtoms, Atom.unknowns_append]
    rcases List.mem_append.1 member with one | others
    · have within := extendAll_within branch context .empty (Solution.within_empty _)
        (List.Subset.refl _) solution (List.mem_of_mem_filter one)
      exact within.mono (List.subset_append_left _ _)
    · exact (branchSolutions_within rest context solution others).mono
        (List.subset_append_right _ _)

/-- Selections give values to their own unknowns only. -/
theorem Select.solutions_within (query : Select) :
    ∀ solution ∈ query.solutions engine graph,
      solution.Within (Atom.unknowns query.atoms) := by
  match query with
  | ⟨distinct, none, pattern, ⟨groupBy, orderBy, limit, offset⟩⟩ =>
    intro solution member
    obtain ⟨ordered, orderedMember, rfl⟩ := List.mem_map.1 (mem_of_mem_sliced member)
    obtain ⟨group, groupMember, rfl⟩ := mem_arranged orderedMember
    refine Within.named ?_
    split at groupMember
    · refine groupedBy_within (fun name listed => ?_) group groupMember
      exact mem_unknowns_of_target (List.mem_append_right _
        (List.mem_append_left _ (List.mem_map_of_mem listed)))
    · obtain ⟨row, rowMember, rfl⟩ := List.mem_map.1 groupMember
      refine extendAll_within pattern .empty .empty (Solution.within_empty _) ?_ row
        (List.mem_of_mem_filter rowMember)
      rw [Select.atoms, Atom.unknowns_append]
      exact List.subset_append_left _ _
  | ⟨distinct, some columns, pattern, modifier⟩ =>
    intro solution member
    obtain ⟨groupBy, orderBy, limit, offset⟩ := modifier
    obtain ⟨entry, -, rfl⟩ := List.mem_map.1 (mem_of_mem_sliced member)
    refine (Within.restrict _ _).mono fun unknown restricted => ?_
    obtain ⟨name, listed, rfl⟩ := List.mem_map.1 restricted
    exact mem_unknowns_of_target (List.mem_append_left _
      (List.mem_append_left _ (target_mem_columnAtoms listed)))

end

/-- The solutions of a group give values to its unknowns only. -/
theorem accepted_within (context : Solution) (group : Group) :
    ∀ solution ∈ accepted engine graph context group, solution.Within group.unknowns :=
  fun solution member => extendAll_within engine graph group context .empty
    (Solution.within_empty _) (List.Subset.refl _) solution (List.mem_of_mem_filter member)

/-! ### What solutions depend on -/

theorem agree_of_append {first second : List Atom} {view other : Solution}
    (agree : Agree (Atom.unknowns (first ++ second)) view other) :
    Agree (Atom.unknowns first) view other ∧ Agree (Atom.unknowns second) view other := by
  rw [Atom.unknowns_append] at agree
  exact ⟨agree.mono (List.subset_append_left _ _), agree.mono (List.subset_append_right _ _)⟩

theorem Term.value_congr {term : Term} {atoms : List Atom} {view other : Solution}
    (agree : Agree (Atom.unknowns atoms) view other) (member : .term term ∈ atoms) :
    term.value view = term.value other := by
  cases term with
  | var name => exact agree _ (mem_unknowns_of_unknown? rfl member)
  | blank label => exact agree _ (mem_unknowns_of_unknown? rfl member)
  | iri name => rfl
  | literal written => rfl

theorem TriplePattern.solutions_congr (triple : TriplePattern) {context other : Solution}
    (agree : Agree (Atom.unknowns triple.atoms) context other) :
    triple.solutions graph context = triple.solutions graph other := by
  have subject : triple.subject.value context = triple.subject.value other :=
    Term.value_congr agree List.mem_cons_self
  have object : triple.object.value context = triple.object.value other :=
    Term.value_congr agree (List.mem_cons_of_mem _ (List.mem_append_right _ List.mem_cons_self))
  simp only [TriplePattern.solutions, subject, object]

mutual

/-- The value of an expression depends on its own unknowns only. -/
theorem Expression.value_congr (expression : Expression) (rows : List Solution)
    {view other : Solution} (agree : Agree expression.unknowns view other) :
    expression.value engine graph rows view = expression.value engine graph rows other := by
  match expression with
  | .var name => exact agree _ List.mem_cons_self
  | .iri name => rfl
  | .literal value => rfl
  | .or operands =>
    rw [Expression.value, Expression.value, listValues_congr operands rows agree]
  | .and operands =>
    rw [Expression.value, Expression.value, listValues_congr operands rows agree]
  | .compare left comparison right =>
    obtain ⟨leftAgree, rightAgree⟩ := agree_of_append agree
    rw [Expression.value, Expression.value, Expression.value_congr left rows leftAgree,
      Expression.value_congr right rows rightAgree]
  | .oneOf tested choices =>
    obtain ⟨testedAgree, choicesAgree⟩ := agree_of_append agree
    rw [Expression.value, Expression.value, Expression.value_congr tested rows testedAgree,
      listValues_congr choices rows choicesAgree]
  | .noneOf tested choices =>
    obtain ⟨testedAgree, choicesAgree⟩ := agree_of_append agree
    rw [Expression.value, Expression.value, Expression.value_congr tested rows testedAgree,
      listValues_congr choices rows choicesAgree]
  | .not operand =>
    rw [Expression.value, Expression.value, Expression.value_congr operand rows agree]
  | .call function arguments =>
    rw [Expression.value, Expression.value, listValues_congr arguments rows agree]
  | .exists pattern =>
    have filters (solution : Solution) := passes_congr pattern (agree.merge solution)
    rw [Expression.value, Expression.value, extendAll_congr pattern .empty agree]
    simp only [filters]
  | .notExists pattern =>
    have filters (solution : Solution) := passes_congr pattern (agree.merge solution)
    rw [Expression.value, Expression.value, extendAll_congr pattern .empty agree]
    simp only [filters]
  | .count distinct none => rfl
  | .count distinct (some counted) => rfl
  | .sum distinct summed => rfl

/-- The values of expressions depend on their own unknowns only. -/
theorem listValues_congr (expressions : List Expression) (rows : List Solution)
    {view other : Solution} (agree : Agree (Atom.unknowns (listAtoms expressions)) view other) :
    listValues engine graph rows view expressions =
      listValues engine graph rows other expressions := by
  match expressions with
  | [] => rfl
  | expression :: rest =>
    obtain ⟨first, others⟩ := agree_of_append agree
    rw [listValues, listValues, Expression.value_congr expression rows first,
      listValues_congr rest rows others]

/-- What an element finds depends on the context of its own unknowns only. -/
theorem Element.extend_congr (element : Element) (current : Solution)
    {context other : Solution} (agree : Agree element.unknowns context other) :
    element.extend engine graph context current =
      element.extend engine graph other current := by
  match element with
  | .triple triple =>
    rw [Element.extend, Element.extend, TriplePattern.solutions_congr graph triple agree]
    exact Solution.joined_congr current agree
      (TriplePattern.solutions_within graph other triple)
  | .optional pattern =>
    have filters (solution : Solution) := passes_congr pattern (agree.merge solution)
    have found := Solution.joined_congr current agree
      (extendAll_within engine graph pattern other .empty (Solution.within_empty _)
        (List.Subset.refl _))
    rw [Element.extend, Element.extend, extendAll_congr pattern .empty agree, found]
    simp only [filters]
  | .union branches =>
    rw [Element.extend, Element.extend, branchSolutions_congr branches agree]
    exact Solution.joined_congr current agree
      (branchSolutions_within engine graph branches other)
  | .group pattern =>
    have filters (solution : Solution) := passes_congr pattern (agree.merge solution)
    rw [Element.extend, Element.extend, extendAll_congr pattern .empty agree]
    simp only [filters]
    exact Solution.joined_congr current agree (accepted_within engine graph other pattern)
  | .filter condition => rfl
  | .values data => exact Solution.joined_congr current agree (Data.solutions_within data)
  | .bind expression target =>
    obtain ⟨inExpression, inTarget⟩ := agree_of_append agree
    rw [Element.extend, Element.extend,
      Expression.value_congr expression [] (inExpression.merge current)]
    split
    · rfl
    · refine Solution.joined_congr current inTarget fun candidate member => ?_
      rw [List.mem_singleton.1 member]
      intro unknown absent
      have different : unknown ≠ .var target := fun equal =>
        absent (equal ▸ List.mem_cons_self)
      exact Function.update_of_ne different _ _
  | .service name silent pattern =>
    exact Solution.joined_congr current agree (engine.service_within name pattern)
  | .select query =>
    exact Solution.joined_congr current agree (Select.solutions_within engine graph query)

/-- What elements find depends on the context of their own unknowns only. -/
theorem extendAll_congr (group : Group) (current : Solution) {context other : Solution}
    (agree : Agree group.unknowns context other) :
    extendAll engine graph context current group =
      extendAll engine graph other current group := by
  match group with
  | [] => rfl
  | element :: rest =>
    obtain ⟨first, others⟩ := agree_of_append agree
    rw [extendAll, extendAll, Element.extend_congr element current first]
    exact List.flatMap_congr fun solution _ => extendAll_congr rest solution others

/-- Whether a filter holds depends on its own unknowns only. -/
theorem Element.holds_congr (element : Element) {view other : Solution}
    (agree : Agree element.unknowns view other) :
    element.holds engine graph view = element.holds engine graph other := by
  match element with
  | .filter condition =>
    rw [Element.holds, Element.holds, Expression.value_congr condition [] agree]
  | .triple _ => rfl
  | .optional _ => rfl
  | .union _ => rfl
  | .group _ => rfl
  | .values _ => rfl
  | .bind _ _ => rfl
  | .service _ _ _ => rfl
  | .select _ => rfl

/-- Whether the filters of a group hold depends on its own unknowns only. -/
theorem passes_congr (group : Group) {view other : Solution}
    (agree : Agree group.unknowns view other) :
    passes engine graph view group = passes engine graph other group := by
  match group with
  | [] => rfl
  | element :: rest =>
    obtain ⟨first, others⟩ := agree_of_append agree
    rw [passes, passes, Element.holds_congr element first, passes_congr rest others]

/-- What branches find depends on the context of their own unknowns only. -/
theorem branchSolutions_congr (branches : List Group) {context other : Solution}
    (agree : Agree (Atom.unknowns (branchAtoms branches)) context other) :
    branchSolutions engine graph context branches =
      branchSolutions engine graph other branches := by
  match branches with
  | [] => rfl
  | branch :: rest =>
    obtain ⟨first, others⟩ := agree_of_append agree
    have filters (solution : Solution) := passes_congr branch (first.merge solution)
    rw [branchSolutions, branchSolutions, extendAll_congr branch .empty first,
      branchSolutions_congr rest others]
    simp only [filters]

end

/-! ### Other unknowns -/

/-- Values of other unknowns are kept by an element and change nothing. -/
theorem Element.extend_merge (element : Element) (context current : Solution)
    {outer : Solution} (outside : outer.Outside element.unknowns) :
    element.extend engine graph context (outer.merge current) =
      (element.extend engine graph context current).map outer.merge := by
  cases element with
  | triple triple =>
    exact Solution.joined_merge context current outside
      (TriplePattern.solutions_within graph context triple)
  | optional pattern =>
    have found := Solution.joined_merge context current outside
      (extendAll_within engine graph pattern context .empty (Solution.within_empty _)
        (List.Subset.refl _))
    have filters (solution : Solution) :
        passes engine graph ((outer.merge solution).merge context) pattern =
          passes engine graph (solution.merge context) pattern := by
      rw [Solution.merge_assoc]
      exact passes_congr engine graph pattern (outside.agree_merge _)
    rw [extend, extend, found, List.filter_map]
    simp only [Function.comp_def, filters, List.isEmpty_map]
    split <;> rfl
  | union branches =>
    exact Solution.joined_merge context current outside
      (branchSolutions_within engine graph branches context)
  | group pattern =>
    exact Solution.joined_merge context current outside
      (accepted_within engine graph context pattern)
  | filter condition => rfl
  | values data =>
    exact Solution.joined_merge context current outside (Data.solutions_within data)
  | bind expression target =>
    have inExpression : Agree expression.unknowns ((outer.merge current).merge context)
        (current.merge context) := by
      rw [Solution.merge_assoc]
      refine (outside.agree_merge _).mono ?_
      rw [Element.unknowns, Element.atoms, Atom.unknowns_append]
      exact List.subset_append_left _ _
    rw [extend, extend, Expression.value_congr engine graph expression [] inExpression]
    split
    · rfl
    · refine Solution.joined_merge context current outside fun candidate member => ?_
      rw [List.mem_singleton.1 member]
      intro unknown absent
      have different : unknown ≠ .var target := fun equal => absent
        (equal ▸ mem_unknowns_of_target (List.mem_append_right _ List.mem_cons_self))
      exact Function.update_of_ne different _ _
  | service name silent pattern =>
    exact Solution.joined_merge context current outside (engine.service_within name pattern)
  | select query =>
    exact Solution.joined_merge context current outside
      (Select.solutions_within engine graph query)

/-- Values of other unknowns are kept by a group and change nothing. -/
theorem extendAll_merge (group : Group) (context current : Solution) {outer : Solution}
    (outside : outer.Outside group.unknowns) :
    extendAll engine graph context (outer.merge current) group =
      (extendAll engine graph context current group).map outer.merge := by
  induction group generalizing current with
  | nil => rfl
  | cons element rest inductionHypothesis =>
    rw [Group.unknowns_cons] at outside
    have first : outer.Outside element.unknowns := fun unknown member =>
      outside unknown (List.mem_append_left _ member)
    have others : outer.Outside (Group.unknowns rest) := fun unknown member =>
      outside unknown (List.mem_append_right _ member)
    rw [extendAll, extendAll, Element.extend_merge engine graph element context current first,
      List.flatMap_map, List.map_flatMap]
    exact List.flatMap_congr fun solution _ => inductionHypothesis solution others

/-! ### Groups one after another -/

theorem extendAll_append (context current : Solution) (first second : Group) :
    extendAll engine graph context current (first ++ second) =
      (extendAll engine graph context current first).flatMap fun solution =>
        extendAll engine graph context solution second := by
  induction first generalizing current with
  | nil => exact (List.flatMap_singleton _ _).symm
  | cons element rest inductionHypothesis =>
    rw [List.cons_append, extendAll, extendAll, List.flatMap_assoc]
    exact List.flatMap_congr fun solution _ => inductionHypothesis solution

theorem passes_append (view : Solution) (first second : Group) :
    passes engine graph view (first ++ second) =
      (passes engine graph view first && passes engine graph view second) := by
  induction first with
  | nil => rfl
  | cons element rest inductionHypothesis =>
    rw [List.cons_append, passes, passes, inductionHypothesis, Bool.and_assoc]

/-- Groups without common unknowns. -/
def Group.Apart (first second : Group) : Prop :=
  ∀ unknown ∈ first.unknowns, unknown ∉ second.unknowns

/-- The solutions of groups without common unknowns are those of each of them together. -/
theorem mem_accepted_append {context solution : Solution} {first second : Group}
    (apart : first.Apart second) :
    solution ∈ accepted engine graph context (first ++ second) ↔
      ∃ one ∈ accepted engine graph context first,
        ∃ other ∈ accepted engine graph context second, solution = one.merge other := by
  have oneOutside {one : Solution} (within : one.Within first.unknowns) :
      one.Outside second.unknowns := fun unknown member =>
    within unknown fun inFirst => apart unknown inFirst member
  have otherOutside {other : Solution} (within : other.Within second.unknowns) :
      other.Outside first.unknowns := fun unknown member => within unknown (apart unknown member)
  have extended {one : Solution} (within : one.Within first.unknowns) :
      extendAll engine graph context one second =
        (extendAll engine graph context .empty second).map one.merge := by
    rw [← extendAll_merge engine graph second context .empty (oneOutside within),
      Solution.merge_empty]
  have firstPasses {one other : Solution} (within : other.Within second.unknowns) :
      passes engine graph ((one.merge other).merge context) first =
        passes engine graph (one.merge context) first := by
    rw [Solution.merge_assoc]
    exact passes_congr engine graph first (((otherOutside within).agree_merge context).merge one)
  have secondPasses {one other : Solution} (within : one.Within first.unknowns) :
      passes engine graph ((one.merge other).merge context) second =
        passes engine graph (other.merge context) second := by
    rw [Solution.merge_assoc]
    exact passes_congr engine graph second ((oneOutside within).agree_merge _)
  have firstWithin := extendAll_within engine graph first context .empty
    (Solution.within_empty _) (List.Subset.refl _)
  have secondWithin := extendAll_within engine graph second context .empty
    (Solution.within_empty _) (List.Subset.refl _)
  simp only [accepted, List.mem_filter, extendAll_append, passes_append, List.mem_flatMap,
    Bool.and_eq_true]
  constructor
  · rintro ⟨⟨one, oneMember, member⟩, firstHolds, secondHolds⟩
    have within := firstWithin one oneMember
    rw [extended within] at member
    obtain ⟨other, otherMember, rfl⟩ := List.mem_map.1 member
    rw [firstPasses (secondWithin other otherMember)] at firstHolds
    rw [secondPasses within] at secondHolds
    exact ⟨one, ⟨oneMember, firstHolds⟩, other, ⟨otherMember, secondHolds⟩, rfl⟩
  · rintro ⟨one, ⟨oneMember, firstHolds⟩, other, ⟨otherMember, secondHolds⟩, rfl⟩
    have within := firstWithin one oneMember
    refine ⟨⟨one, oneMember, ?_⟩, ?_, ?_⟩
    · rw [extended within]
      exact List.mem_map_of_mem otherMember
    · rw [firstPasses (secondWithin other otherMember)]
      exact firstHolds
    · rw [secondPasses within]
      exact secondHolds

/-- Groups without common unknowns have a solution together if each of them has one. -/
theorem Group.solvable_append {first second : Group} (apart : first.Apart second) :
    Group.Solvable engine graph (first ++ second) ↔
      first.Solvable engine graph ∧ second.Solvable engine graph := by
  simp only [Solvable, solutions, mem_accepted_append engine graph apart]
  constructor
  · rintro ⟨_, one, oneMember, other, otherMember, -⟩
    exact ⟨⟨one, oneMember⟩, ⟨other, otherMember⟩⟩
  · rintro ⟨⟨one, oneMember⟩, ⟨other, otherMember⟩⟩
    exact ⟨_, one, oneMember, other, otherMember, rfl⟩

end ShapeQuery.Sparql
