/-
This file proves that names do not matter: a group whose variables and labels are renamed, keeping
different ones different, has the same solutions under the new names.
-/
import ShapeQuery.Proofs.Sparql.Evaluation

namespace ShapeQuery.Sparql.Renaming

variable (engine : Engine) (graph : Rdf.Graph) (renamer : Renaming)

/-! ### Terms and triples -/

theorem value_term (term : Term) (solution : Solution) :
    (renamer.replacement.term term).value (renamer.solution solution) = term.value solution := by
  cases term with
  | var name => exact renamer.solution_unknown solution (.var name)
  | blank label => exact renamer.solution_unknown solution (.blank label)
  | iri name => rfl
  | literal written => rfl

theorem assign_term (term : Term) (solution : Solution) (value : Rdf.Term) :
    (renamer.replacement.term term).assign (renamer.solution solution) value =
      (term.assign solution value).map renamer.solution := by
  cases term with
  | var name => exact renamer.assign_solution solution (.var name) value
  | blank label => exact renamer.assign_solution solution (.blank label) value
  | iri name =>
    show (if _ then _ else _) = Option.map _ (if _ then _ else _)
    split <;> rfl
  | literal written =>
    show (if _ then _ else _) = Option.map _ (if _ then _ else _)
    split <;> rfl

theorem map_bind {α : Type} (solution : Option Solution) (next : Solution → Option α) :
    (solution.map renamer.solution).bind next =
      solution.bind fun found => next (renamer.solution found) := by
  cases solution <;> rfl

theorem solutions_triple (triple : TriplePattern) (context : Solution) :
    (renamer.replacement.triple triple).solutions graph (renamer.solution context) =
      (triple.solutions graph context).map renamer.solution := by
  obtain ⟨subject, verb, object⟩ := triple
  cases verb with
  | var name =>
    show List.filterMap _ _ = List.map _ (List.filterMap _ _)
    rw [List.map_filterMap]
    refine List.filterMap_congr fun found _ => ?_
    show Option.bind ((renamer.replacement.term subject).assign (renamer.solution .empty) _) _ = _
    rw [assign_term, map_bind]
    simp only [Option.bind_eq_bind, Option.map_bind, Function.comp_def]
    refine congrArg _ (funext fun one => ?_)
    rw [show Unknown.var (renamer.names name) = renamer.unknown (.var name) from rfl,
      assign_solution, map_bind]
    refine congrArg _ (funext fun other => ?_)
    exact assign_term renamer object other _
  | path path =>
    show List.filterMap _ (path.pairs graph ((renamer.replacement.term subject).value _)
      ((renamer.replacement.term object).value _)) = List.map _ (List.filterMap _ _)
    rw [List.map_filterMap, value_term, value_term]
    refine List.filterMap_congr fun pair _ => ?_
    show Option.bind ((renamer.replacement.term subject).assign (renamer.solution .empty) _) _ = _
    rw [assign_term, map_bind]
    simp only [Option.bind_eq_bind, Option.map_bind, Function.comp_def]
    refine congrArg _ (funext fun one => ?_)
    exact assign_term renamer object one _

/-! ### Tables -/

theorem cell_value (cell : Option Term) :
    (cell.map renamer.replacement.term).bind (Term.value .empty) =
      cell.bind (Term.value .empty) := by
  cases cell with
  | none => rfl
  | some term => exact renamer.value_term term .empty

theorem assignRow_solution (row : List (Variable × Option Term)) (solution : Solution) :
    assignRow (renamer.solution solution)
        (row.map fun entry => (renamer.names entry.1, entry.2.map renamer.replacement.term)) =
      (assignRow solution row).map renamer.solution := by
  induction row generalizing solution with
  | nil => rfl
  | cons entry rest inductionHypothesis =>
    obtain ⟨name, cell⟩ := entry
    rw [List.map_cons, assignRow, assignRow, cell_value]
    cases cell.bind (Term.value .empty) with
    | none => exact inductionHypothesis solution
    | some value =>
      show Option.bind ((renamer.solution solution).assign (renamer.unknown (.var name)) value) _ =
        _
      rw [assign_solution, map_bind, Option.bind_eq_bind, Option.map_bind]
      exact congrArg _ (funext inductionHypothesis)

theorem solutions_data (data : Data) :
    (renamer.replacement.data data).solutions = data.solutions.map renamer.solution := by
  show List.filterMap _ (List.map _ _) = List.map _ (List.filterMap _ _)
  rw [List.filterMap_map, List.map_filterMap]
  refine List.filterMap_congr fun row _ => ?_
  rw [Function.comp_apply, ← assignRow_solution, solution_empty]
  refine congrArg _ ?_
  show List.zip (List.map _ data.columns) (List.map _ row) = _
  rw [List.zip_map]
  rfl

/-! ### Selections -/

theorem aggregates_substitute (substitute : Substitute) :
    substitute.expression.aggregates = false := by
  cases substitute <;> rfl

mutual

theorem aggregates_expression (replacement : Replacement) (expression : Expression) :
    (replacement.expression expression).aggregates = expression.aggregates := by
  match expression with
  | .var name => exact aggregates_substitute _
  | .iri name => rfl
  | .literal value => rfl
  | .or operands => exact aggregates_list replacement operands
  | .and operands => exact aggregates_list replacement operands
  | .compare left comparison right =>
    exact congrArg₂ or (aggregates_expression replacement left)
      (aggregates_expression replacement right)
  | .oneOf value choices =>
    exact congrArg₂ or (aggregates_expression replacement value)
      (aggregates_list replacement choices)
  | .noneOf value choices =>
    exact congrArg₂ or (aggregates_expression replacement value)
      (aggregates_list replacement choices)
  | .not operand => exact aggregates_expression replacement operand
  | .call function arguments => exact aggregates_list replacement arguments
  | .exists pattern => rfl
  | .notExists pattern => rfl
  | .count distinct none => rfl
  | .count distinct (some counted) => rfl
  | .sum distinct summed => rfl

theorem aggregates_list (replacement : Replacement) (expressions : List Expression) :
    listAggregates (replacement.list expressions) = listAggregates expressions := by
  match expressions with
  | [] => rfl
  | expression :: rest =>
    exact congrArg₂ or (aggregates_expression replacement expression)
      (aggregates_list replacement rest)

end

theorem aggregates_columns (replacement : Replacement) (columns : List Projection) :
    (replacement.columns columns).any Projection.aggregates =
      columns.any Projection.aggregates := by
  induction columns with
  | nil => rfl
  | cons column rest inductionHypothesis =>
    rw [Replacement.columns, List.any_cons, List.any_cons, inductionHypothesis]
    cases column with
    | var name => rfl
    | expression value target =>
      exact congrArg (· || _) (aggregates_expression replacement value)

theorem target_columns (replacement : Replacement) (columns : List Projection) :
    (replacement.columns columns).map Projection.target =
      (columns.map Projection.target).map replacement.target := by
  induction columns with
  | nil => rfl
  | cons column rest inductionHypothesis =>
    rw [Replacement.columns, List.map_cons, List.map_cons, List.map_cons, inductionHypothesis]
    cases column <;> rfl

theorem dedup_solutions (solutions : List Solution) :
    (solutions.map renamer.solution).dedup = solutions.dedup.map renamer.solution :=
  List.dedup_map_of_injective renamer.solution_injective solutions

theorem groupedBy_solutions (names : List Variable) (rows : List Solution) :
    groupedBy (names.map renamer.names) (rows.map renamer.solution) =
      (groupedBy names rows).map
        (Prod.map (List.map renamer.solution) renamer.solution) := by
  unfold groupedBy
  rw [List.isEmpty_map]
  split
  · rfl
  · have keys : (rows.map renamer.solution).map
        (fun row => row.restrict (names.map renamer.names)) =
          (rows.map fun row => row.restrict names).map renamer.solution := by
      rw [List.map_map, List.map_map]
      exact List.map_congr_left fun row _ => renamer.restrict_solution row names
    rw [keys, dedup_solutions, List.map_map, List.map_map]
    refine List.map_congr_left fun key _ => ?_
    show (List.filter _ _, _) = (List.map _ (List.filter _ _), _)
    rw [List.filter_map]
    refine congrArg (List.map renamer.solution · , _) (List.filter_congr fun row _ => ?_)
    rw [Function.comp_apply, restrict_solution]
    exact decide_eq_decide.2 renamer.solution_injective.eq_iff

theorem groups_solutions (aggregated : Bool) (names : List Variable) (rows : List Solution) :
    (if aggregated || !(names.map renamer.replacement.target).isEmpty then
        groupedBy (names.map renamer.replacement.target) (rows.map renamer.solution)
      else (rows.map renamer.solution).map fun row => ([row], row)) =
      (if aggregated || !names.isEmpty then groupedBy names rows
        else rows.map fun row => ([row], row)).map
          (Prod.map (List.map renamer.solution) renamer.solution) := by
  rw [List.isEmpty_map]
  split
  · exact renamer.groupedBy_solutions names rows
  · rw [List.map_map, List.map_map]
    rfl

theorem mergeSort_entries (entries : List (List (Bool × Option Rdf.Term) × Solution)) :
    ((entries.map (Prod.map id renamer.solution)).mergeSort fun first second =>
        engine.mayPrecede first.1 second.1) =
      (entries.mergeSort fun first second =>
        engine.mayPrecede first.1 second.1).map (Prod.map id renamer.solution) := by
  symm
  apply List.map_mergeSort
  intro first _ second _
  rfl

theorem arranged_solutions (groups : List (List Solution × Solution))
    {before after : List Solution → Solution → Solution}
    {keysBefore keysAfter : List Solution → Solution → List (Bool × Option Rdf.Term)}
    (views : ∀ rows solution,
      after (rows.map renamer.solution) (renamer.solution solution) =
        renamer.solution (before rows solution))
    (keys : ∀ rows solution,
      keysAfter (rows.map renamer.solution) (renamer.solution solution) =
        keysBefore rows solution) :
    arranged engine (groups.map (Prod.map (List.map renamer.solution) renamer.solution)) after
        keysAfter =
      (arranged engine groups before keysBefore).map renamer.solution := by
  have entries : ((groups.map (Prod.map (List.map renamer.solution) renamer.solution)).map
      fun group => (keysAfter group.1 (after group.1 group.2), after group.1 group.2)) =
        (groups.map fun group =>
          (keysBefore group.1 (before group.1 group.2), before group.1 group.2)).map
            (Prod.map id renamer.solution) := by
    rw [List.map_map, List.map_map]
    refine List.map_congr_left fun group _ => ?_
    simp only [Function.comp_apply, Prod.map_fst, Prod.map_snd, views, keys, Prod.map_apply,
      id_eq]
  rw [arranged, entries, arranged, mergeSort_entries, List.map_map, List.map_map]
  rfl

theorem shown_none (solution : Solution) :
    shown none (renamer.solution solution) = renamer.solution (shown none solution) :=
  renamer.named_solution solution

theorem shown_some (columns : List Projection) (solution : Solution) :
    shown (some (renamer.replacement.columns columns)) (renamer.solution solution) =
      renamer.solution (shown (some columns) solution) := by
  rw [shown, target_columns]
  exact renamer.restrict_solution solution _

theorem sliced_solutions (distinct : Bool) (limit offset : Option Nat)
    (solutions : List Solution) :
    sliced distinct limit offset (solutions.map renamer.solution) =
      (sliced distinct limit offset solutions).map renamer.solution := by
  unfold sliced
  rw [dedup_solutions, ← apply_ite (List.map renamer.solution), ← List.map_drop]
  cases limit with
  | none => rfl
  | some limit => exact List.map_take.symm

theorem counted_solutions (distinct : Bool) (rows : List Solution) :
    counted distinct (rows.map renamer.solution) = counted distinct rows := by
  unfold counted
  rw [dedup_solutions, ← apply_ite (List.map renamer.solution), List.length_map]

theorem update_solution (solution : Solution) (name : Variable) (value : Option Rdf.Term) :
    Function.update (renamer.solution solution) (.var (renamer.names name)) value =
      renamer.solution (Function.update solution (.var name) value) := by
  funext unknown
  by_cases same : unknown = .var (renamer.names name)
  · subst same
    rw [Function.update_self]
    exact ((renamer.solution_unknown _ (.var name)).trans (Function.update_self _ _ _)).symm
  · have different : renamer.inverse.unknown unknown ≠ .var name := fun equal =>
      same (by rw [← renamer.unknown_inverse unknown, equal]; rfl)
    rw [Function.update_of_ne same, Renaming.solution, Renaming.solution,
      Function.update_of_ne different]

/-! ### Evaluation -/

theorem filter_solutions {solutions : List Solution} {before after : Solution → Bool}
    (same : ∀ solution, after (renamer.solution solution) = before solution) :
    (solutions.map renamer.solution).filter after =
      (solutions.filter before).map renamer.solution := by
  rw [List.filter_map]
  exact congrArg _ (List.filter_congr fun solution _ => same solution)

theorem any_solutions {solutions : List Solution} {before after : Solution → Bool}
    (same : ∀ solution, after (renamer.solution solution) = before solution) :
    (solutions.map renamer.solution).any after = solutions.any before := by
  rw [List.any_map]
  exact congrArg _ (funext same)

mutual

/-- An expression has the same value under new names. -/
theorem value_expression (expression : Expression) (rows : List Solution) (view : Solution) :
    (renamer.replacement.expression expression).value engine graph (rows.map renamer.solution)
        (renamer.solution view) =
      expression.value engine graph rows view := by
  match expression with
  | .var name => exact renamer.solution_unknown view (.var name)
  | .iri name => rfl
  | .literal value => rfl
  | .or operands =>
    rw [Replacement.expression, Expression.value, values_list operands, Expression.value]
  | .and operands =>
    rw [Replacement.expression, Expression.value, values_list operands, Expression.value]
  | .compare left comparison right =>
    rw [Replacement.expression, Expression.value, value_expression left, value_expression right,
      Expression.value]
  | .oneOf value choices =>
    rw [Replacement.expression, Expression.value, value_expression value, values_list choices,
      Expression.value]
  | .noneOf value choices =>
    rw [Replacement.expression, Expression.value, value_expression value, values_list choices,
      Expression.value]
  | .not operand =>
    rw [Replacement.expression, Expression.value, value_expression operand, Expression.value]
  | .call function arguments =>
    rw [Replacement.expression, Expression.value, values_list arguments, Expression.value]
  | .exists pattern =>
    have found := extendAll_group pattern view .empty
    rw [solution_empty] at found
    rw [Replacement.expression, Expression.value, found, Expression.value,
      renamer.any_solutions fun solution => passes_group pattern (solution.merge view)]
  | .notExists pattern =>
    have found := extendAll_group pattern view .empty
    rw [solution_empty] at found
    rw [Replacement.expression, Expression.value, found, Expression.value,
      renamer.any_solutions fun solution => passes_group pattern (solution.merge view)]
  | .count distinct none =>
    rw [Replacement.expression, Expression.value, counted_solutions, Expression.value]
  | .count distinct (some counted) =>
    rw [Replacement.expression, Expression.value, List.filterMap_map, Expression.value]
    have same (row : Solution) := value_expression counted [] row
    simp only [List.map_nil] at same
    simp only [Function.comp_def, same]
  | .sum distinct summed =>
    have same (row : Solution) := value_expression summed [] row
    simp only [List.map_nil] at same
    rw [Replacement.expression, Expression.value, List.mapM_map, Expression.value]
    simp only [Function.comp_def, same]

/-- Expressions have the same values under new names. -/
theorem values_list (expressions : List Expression) (rows : List Solution) (view : Solution) :
    listValues engine graph (rows.map renamer.solution) (renamer.solution view)
        (renamer.replacement.list expressions) =
      listValues engine graph rows view expressions := by
  match expressions with
  | [] => rfl
  | expression :: rest =>
    rw [Replacement.list, listValues, value_expression expression, values_list rest, listValues]

/-- An element finds the same under new names. -/
theorem extend_element (element : Element) (context current : Solution) :
    (renamer.replacement.element element).extend engine graph (renamer.solution context)
        (renamer.solution current) =
      (element.extend engine graph context current).map renamer.solution := by
  match element with
  | .triple triple =>
    rw [Replacement.element, Element.extend, solutions_triple, joined_solution, Element.extend]
  | .optional pattern =>
    have found := extendAll_group pattern context .empty
    rw [solution_empty] at found
    rw [Replacement.element, Element.extend, found, joined_solution,
      renamer.filter_solutions fun solution => passes_group pattern (solution.merge context),
      Element.extend]
    simp only [List.isEmpty_map]
    split <;> rfl
  | .union branches =>
    rw [Replacement.element, Element.extend, branchSolutions_branches branches, joined_solution,
      Element.extend]
  | .group pattern =>
    have found := extendAll_group pattern context .empty
    rw [solution_empty] at found
    rw [Replacement.element, Element.extend, found,
      renamer.filter_solutions fun solution => passes_group pattern (solution.merge context),
      joined_solution, Element.extend]
  | .filter condition => rfl
  | .values data =>
    rw [Replacement.element, Element.extend, solutions_data, joined_solution, Element.extend]
  | .bind expression target =>
    have same := value_expression expression [] (current.merge context)
    rw [List.map_nil, solution_merge] at same
    rw [Replacement.element, Element.extend, same, Element.extend]
    split
    · rfl
    · rename_i value _
      rw [← joined_solution, List.map_singleton, ← update_solution, solution_empty]
      rfl
  | .service name silent pattern =>
    rw [Replacement.element, Element.extend, engine.service_renamed, joined_solution,
      Element.extend]
  | .select query =>
    rw [Replacement.element, Element.extend, solutions_select query, joined_solution,
      Element.extend]

/-- Elements find the same under new names. -/
theorem extendAll_group (group : Group) (context current : Solution) :
    extendAll engine graph (renamer.solution context) (renamer.solution current)
        (renamer.replacement.group group) =
      (extendAll engine graph context current group).map renamer.solution := by
  match group with
  | [] => rfl
  | element :: rest =>
    rw [Replacement.group, extendAll, extend_element element, extendAll, List.flatMap_map,
      List.map_flatMap]
    exact List.flatMap_congr fun solution _ => extendAll_group rest context solution

/-- A filter holds under new names if it holds under the old ones. -/
theorem holds_element (element : Element) (view : Solution) :
    (renamer.replacement.element element).holds engine graph (renamer.solution view) =
      element.holds engine graph view := by
  match element with
  | .filter condition =>
    have same := value_expression condition [] view
    rw [List.map_nil] at same
    rw [Replacement.element, Element.holds, same, Element.holds]
  | .triple _ => rfl
  | .optional _ => rfl
  | .union _ => rfl
  | .group _ => rfl
  | .values _ => rfl
  | .bind _ _ => rfl
  | .service _ _ _ => rfl
  | .select _ => rfl

/-- The filters of a group hold under new names if they hold under the old ones. -/
theorem passes_group (group : Group) (view : Solution) :
    passes engine graph (renamer.solution view) (renamer.replacement.group group) =
      passes engine graph view group := by
  match group with
  | [] => rfl
  | element :: rest =>
    rw [Replacement.group, passes, holds_element element, passes_group rest, passes]

/-- Branches find the same under new names. -/
theorem branchSolutions_branches (branches : List Group) (context : Solution) :
    branchSolutions engine graph (renamer.solution context)
        (renamer.replacement.branches branches) =
      (branchSolutions engine graph context branches).map renamer.solution := by
  match branches with
  | [] => rfl
  | branch :: rest =>
    have found := extendAll_group branch context .empty
    rw [solution_empty] at found
    rw [Replacement.branches, branchSolutions, found,
      renamer.filter_solutions fun solution => passes_group branch (solution.merge context),
      branchSolutions_branches rest, branchSolutions, List.map_append]

/-- Columns have the same values under new names. -/
theorem columnsValue_columns (columns : List Projection) (rows : List Solution)
    (view : Solution) :
    columnsValue engine graph (rows.map renamer.solution) (renamer.solution view)
        (renamer.replacement.columns columns) =
      renamer.solution (columnsValue engine graph rows view columns) := by
  match columns with
  | [] => rfl
  | .var name :: rest =>
    rw [Replacement.columns, Replacement.column, columnsValue, columnsValue_columns rest,
      columnsValue]
  | .expression value target :: rest =>
    rw [Replacement.columns, Replacement.column, columnsValue, value_expression value,
      columnsValue, ← columnsValue_columns rest]
    exact congrArg (columnsValue engine graph _ · _) (renamer.update_solution view target _)

/-- Orders have the same keys under new names. -/
theorem orderKeys_criteria (criteria : List OrderCondition) (rows : List Solution)
    (view : Solution) :
    orderKeys engine graph (rows.map renamer.solution) (renamer.solution view)
        (renamer.replacement.criteria criteria) =
      orderKeys engine graph rows view criteria := by
  match criteria with
  | [] => rfl
  | .ascending key :: rest =>
    rw [Replacement.criteria, Replacement.criterion, orderKeys, value_expression key,
      orderKeys_criteria rest, orderKeys]
  | .descending key :: rest =>
    rw [Replacement.criteria, Replacement.criterion, orderKeys, value_expression key,
      orderKeys_criteria rest, orderKeys]

/-- The rows of a selection are the same under new names. -/
theorem rows_group (pattern : Group) :
    (extendAll engine graph .empty .empty (renamer.replacement.group pattern)).filter
        (fun solution => passes engine graph solution (renamer.replacement.group pattern)) =
      ((extendAll engine graph .empty .empty pattern).filter fun solution =>
        passes engine graph solution pattern).map renamer.solution := by
  have found := extendAll_group pattern .empty .empty
  rw [solution_empty] at found
  rw [found, renamer.filter_solutions fun solution => passes_group pattern solution]

/-- A selection finds the same under new names. -/
theorem solutions_select (query : Select) :
    (renamer.replacement.select query).solutions engine graph =
      (query.solutions engine graph).map renamer.solution := by
  match query with
  | ⟨distinct, none, pattern, ⟨groupBy, orderBy, limit, offset⟩⟩ =>
    have keys (rows : List Solution) (view : Solution) := orderKeys_criteria orderBy rows view
    rw [Replacement.select, Replacement.modifier, Select.solutions, rows_group pattern]
    simp only [groups_solutions]
    rw [renamer.arranged_solutions engine _ (fun _ _ => rfl) keys, List.map_map,
      Select.solutions, ← sliced_solutions, List.map_map]
    exact congrArg _ (List.map_congr_left fun solution _ => renamer.shown_none solution)
  | ⟨distinct, some columns, pattern, ⟨groupBy, orderBy, limit, offset⟩⟩ =>
    have views (rows : List Solution) (view : Solution) := columnsValue_columns columns rows view
    have keys (rows : List Solution) (view : Solution) := orderKeys_criteria orderBy rows view
    rw [Replacement.select, Replacement.modifier, Select.solutions, rows_group pattern]
    simp only [groups_solutions, Option.getD_some, aggregates_columns]
    rw [renamer.arranged_solutions engine _ views keys, List.map_map, Select.solutions,
      ← sliced_solutions, List.map_map]
    exact congrArg _ (List.map_congr_left fun solution _ => renamer.shown_some columns solution)

end

/-- A group has the same solutions under new names. -/
theorem solutions_group (group : Group) :
    Group.solutions engine graph (renamer.replacement.group group) =
      (group.solutions engine graph).map renamer.solution := by
  simp only [Group.solutions, accepted, Solution.merge_empty]
  exact rows_group engine graph renamer group

/-- A group has a solution under new names if it has one under the old ones. -/
theorem solvable_group (group : Group) :
    Group.Solvable engine graph (renamer.replacement.group group) ↔
      group.Solvable engine graph := by
  rw [Group.Solvable, solutions_group]
  constructor
  · rintro ⟨_, member⟩
    obtain ⟨solution, found, -⟩ := List.mem_map.1 member
    exact ⟨solution, found⟩
  · rintro ⟨solution, found⟩
    exact ⟨_, List.mem_map_of_mem found⟩

end ShapeQuery.Sparql.Renaming
