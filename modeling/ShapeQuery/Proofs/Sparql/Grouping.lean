/-
This file tells what a selection with groups is made of. It has one solution for each way in which
the solutions of its pattern give values to the variables that they are grouped by, and a count in
it is about the solutions of one group.
-/
import Mathlib.Data.Set.Card
import ShapeQuery.Proofs.Sparql.Selecting

namespace ShapeQuery.Sparql

/-! ### Values -/

/-- The terms that some solutions give to a variable. -/
def valueSet (name : Variable) (rows : List Solution) : Set Rdf.Term :=
  {value | ∃ row ∈ rows, row (.var name) = some value}

theorem valueSet_eq_toFinset (name : Variable) (rows : List Solution) :
    valueSet name rows = (valuesOf name rows).toFinset := by
  rw [List.coe_toFinset]
  exact Set.ext fun value => mem_valuesOf.symm

theorem finite_valueSet (name : Variable) (rows : List Solution) : (valueSet name rows).Finite := by
  rw [valueSet_eq_toFinset]
  exact Finset.finite_toSet _

theorem ncard_valueSet (name : Variable) (rows : List Solution) :
    (valueSet name rows).ncard = (valuesOf name rows).dedup.length := by
  rw [valueSet_eq_toFinset, Set.ncard_coe_finset, List.card_toFinset]

/-- A union gives a variable the values that its branches give it. -/
theorem mem_valueSet_union {engine : Engine} {graph : Rdf.Graph} {name : Variable}
    {branches : List Group} {value : Rdf.Term} :
    value ∈ valueSet name (Group.solutions engine graph [.union branches]) ↔
      ∃ branch ∈ branches, value ∈ valueSet name (branch.solutions engine graph) := by
  simp only [valueSet, Set.mem_ofPred_eq, Group.mem_solutions_union]
  exact ⟨fun ⟨row, ⟨branch, member, found⟩, known⟩ => ⟨branch, member, row, found, known⟩,
    fun ⟨branch, member, row, found, known⟩ => ⟨row, ⟨branch, member, found⟩, known⟩⟩

/-- A variable that is bound to another one gets its values. -/
theorem valueSet_append_bind (engine : Engine) (graph : Rdf.Graph) {group : Group}
    {source target : Variable} (fresh : .var target ∉ group.unknowns) :
    valueSet target (Group.solutions engine graph (group ++ [.bind (.var source) target])) =
      valueSet source (group.solutions engine graph) := by
  ext value
  simp only [valueSet, Set.mem_ofPred_eq, Group.mem_solutions_append_bind engine graph fresh]
  -- A solution with the source unknown stays as it is, any other one gets one more value.
  have bound {current : Solution} (member : current ∈ group.solutions engine graph) :
      (∃ row ∈ Element.extend engine graph .empty current (.bind (.var source) target),
        row (.var target) = some value) ↔ current (.var source) = some value := by
    have free : current (.var target) = none :=
      accepted_within engine graph .empty group current member _ fresh
    cases known : current (.var source) with
    | none =>
      have kept : Element.extend engine graph .empty current (.bind (.var source) target) =
          [current] := by
        rw [Element.extend, Solution.merge_empty, Expression.value, known]
      rw [kept]
      simp [free]
    | some found =>
      have read : Expression.value engine graph [] current (.var source) = some found := by
        rw [Expression.value, known]
      rw [Element.extend_bind_value engine graph free read]
      simp [Solution.merge_of_none free]
  constructor
  · rintro ⟨row, ⟨current, member, extended⟩, known⟩
    exact ⟨current, member, (bound member).1 ⟨row, extended, known⟩⟩
  · rintro ⟨current, member, known⟩
    obtain ⟨row, extended, valued⟩ := (bound member).2 known
    exact ⟨row, ⟨current, member, extended⟩, valued⟩

/-- A sum is about the values of its variable, whatever else the rows tell. -/
theorem Expression.value_sum_var (engine : Engine) (graph : Rdf.Graph) (rows : List Solution)
    (view : Solution) (name : Variable) :
    Expression.value engine graph rows view (.sum false (.var name)) =
      ((rows.map fun row : Solution => row (.var name)).mapM id).bind engine.sum := by
  rw [List.mapM_map]
  rfl

/-- The solution with a number besides other values. -/
def Solution.numbered (solution : Solution) (name : Variable) (number : Nat) : Solution :=
  Function.update solution (.var name) (some (.literal (.ofInt number)))

theorem Solution.numbered_injective {names : List Variable} {target : Variable}
    (fresh : target ∉ names) {first second : Solution} {number other : Nat}
    (firstWithin : first.Within (names.map .var)) (secondWithin : second.Within (names.map .var))
    (same : first.numbered target number = second.numbered target other) : first = second := by
  funext unknown
  by_cases isTarget : unknown = .var target
  · have absent : unknown ∉ names.map Unknown.var := by
      rw [isTarget, List.mem_map_of_injective fun _ _ => Unknown.var.inj]
      exact fresh
    rw [firstWithin unknown absent, secondWithin unknown absent]
  · have values := congrFun same unknown
    rwa [numbered, numbered, Function.update_of_ne isTarget, Function.update_of_ne isTarget]
      at values

theorem Solution.numbered_ne {solution : Solution} {name : Variable} {number other : Nat}
    (different : Literal.ofInt number ≠ Literal.ofInt other) :
    solution.numbered name number ≠ solution.numbered name other := by
  intro same
  have values := congrFun same (.var name)
  rw [numbered, numbered, Function.update_self, Function.update_self, Option.some_inj] at values
  exact different (Rdf.Term.literal.inj values)

/-! ### Columns -/

namespace Select

/-- The columns of some variables and of an expression about the others. -/
def aggregateColumns (names : List Variable) (expression : Expression) (target : Variable) :
    List Projection :=
  names.map .var ++ [.expression expression target]

/-- The selection of the value of an expression for each way to give values to some variables. -/
def aggregateEach (names : List Variable) (expression : Expression) (target : Variable)
    (pattern : Group) : Select :=
  ⟨false, some (aggregateColumns names expression target), pattern, ⟨names, [], none, none⟩⟩

/-- The columns of some variables and of the number of the values of another one. -/
def countColumns (names : List Variable) (counted target : Variable) : List Projection :=
  names.map .var ++ [.expression (.count true (some (.var counted))) target]

/-- The selection that counts a variable for each way to give values to some others. -/
def countEach (names : List Variable) (counted target : Variable) (pattern : Group) : Select :=
  ⟨false, some (countColumns names counted target), pattern, ⟨names, [], none, none⟩⟩

variable (engine : Engine) (graph : Rdf.Graph) {names : List Variable}

theorem aggregates_aggregateColumns (names : List Variable) {expression : Expression}
    (aggregates : expression.aggregates = true) (target : Variable) :
    (aggregateColumns names expression target).any Projection.aggregates = true := by
  simp [aggregateColumns, Projection.aggregates, aggregates]

theorem targets_aggregateColumns (names : List Variable) (expression : Expression)
    (target : Variable) :
    (aggregateColumns names expression target).map Projection.target = names ++ [target] := by
  simp [aggregateColumns, Function.comp_def, Projection.target]

theorem columnsValue_aggregateColumns (names : List Variable) (expression : Expression)
    (target : Variable) (rows : List Solution) (key : Solution) :
    columnsValue engine graph rows key (aggregateColumns names expression target) =
      Function.update key (.var target) (expression.value engine graph rows key) := by
  induction names with
  | nil => rfl
  | cons name rest inductionHypothesis => exact inductionHypothesis

/-- What is shown of a group are the values that tell it and the value of the expression. -/
theorem shown_aggregateColumns {key : Solution} (within : key.Within (names.map .var))
    (expression : Expression) (target : Variable) (value : Option Rdf.Term) :
    shown (some (aggregateColumns names expression target))
        (Function.update key (.var target) value) =
      Function.update key (.var target) value := by
  rw [shown, targets_aggregateColumns]
  funext unknown
  by_cases isTarget : unknown = .var target
  · rw [isTarget]
    exact Solution.restrict_var (List.mem_append_right _ List.mem_cons_self)
  · have kept : Function.update key (.var target) value unknown = key unknown :=
      Function.update_of_ne isTarget ..
    by_cases named : unknown ∈ names.map Unknown.var
    · obtain ⟨name, member, rfl⟩ := List.mem_map.1 named
      exact Solution.restrict_var (List.mem_append_left _ member)
    · rw [kept, within unknown named]
      refine Solution.Within.restrict _ _ unknown fun member => ?_
      rw [List.map_append] at member
      rcases List.mem_append.1 member with inNames | isLast
      · exact named inNames
      · exact isTarget (List.mem_singleton.1 isLast)

/-! ### Groups -/

/-- The solutions of a pattern that give some variables the values of a key. -/
noncomputable def rowsOf (names : List Variable) (pattern : Group) (key : Solution) :
    List Solution :=
  (pattern.solutions engine graph).filter fun row => row.restrict names = key

/-- The ways in which the solutions of a pattern give values to some variables. -/
noncomputable def keysOf (names : List Variable) (pattern : Group) : List Solution :=
  ((pattern.solutions engine graph).map fun row => row.restrict names).dedup

theorem mem_keysOf {pattern : Group} {key : Solution} :
    key ∈ keysOf engine graph names pattern ↔
      ∃ row ∈ pattern.solutions engine graph, row.restrict names = key := by
  rw [keysOf, List.mem_dedup, List.mem_map]

/-- A selection of a value for each group has one solution for each group. -/
theorem perm_solutions_aggregateEach (given : names ≠ []) {expression : Expression}
    (aggregates : expression.aggregates = true) (target : Variable) (pattern : Group) :
    ((aggregateEach names expression target pattern).solutions engine graph).Perm
      ((keysOf engine graph names pattern).map fun key => Function.update key (.var target)
        (expression.value engine graph (rowsOf engine graph names pattern key) key)) := by
  have grouping : names.isEmpty = false := List.isEmpty_eq_false_iff.2 given
  simp only [aggregateEach, Select.solutions, sliced, Option.getD_some, Option.getD_none,
    aggregates_aggregateColumns names aggregates, Bool.true_or, if_true, Bool.false_eq_true,
    if_false, List.drop_zero, rows_eq_solutions, groupedBy, grouping]
  refine ((perm_arranged engine _ _ _ _).map _).trans ?_
  rw [List.map_map]
  refine .of_eq (List.map_congr_left fun key member => ?_)
  obtain ⟨row, -, rfl⟩ := (mem_keysOf engine graph).1 member
  rw [Function.comp_apply, columnsValue_aggregateColumns]
  exact shown_aggregateColumns (Solution.Within.restrict row names) expression target _

/-- A selection that counts for each group has one solution for each group. -/
theorem perm_solutions_countEach (given : names ≠ []) (counted target : Variable)
    (pattern : Group) :
    ((countEach names counted target pattern).solutions engine graph).Perm
      (((pattern.solutions engine graph).map fun row => row.restrict names).dedup.map fun key =>
        key.numbered target
          (valueSet counted (rowsOf engine graph names pattern key)).ncard) := by
  have number (rows : List Solution) (key : Solution) :
      Expression.value engine graph rows key (.count true (some (.var counted))) =
        some (.literal (.ofInt (valueSet counted rows).ncard)) := by
    rw [ncard_valueSet]
    rfl
  have aggregates : (Expression.count true (some (.var counted))).aggregates = true := rfl
  have each := perm_solutions_aggregateEach engine graph given aggregates target pattern
  simp only [number] at each
  exact each

theorem nodup_solutions_countEach (given : names ≠ []) (counted : Variable) {target : Variable}
    (fresh : target ∉ names) (pattern : Group) :
    ((countEach names counted target pattern).solutions engine graph).Nodup := by
  refine (perm_solutions_countEach engine graph given counted target pattern).nodup_iff.2
    ((List.nodup_dedup _).map_on ?_)
  intro first firstMember second secondMember same
  obtain ⟨row, -, rfl⟩ := List.mem_map.1 (List.mem_dedup.1 firstMember)
  obtain ⟨other, -, rfl⟩ := List.mem_map.1 (List.mem_dedup.1 secondMember)
  exact Solution.numbered_injective fresh (Solution.Within.restrict row names)
    (Solution.Within.restrict other names) same

theorem mem_solutions_countEach (given : names ≠ []) (counted target : Variable)
    (pattern : Group) {solution : Solution} :
    solution ∈ (countEach names counted target pattern).solutions engine graph ↔
      ∃ row ∈ pattern.solutions engine graph, solution = (row.restrict names).numbered target
        (valueSet counted (rowsOf engine graph names pattern (row.restrict names))).ncard := by
  rw [(perm_solutions_countEach engine graph given counted target pattern).mem_iff]
  simp only [List.mem_map, List.mem_dedup, exists_exists_and_eq_and]
  exact exists_congr fun row => and_congr_right fun _ => eq_comm

/-- What a selection tells that counts for each pair of values of two variables. -/
theorem mem_solutions_countEach_pair {first second : Variable} (different : second ≠ first)
    (counted target : Variable) {pattern : Group}
    (binds : ∀ row ∈ pattern.solutions engine graph, row.Binds first ∧ row.Binds second)
    {solution : Solution} :
    solution ∈ (countEach [first, second] counted target pattern).solutions engine graph ↔
      ∃ one other, (∃ row ∈ pattern.solutions engine graph,
          row (.var first) = some one ∧ row (.var second) = some other) ∧
        solution = (Solution.pair first second one other).numbered target
          {value | ∃ row ∈ pattern.solutions engine graph, row (.var first) = some one ∧
            row (.var second) = some other ∧ row (.var counted) = some value}.ncard := by
  -- The key of a row is told by the two values.
  have key {row : Solution} (member : row ∈ pattern.solutions engine graph) (one other : Rdf.Term) :
      row.restrict [first, second] = Solution.pair first second one other ↔
        row (.var first) = some one ∧ row (.var second) = some other := by
    constructor
    · intro same
      have firsts := congrFun same (.var first)
      have seconds := congrFun same (.var second)
      rw [Solution.restrict_var List.mem_cons_self, Solution.pair_first different] at firsts
      rw [Solution.restrict_var (List.mem_cons_of_mem _ List.mem_cons_self),
        Solution.pair_last] at seconds
      exact ⟨firsts, seconds⟩
    · exact fun ⟨firstKnown, secondKnown⟩ =>
        Solution.restrict_eq_pair different firstKnown secondKnown
  have values (one other : Rdf.Term) :
      valueSet counted (rowsOf engine graph [first, second] pattern
          (Solution.pair first second one other)) =
        {value | ∃ row ∈ pattern.solutions engine graph, row (.var first) = some one ∧
          row (.var second) = some other ∧ row (.var counted) = some value} := by
    refine Set.ext fun value => exists_congr fun row => ?_
    rw [rowsOf, List.mem_filter, decide_eq_true_eq, and_assoc]
    refine and_congr_right fun member => ?_
    rw [key member, and_assoc]
  rw [mem_solutions_countEach engine graph (List.cons_ne_nil _ _)]
  constructor
  · rintro ⟨row, member, rfl⟩
    obtain ⟨⟨one, firstKnown⟩, other, secondKnown⟩ := binds row member
    rw [(key member one other).2 ⟨firstKnown, secondKnown⟩, values]
    exact ⟨one, other, ⟨row, member, firstKnown, secondKnown⟩, rfl⟩
  · rintro ⟨one, other, ⟨row, member, known⟩, rfl⟩
    refine ⟨row, member, ?_⟩
    rw [(key member one other).2 known, values]

end Select

end ShapeQuery.Sparql
