/-
This file tells what selections are made of. A selection of different values of variables has each
of them once, in some order, and a page is a slice of it; a count has one solution, the number of
the values; and a triple with an unknown of its own pairs what a group gives a value to with the
ends of its edges.
-/
import ShapeQuery.Proofs.Sparql.Binding

namespace ShapeQuery.Sparql

open Solution (Agree mem_joined merge_of_some merge_of_none)

/-- A selection without its slice. -/
def Select.whole (query : Select) : Select :=
  { query with modifier := { query.modifier with limit := none, offset := none } }

/-- The values of a variable under some solutions. -/
def valuesOf (name : Variable) (rows : List Solution) : List Rdf.Term :=
  rows.filterMap fun row => row (.var name)

theorem mem_valuesOf {name : Variable} {rows : List Solution} {value : Rdf.Term} :
    value ∈ valuesOf name rows ↔ ∃ row ∈ rows, row (.var name) = some value :=
  List.mem_filterMap

section

variable (engine : Engine) (graph : Rdf.Graph)

/-! ### Slices -/

/-- A selection is a slice of the whole of it. -/
theorem Select.solutions_eq_slice {query : Select} {limit offset : Nat}
    (slice : query.modifier.limit = some limit) (start : query.modifier.offset = some offset) :
    query.solutions engine graph =
      ((query.whole.solutions engine graph).drop offset).take limit := by
  obtain ⟨distinct, projection, pattern, ⟨groupBy, orderBy, queryLimit, queryOffset⟩⟩ := query
  cases slice
  cases start
  rfl

/-! ### Variables -/

theorem columnsValue_vars (rows : List Solution) (view : Solution) (names : List Variable) :
    columnsValue engine graph rows view (names.map .var) = view := by
  induction names with
  | nil => rfl
  | cons name rest inductionHypothesis => exact inductionHypothesis

theorem perm_arranged {α : Type} (rows : List α) (group : α → List Solution × Solution)
    (view : List Solution → Solution → Solution)
    (keys : List Solution → Solution → List (Bool × Option Rdf.Term)) :
    (arranged engine (rows.map group) view keys).Perm
      (rows.map fun row => view (group row).1 (group row).2) := by
  refine ((List.mergeSort_perm _ _).map Prod.snd).trans ?_
  rw [List.map_map, List.map_map]
  exact .refl _

theorem rows_eq_solutions (pattern : Group) :
    ((extendAll engine graph .empty .empty pattern).filter fun solution =>
      passes engine graph solution pattern) = pattern.solutions engine graph := by
  simp [Group.solutions, accepted]

/-- A selection of different values of variables has what the pattern gives them, each once. -/
theorem Select.perm_solutions_vars (names : List Variable) (pattern : Group)
    (orderBy : List OrderCondition) :
    (Select.solutions engine graph
        ⟨true, some (names.map .var), pattern, ⟨[], orderBy, none, none⟩⟩).Perm
      ((pattern.solutions engine graph).map fun row => row.restrict names).dedup := by
  have plain : (names.map Projection.var).any Projection.aggregates = false := by
    simp [Projection.aggregates]
  have targets : (names.map Projection.var).map Projection.target = names := by
    simp [Function.comp_def, Projection.target]
  simp only [Select.solutions, sliced, Option.getD_some, plain, List.isEmpty_nil, Bool.not_true,
    Bool.or_false, Bool.false_eq_true, if_false, if_true, Option.getD_none, List.drop_zero,
    rows_eq_solutions]
  refine List.Perm.dedup (((perm_arranged engine _ _ _ _).map _).trans ?_)
  rw [List.map_map]
  refine .of_eq (List.map_congr_left fun row _ => ?_)
  simp [shown, targets, columnsValue_vars]

/-! ### Values -/

/-- The solution that gives a value to one variable. -/
def Solution.single (name : Variable) (value : Rdf.Term) : Solution :=
  Function.update empty (.var name) (some value)

/-- The solution that gives values to two variables. -/
def Solution.pair (subject object : Variable) (first last : Rdf.Term) : Solution :=
  Function.update (single subject first) (.var object) (some last)

section

omit engine graph

variable {subject object : Variable} {solution : Solution} {first last : Rdf.Term}

theorem Solution.single_self (name : Variable) (value : Rdf.Term) :
    single name value (.var name) = some value :=
  Function.update_self _ _ _

theorem Solution.pair_last : pair subject object first last (.var object) = some last :=
  Function.update_self _ _ _

theorem Solution.pair_first (different : object ≠ subject) :
    pair subject object first last (.var subject) = some first := by
  rw [pair, Function.update_of_ne fun same => different (Unknown.var.inj same).symm]
  exact single_self subject first

theorem Solution.pair_other {unknown : Unknown} (notFirst : unknown ≠ .var subject)
    (notLast : unknown ≠ .var object) : pair subject object first last unknown = none := by
  rw [pair, Function.update_of_ne notLast, single, Function.update_of_ne notFirst]
  rfl

theorem Solution.restrict_var {name : Variable} {names : List Variable} (member : name ∈ names) :
    solution.restrict names (.var name) = solution (.var name) :=
  if_pos member

/-- The value of a variable is all that is seen through it. -/
theorem Solution.restrict_eq_single (known : solution (.var subject) = some first) :
    solution.restrict [subject] = single subject first := by
  funext unknown
  by_cases same : unknown = .var subject
  · subst same
    rw [single_self, ← known, restrict_var List.mem_cons_self]
  · rw [single, Function.update_of_ne same]
    exact Within.restrict solution [subject] unknown fun member =>
      same (by simpa using member)

/-- The values of two variables are all that is seen through them. -/
theorem Solution.restrict_eq_pair (different : object ≠ subject)
    (subjectKnown : solution (.var subject) = some first)
    (objectKnown : solution (.var object) = some last) :
    solution.restrict [subject, object] = pair subject object first last := by
  funext unknown
  by_cases isSubject : unknown = .var subject
  · subst isSubject
    rw [pair_first different, ← subjectKnown, restrict_var List.mem_cons_self]
  · by_cases isObject : unknown = .var object
    · subst isObject
      rw [pair_last, ← objectKnown, restrict_var (List.mem_cons_of_mem _ List.mem_cons_self)]
    · rw [pair_other isSubject isObject]
      exact Within.restrict solution [subject, object] unknown fun member => by
        simp [isSubject, isObject] at member

end

/-- A table with one column of IRIs gives each of them to its variable. -/
theorem Group.solutions_column (target : Variable) (names : List Iri) :
    Group.solutions engine graph [.column target (names.map .iri)] =
      names.map fun name => Solution.single target (.iri name) := by
  rw [Group.solutions_single engine graph fun _ => rfl, Element.column, Element.extend,
    Solution.joined_empty_empty, Data.solutions, Data.column, List.map_map, List.filterMap_map]
  exact congrFun (List.filterMap_eq_map (f := fun name => Solution.single target (.iri name))) names

/-! ### Counts -/

/-- A count of the different values of a variable has one solution. -/
theorem Select.solutions_count (name target : Variable) (pattern : Group) :
    Select.solutions engine graph
        ⟨false, some [.expression (.count true (some (.var name))) target], pattern, .empty⟩ =
      [Solution.single target (.literal
        (.ofInt (valuesOf name (pattern.solutions engine graph)).dedup.length))] := by
  have shows (value : Rdf.Term) :
      (Solution.single target value).restrict [target] = Solution.single target value :=
    Solution.restrict_eq_single (Solution.single_self target value)
  rw [← shows]
  simp [Select.solutions, Modifier.empty, sliced, rows_eq_solutions, Projection.aggregates,
    Expression.aggregates, groupedBy, arranged, columnsValue, shown, Projection.target, counted,
    Expression.value, valuesOf, Solution.single]

/-- A selection of the values of one variable has each of them once. -/
theorem Select.perm_valuesOf (name : Variable) (pattern : Group) (orderBy : List OrderCondition) :
    (valuesOf name (Select.solutions engine graph
        ⟨true, some [.var name], pattern, ⟨[], orderBy, none, none⟩⟩)).Perm
      (valuesOf name (pattern.solutions engine graph)).dedup := by
  refine ((perm_solutions_vars engine graph [name] pattern orderBy).filterMap _).trans ?_
  refine (List.perm_ext_iff_of_nodup ?_ (List.nodup_dedup _)).2 fun value => ?_
  · -- What is seen through one variable is told by its value.
    refine List.pairwise_filterMap.2 ((List.nodup_dedup _).imp_of_mem ?_)
    intro first second firstMember secondMember different value known other otherKnown same
    obtain ⟨_, -, rfl⟩ := List.mem_map.1 (List.mem_dedup.1 firstMember)
    obtain ⟨_, -, rfl⟩ := List.mem_map.1 (List.mem_dedup.1 secondMember)
    rw [Solution.restrict_var List.mem_cons_self] at known otherKnown
    refine different ?_
    rw [Solution.restrict_eq_single known, Solution.restrict_eq_single otherKnown, same]
  · simp only [List.mem_dedup, mem_valuesOf, List.mem_filterMap, List.mem_map,
      exists_exists_and_eq_and, Solution.restrict_var List.mem_cons_self]

/-! ### Triples -/

omit engine in
theorem TriplePattern.solutions_predicate {subject object : Variable}
    (different : object ≠ subject) (predicate : Iri) (context : Solution) :
    (⟨.var subject, .predicate predicate, .var object⟩ : TriplePattern).solutions graph context =
      (graph.edges predicate).map fun edge => Solution.pair subject object edge.1 edge.2 := by
  have assigned (first last : Rdf.Term) :
      ((Term.var subject).assign .empty first).bind (fun next => (Term.var object).assign next last) =
        some (Solution.pair subject object first last) := by
    have free : Solution.single subject first (.var object) = none :=
      Function.update_of_ne (fun same => different (Unknown.var.inj same)) _ _
    exact Solution.assign_of_none free last
  rw [← List.filterMap_eq_map]
  exact List.filterMap_congr fun edge _ => assigned edge.1 edge.2

omit engine in
theorem TriplePattern.mem_solutions_predicate {subject object : Variable}
    (different : object ≠ subject) {predicate : Iri} {context solution : Solution} :
    solution ∈ (⟨.var subject, .predicate predicate, .var object⟩ : TriplePattern).solutions graph
        context ↔
      ∃ first last, (first, last) ∈ graph.edges predicate ∧
        solution = Solution.pair subject object first last := by
  rw [solutions_predicate graph different]
  simp only [List.mem_map, Prod.exists]
  exact exists_congr fun first => exists_congr fun last => and_congr_right fun _ => eq_comm

/-- A triple between two variables tells the edges of its predicate. -/
theorem Group.solutions_edges {subject object : Variable} (different : object ≠ subject)
    (predicate : Iri) :
    Group.solutions engine graph [.ofTriple (.var subject) (.predicate predicate) (.var object)] =
      (graph.edges predicate).map fun edge => Solution.pair subject object edge.1 edge.2 := by
  rw [Group.solutions_single engine graph fun _ => rfl, Element.ofTriple, Element.extend,
    Solution.joined_empty_empty, TriplePattern.solutions_predicate graph different]

/-- The solutions of a group before its filters are checked. -/
noncomputable def Group.candidates (group : Group) : List Solution :=
  extendAll engine graph .empty .empty group

/-- A triple with an unknown of its own pairs the resources of a group with the ends of its
edges. The filters of the group are checked after the triple, but see the same values. -/
theorem Group.mem_solutions_append_triple {subject object : Variable} {predicate : Iri}
    {group : Group} (free : .var object ∉ group.unknowns) (different : object ≠ subject)
    (binds : ∀ solution ∈ group.candidates engine graph, solution.Binds subject)
    {solution : Solution} :
    solution ∈ Group.solutions engine graph
        (group ++ [.ofTriple (.var subject) (.predicate predicate) (.var object)]) ↔
      ∃ inner ∈ group.solutions engine graph, ∃ first last,
        inner (.var subject) = some first ∧ (first, last) ∈ graph.edges predicate ∧
          solution = inner.merge (Solution.pair subject object first last) := by
  have within := extendAll_within engine graph group .empty .empty (Solution.within_empty _)
    (List.Subset.refl _)
  have kept {inner : Solution} {first : Rdf.Term} (last : Rdf.Term)
      (known : inner (.var subject) = some first) :
      passes engine graph (inner.merge (Solution.pair subject object first last)) group =
        passes engine graph inner group := by
    refine passes_congr engine graph group fun unknown member => ?_
    by_cases isSubject : unknown = .var subject
    · rw [isSubject, known, merge_of_some known]
    · rw [Solution.merge, Solution.pair_other isSubject fun same => free (same ▸ member),
        Option.or_none]
  have compatible {inner : Solution} {first : Rdf.Term} (last : Rdf.Term)
      (member : inner ∈ group.candidates engine graph) (known : inner (.var subject) = some first) :
      inner.Compatible (Solution.pair subject object first last) := by
    intro unknown left right leftKnown rightKnown
    by_cases isSubject : unknown = .var subject
    · rw [isSubject, known] at leftKnown
      rw [isSubject, Solution.pair_first different] at rightKnown
      exact Option.some.inj (leftKnown.symm.trans rightKnown)
    · by_cases isObject : unknown = .var object
      · rw [isObject, within inner member _ free] at leftKnown
        cases leftKnown
      · rw [Solution.pair_other isSubject isObject] at rightKnown
        cases rightKnown
  have joined (inner : Solution) : solution ∈ extendAll engine graph .empty inner
      [.ofTriple (.var subject) (.predicate predicate) (.var object)] ↔
        ∃ first last, (first, last) ∈ graph.edges predicate ∧
          inner.Compatible (Solution.pair subject object first last) ∧
            solution = inner.merge (Solution.pair subject object first last) := by
    rw [extendAll, List.mem_flatMap]
    simp only [extendAll, List.mem_singleton, exists_eq_right', Element.ofTriple, Element.extend,
      mem_joined, Solution.merge_empty, TriplePattern.mem_solutions_predicate graph different]
    constructor
    · rintro ⟨_, ⟨first, last, edge, rfl⟩, fits, same⟩
      exact ⟨first, last, edge, fits, same⟩
    · rintro ⟨first, last, edge, fits, same⟩
      exact ⟨_, ⟨first, last, edge, rfl⟩, fits, same⟩
  have holds (view : Solution) : passes engine graph view
      [.ofTriple (.var subject) (.predicate predicate) (.var object)] = true := rfl
  simp only [Group.solutions, accepted, List.mem_filter, extendAll_append, passes_append,
    List.mem_flatMap, Solution.merge_empty, joined, holds, Bool.and_true]
  constructor
  · rintro ⟨⟨inner, member, first, last, edge, fits, rfl⟩, filtered⟩
    obtain ⟨value, known⟩ := binds inner member
    have same := fits _ _ _ known (Solution.pair_first different)
    subst same
    exact ⟨inner, ⟨member, (kept last known).symm.trans filtered⟩, value, last, known, edge, rfl⟩
  · rintro ⟨inner, ⟨member, filtered⟩, first, last, known, edge, rfl⟩
    exact ⟨⟨inner, member, first, last, edge, compatible last member known, rfl⟩,
      (kept last known).trans filtered⟩

/-- A selection of the resources of a group and of the ends of their edges has each pair once. -/
theorem Select.perm_solutions_pairs {subject object : Variable} {predicate : Iri}
    {group : Group} (free : .var object ∉ group.unknowns) (different : object ≠ subject)
    (binds : ∀ solution ∈ group.candidates engine graph, solution.Binds subject)
    (orderBy : List OrderCondition) :
    (Select.solutions engine graph ⟨true, some [.var subject, .var object],
        group ++ [.ofTriple (.var subject) (.predicate predicate) (.var object)],
        ⟨[], orderBy, none, none⟩⟩).Perm
      (((graph.edges predicate).filter fun edge =>
          edge.1 ∈ (valuesOf subject (group.solutions engine graph)).dedup).dedup.map fun edge =>
        Solution.pair subject object edge.1 edge.2) := by
  refine (perm_solutions_vars engine graph [subject, object] _ orderBy).trans ?_
  have injective : Function.Injective fun edge : Rdf.Term × Rdf.Term =>
      Solution.pair subject object edge.1 edge.2 := by
    intro one other same
    have firsts : Solution.pair subject object one.1 one.2 (.var subject) =
        Solution.pair subject object other.1 other.2 (.var subject) := congrFun same _
    have lasts : Solution.pair subject object one.1 one.2 (.var object) =
        Solution.pair subject object other.1 other.2 (.var object) := congrFun same _
    rw [Solution.pair_first different, Solution.pair_first different] at firsts
    rw [Solution.pair_last, Solution.pair_last] at lasts
    exact Prod.ext (Option.some.inj firsts) (Option.some.inj lasts)
  have shows {inner : Solution} {first : Rdf.Term} (last : Rdf.Term)
      (member : inner ∈ group.solutions engine graph) (known : inner (.var subject) = some first) :
      (inner.merge (Solution.pair subject object first last)).restrict [subject, object] =
        Solution.pair subject object first last := by
    refine Solution.restrict_eq_pair different (merge_of_some known _) ?_
    rw [merge_of_none (accepted_within engine graph .empty group inner member _ free)]
    exact Solution.pair_last
  refine (List.perm_ext_iff_of_nodup (List.nodup_dedup _)
    ((List.nodup_dedup _).map injective)).2 fun row => ?_
  simp only [List.mem_dedup, List.mem_map, List.mem_filter, Prod.exists, mem_valuesOf,
    decide_eq_true_eq, Group.mem_solutions_append_triple engine graph free different binds]
  constructor
  · rintro ⟨_, ⟨inner, member, first, last, known, edge, rfl⟩, rfl⟩
    exact ⟨first, last, ⟨edge, inner, member, known⟩, (shows last member known).symm⟩
  · rintro ⟨first, last, ⟨edge, inner, member, known⟩, rfl⟩
    exact ⟨_, ⟨inner, member, first, last, known, edge, rfl⟩, shows last member known⟩

end

end ShapeQuery.Sparql
