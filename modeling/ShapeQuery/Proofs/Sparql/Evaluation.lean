/-
This file evaluates patterns and expressions over a graph. A group is evaluated element by element;
every element but a filter joins solutions of its own to the current one, an optional pattern only
where there are some. The filters of a group are checked at its end, those of an optional pattern
where it is joined. A pattern inside of an expression is evaluated in the context of the solution
that the expression is about.
-/
import ShapeQuery.Proofs.Sparql.Reachability
import ShapeQuery.Proofs.Sparql.Solution

namespace ShapeQuery

/-- A truth value as a term. -/
def Rdf.Term.ofBool (value : Bool) : Rdf.Term :=
  .literal (.ofBool value)

/-- Whether a term is a blank node. -/
def Rdf.Term.isBlank : Rdf.Term → Bool
  | .blank _ => true
  | _ => false

namespace Sparql

/-! ### Engines -/

/-- What an evaluation leaves to the query engine: the truth of values, comparisons, functions,
sums, the order of solutions, and services. An absent result is an error. -/
structure Engine where
  truth : Rdf.Term → Option Bool
  compare : Rdf.Term → Comparison → Rdf.Term → Option Bool
  call : Function → List Rdf.Term → Option Rdf.Term
  sum : List Rdf.Term → Option Rdf.Term
  order : Option Rdf.Term → Option Rdf.Term → Ordering
  service : Iri → Group → List Solution
  truth_ofBool : ∀ value, truth (.ofBool value) = some value
  /-- Two IRIs are equal if they are the same. -/
  compare_iri : ∀ first second,
    compare (.iri first) .equal (.iri second) = some (decide (first = second))
  /-- A service gives values to what its pattern names. -/
  service_within : ∀ name pattern, ∀ solution ∈ service name pattern,
    solution.Within pattern.unknowns
  /-- What a service finds does not depend on the names in its pattern. -/
  service_renamed : ∀ name pattern (renamer : Renaming),
    service name (renamer.replacement.group pattern) =
      (service name pattern).map renamer.solution

/-- The engine that knows truth values and the equality of terms, and nothing else. -/
def Engine.plain : Engine where
  truth value :=
    if value = .ofBool true then some true
    else if value = .ofBool false then some false
    else none
  compare first comparison second :=
    if comparison = .equal then some (decide (first = second)) else none
  call _ _ := none
  sum _ := none
  order _ _ := .eq
  service _ _ := []
  truth_ofBool value := by cases value <;> decide
  compare_iri first second := by simp
  service_within _ _ _ member := absurd member List.not_mem_nil
  service_renamed _ _ _ := rfl

/-! ### Truth -/

/-- Whether one of two conditions holds, either of which may be an error. -/
def either : Option Bool → Option Bool → Option Bool
  | some true, _ => some true
  | _, some true => some true
  | some false, some false => some false
  | _, _ => none

/-- Whether both of two conditions hold, either of which may be an error. -/
def both : Option Bool → Option Bool → Option Bool
  | some false, _ => some false
  | _, some false => some false
  | some true, some true => some true
  | _, _ => none

namespace Engine

/-- The truth of a value that may be an error. -/
def truth? (engine : Engine) (value : Option Rdf.Term) : Option Bool :=
  value.bind engine.truth

/-- Whether a value is one of some choices. -/
def isOneOf (engine : Engine) (value : Option Rdf.Term) (choices : List (Option Rdf.Term)) :
    Option Bool :=
  (choices.map fun choice => do engine.compare (← value) .equal (← choice)).foldr either
    (some false)

/-- The value of a function. -/
def apply (engine : Engine) (function : Function) (arguments : List (Option Rdf.Term)) :
    Option Rdf.Term :=
  match function, arguments with
  | .bound, [argument] => some (.ofBool argument.isSome)
  | .isBlank, [argument] => argument.map fun value => .ofBool value.isBlank
  | function, arguments => (arguments.mapM id).bind (engine.call function)

/-- Whether the keys of one solution may come before those of another one. -/
def mayPrecede (engine : Engine) :
    List (Bool × Option Rdf.Term) → List (Bool × Option Rdf.Term) → Bool
  | (descending, first) :: rest, (_, second) :: others =>
    match if descending then engine.order second first else engine.order first second with
    | .lt => true
    | .gt => false
    | .eq => mayPrecede engine rest others
  | _, _ => true

end Engine

/-! ### Terms and triples -/

/-- The value of a term under a solution. -/
def Term.value (solution : Solution) : Term → Option Rdf.Term
  | .var name => solution (.var name)
  | .iri name => some (.iri name)
  | .literal value => some (.literal value)
  | .blank label => solution (.blank label)

/-- A solution under which a term has a value, if there is one. -/
def Term.assign (solution : Solution) (value : Rdf.Term) : Term → Option Solution
  | .var name => solution.assign (.var name) value
  | .iri name => if value = .iri name then some solution else none
  | .literal written => if value = .literal written then some solution else none
  | .blank label => solution.assign (.blank label) value

/-- The solutions of a triple. -/
noncomputable def TriplePattern.solutions (graph : Rdf.Graph) (context : Solution)
    (triple : TriplePattern) : List Solution :=
  match triple.verb with
  | .var name => graph.triples.filterMap fun found => do
    let solution ← triple.subject.assign .empty found.subject.term
    let solution ← solution.assign (.var name) (.iri found.predicate)
    triple.object.assign solution found.object
  | .path path =>
    (path.pairs graph (triple.subject.value context) (triple.object.value context)).filterMap
      fun pair => do triple.object.assign (← triple.subject.assign .empty pair.1) pair.2

/-! ### Tables -/

/-- A solution with the values of a row. -/
def assignRow (solution : Solution) : List (Variable × Option Term) → Option Solution
  | [] => some solution
  | (name, cell) :: rest =>
    match cell.bind (Term.value .empty) with
    | none => assignRow solution rest
    | some value => do assignRow (← solution.assign (.var name) value) rest

/-- The solutions of a table. -/
def Data.solutions (data : Data) : List Solution :=
  data.rows.filterMap fun row => assignRow .empty (data.columns.zip row)

/-! ### Selections -/

mutual

/-- Whether an expression is about several solutions at once. -/
def Expression.aggregates : Expression → Bool
  | .or operands => listAggregates operands
  | .and operands => listAggregates operands
  | .compare left _ right => left.aggregates || right.aggregates
  | .oneOf value choices => value.aggregates || listAggregates choices
  | .noneOf value choices => value.aggregates || listAggregates choices
  | .not operand => operand.aggregates
  | .call _ arguments => listAggregates arguments
  | .count _ _ => true
  | .sum _ _ => true
  | _ => false

/-- Whether one of some expressions is about several solutions at once. -/
def listAggregates : List Expression → Bool
  | [] => false
  | expression :: rest => expression.aggregates || listAggregates rest

end

/-- Whether a column is about several solutions at once. -/
def Projection.aggregates : Projection → Bool
  | .var _ => false
  | .expression value _ => value.aggregates

/-- The variable of a column. -/
def Projection.target : Projection → Variable
  | .var name => name
  | .expression _ target => target

noncomputable instance : DecidableEq Solution := Classical.decEq _

/-- The solutions of a pattern, grouped by the values of some variables. -/
noncomputable def groupedBy (names : List Variable) (rows : List Solution) :
    List (List Solution × Solution) :=
  if names.isEmpty then [(rows, .empty)]
  else (rows.map fun row => row.restrict names).dedup.map fun key =>
    (rows.filter fun row => row.restrict names = key, key)

/-- The solutions of a selection in their order: one for each group, with the values of its
columns. -/
noncomputable def arranged (engine : Engine) (groups : List (List Solution × Solution))
    (view : List Solution → Solution → Solution)
    (keys : List Solution → Solution → List (Bool × Option Rdf.Term)) : List Solution :=
  ((groups.map fun group =>
    (keys group.1 (view group.1 group.2), view group.1 group.2)).mergeSort
      fun first second => engine.mayPrecede first.1 second.1).map Prod.snd

/-- What a selection shows of its solutions. -/
def shown : Option (List Projection) → Solution → Solution
  | none, solution => solution.named
  | some columns, solution => solution.restrict (columns.map Projection.target)

/-- A slice of some solutions, each of them once if only different ones are asked for. -/
noncomputable def sliced (distinct : Bool) (limit offset : Option Nat)
    (solutions : List Solution) : List Solution :=
  let solutions := (if distinct then solutions.dedup else solutions).drop (offset.getD 0)
  match limit with
  | none => solutions
  | some limit => solutions.take limit

/-- The number of some values. -/
noncomputable def counted {α : Type} [DecidableEq α] (distinct : Bool) (values : List α) :
    Rdf.Term :=
  .literal (.ofInt (if distinct then values.dedup else values).length)

/-! ### Evaluation -/

mutual

/-- The value of an expression under a solution; aggregates are about the given rows. -/
noncomputable def Expression.value (engine : Engine) (graph : Rdf.Graph)
    (rows : List Solution) (view : Solution) : Expression → Option Rdf.Term
  | .var name => view (.var name)
  | .iri name => some (.iri name)
  | .literal value => some (.literal value)
  | .or operands =>
    (((listValues engine graph rows view operands).map engine.truth?).foldr either
      (some false)).map .ofBool
  | .and operands =>
    (((listValues engine graph rows view operands).map engine.truth?).foldr both
      (some true)).map .ofBool
  | .compare left comparison right => do
    let left ← left.value engine graph rows view
    let right ← right.value engine graph rows view
    return .ofBool (← engine.compare left comparison right)
  | .oneOf value choices =>
    (engine.isOneOf (value.value engine graph rows view)
      (listValues engine graph rows view choices)).map .ofBool
  | .noneOf value choices =>
    (engine.isOneOf (value.value engine graph rows view)
      (listValues engine graph rows view choices)).map fun found => .ofBool !found
  | .not operand =>
    (engine.truth? (operand.value engine graph rows view)).map fun holds => .ofBool !holds
  | .call function arguments =>
    engine.apply function (listValues engine graph rows view arguments)
  | .exists pattern =>
    some (.ofBool ((extendAll engine graph view .empty pattern).any fun solution =>
      passes engine graph (solution.merge view) pattern))
  | .notExists pattern =>
    some (.ofBool !((extendAll engine graph view .empty pattern).any fun solution =>
      passes engine graph (solution.merge view) pattern))
  | .count distinct none => some (counted distinct rows)
  | .count distinct (some expression) =>
    some (counted distinct (rows.filterMap fun row => expression.value engine graph [] row))
  | .sum distinct expression => do
    let values ← rows.mapM fun row => expression.value engine graph [] row
    engine.sum (if distinct then values.dedup else values)

/-- The values of some expressions. -/
noncomputable def listValues (engine : Engine) (graph : Rdf.Graph) (rows : List Solution)
    (view : Solution) : List Expression → List (Option Rdf.Term)
  | [] => []
  | expression :: rest =>
    expression.value engine graph rows view :: listValues engine graph rows view rest

/-- The solutions of an element that extend the current one. -/
noncomputable def Element.extend (engine : Engine) (graph : Rdf.Graph)
    (context current : Solution) : Element → List Solution
  | .triple triple => Solution.joined context current (triple.solutions graph context)
  | .optional pattern =>
    let found := (Solution.joined context current
      (extendAll engine graph context .empty pattern)).filter fun solution =>
        passes engine graph (solution.merge context) pattern
    if found.isEmpty then [current] else found
  | .union branches =>
    Solution.joined context current (branchSolutions engine graph context branches)
  | .group pattern =>
    Solution.joined context current
      ((extendAll engine graph context .empty pattern).filter fun solution =>
        passes engine graph (solution.merge context) pattern)
  | .filter _ => [current]
  | .values data => Solution.joined context current data.solutions
  | .bind expression target =>
    match expression.value engine graph [] (current.merge context) with
    | none => [current]
    | some value =>
      Solution.joined context current [Function.update Solution.empty (.var target) (some value)]
  | .service name _ pattern =>
    Solution.joined context current (engine.service name pattern)
  | .select query => Solution.joined context current (query.solutions engine graph)

/-- The solutions of some elements that extend the current one. -/
noncomputable def extendAll (engine : Engine) (graph : Rdf.Graph) (context current : Solution) :
    List Element → List Solution
  | [] => [current]
  | element :: rest =>
    (element.extend engine graph context current).flatMap fun solution =>
      extendAll engine graph context solution rest

/-- Whether an element that is a filter holds. -/
noncomputable def Element.holds (engine : Engine) (graph : Rdf.Graph) (view : Solution) :
    Element → Bool
  | .filter condition => engine.truth? (condition.value engine graph [] view) = some true
  | _ => true

/-- Whether the filters of a group hold. -/
noncomputable def passes (engine : Engine) (graph : Rdf.Graph) (view : Solution) :
    List Element → Bool
  | [] => true
  | element :: rest => element.holds engine graph view && passes engine graph view rest

/-- The solutions of some groups in a context. -/
noncomputable def branchSolutions (engine : Engine) (graph : Rdf.Graph) (context : Solution) :
    List (List Element) → List Solution
  | [] => []
  | branch :: rest =>
    (extendAll engine graph context .empty branch).filter (fun solution =>
      passes engine graph (solution.merge context) branch)
      ++ branchSolutions engine graph context rest

/-- A solution with the values of the columns that are computed. -/
noncomputable def columnsValue (engine : Engine) (graph : Rdf.Graph) (rows : List Solution)
    (view : Solution) : List Projection → Solution
  | [] => view
  | .var _ :: rest => columnsValue engine graph rows view rest
  | .expression expression target :: rest =>
    columnsValue engine graph rows
      (Function.update view (.var target) (expression.value engine graph rows view)) rest

/-- The keys of a solution in an order. -/
noncomputable def orderKeys (engine : Engine) (graph : Rdf.Graph) (rows : List Solution)
    (view : Solution) : List OrderCondition → List (Bool × Option Rdf.Term)
  | [] => []
  | .ascending key :: rest =>
    (false, key.value engine graph rows view) :: orderKeys engine graph rows view rest
  | .descending key :: rest =>
    (true, key.value engine graph rows view) :: orderKeys engine graph rows view rest

/-- The solutions of a selection. -/
noncomputable def Select.solutions (engine : Engine) (graph : Rdf.Graph) :
    Select → List Solution
  | ⟨distinct, projection, pattern, ⟨groupBy, orderBy, limit, offset⟩⟩ =>
    let rows := (extendAll engine graph .empty .empty pattern).filter fun solution =>
      passes engine graph solution pattern
    let groups :=
      if (projection.getD []).any Projection.aggregates || !groupBy.isEmpty then
        groupedBy groupBy rows
      else rows.map fun row => ([row], row)
    let ordered := arranged engine groups
      (fun rows view => match projection with
        | none => view
        | some columns => columnsValue engine graph rows view columns)
      (fun rows view => orderKeys engine graph rows view orderBy)
    sliced distinct limit offset (ordered.map (shown projection))

end

/-- The solutions of a group in a context. -/
noncomputable def accepted (engine : Engine) (graph : Rdf.Graph) (context : Solution)
    (pattern : List Element) : List Solution :=
  (extendAll engine graph context .empty pattern).filter fun solution =>
    passes engine graph (solution.merge context) pattern

/-- The solutions of a group. -/
noncomputable def Group.solutions (engine : Engine) (graph : Rdf.Graph) (group : Group) :
    List Solution :=
  accepted engine graph .empty group

/-- Whether a group has a solution. -/
def Group.Solvable (engine : Engine) (graph : Rdf.Graph) (group : Group) : Prop :=
  ∃ solution, solution ∈ group.solutions engine graph

/-! ### Single elements -/

section

variable (engine : Engine) (graph : Rdf.Graph)

theorem Group.solvable_nil : Group.Solvable engine graph [] :=
  ⟨.empty, List.mem_filter.2 ⟨List.mem_cons_self, rfl⟩⟩

/-- A group of one element that is no filter has the solutions of the element. -/
theorem Group.solutions_single {element : Element}
    (unfiltered : ∀ view, element.holds engine graph view = true) :
    Group.solutions engine graph [element] = element.extend engine graph .empty .empty := by
  rw [Group.solutions, accepted, List.filter_eq_self.2]
  · simp [extendAll]
  · intro solution _
    rw [passes, passes, unfiltered, Bool.and_true]

/-- A group with a selection alone has the solutions of the selection. -/
theorem Group.solutions_select (query : Select) :
    Group.solutions engine graph [.select query] = query.solutions engine graph := by
  rw [Group.solutions_single engine graph fun _ => rfl, Element.extend,
    Solution.joined_empty_empty]

/-- A union has the solutions of its branches, one branch after the other. -/
theorem Group.solutions_union (branches : List Group) :
    Group.solutions engine graph [.union branches] =
      branches.flatMap fun branch => branch.solutions engine graph := by
  rw [Group.solutions_single engine graph fun _ => rfl, Element.extend,
    Solution.joined_empty_empty]
  induction branches with
  | nil => rw [branchSolutions, List.flatMap_nil]
  | cons branch rest inductionHypothesis =>
    rw [branchSolutions, inductionHypothesis, List.flatMap_cons]
    rfl

theorem Group.mem_solutions_union {branches : List Group} {solution : Solution} :
    solution ∈ Group.solutions engine graph [.union branches] ↔
      ∃ branch ∈ branches, solution ∈ branch.solutions engine graph := by
  rw [Group.solutions_union, List.mem_flatMap]

/-- A union has a solution if one of its branches has one. -/
theorem Group.solvable_union (branches : List Group) :
    Group.Solvable engine graph [.union branches] ↔
      ∃ branch ∈ branches, branch.Solvable engine graph := by
  simp only [Group.Solvable, Group.mem_solutions_union]
  exact ⟨fun ⟨solution, branch, member, found⟩ => ⟨branch, member, solution, found⟩,
    fun ⟨branch, member, solution, found⟩ => ⟨solution, branch, member, found⟩⟩

/-- A demanded pattern leaves a solution if it has one itself. -/
theorem Group.solvable_exists (pattern : Group) :
    Group.Solvable engine graph [.filter (.exists pattern)] ↔ pattern.Solvable engine graph := by
  have value : Expression.value engine graph [] .empty (.exists pattern) =
      some (.ofBool ((extendAll engine graph .empty .empty pattern).any fun solution =>
        passes engine graph (solution.merge .empty) pattern)) := rfl
  have found : pattern.Solvable engine graph ↔
      ((extendAll engine graph .empty .empty pattern).any fun solution =>
        passes engine graph (solution.merge .empty) pattern) = true := by
    simp [Group.Solvable, Group.solutions, accepted]
  rw [found]
  simp [Group.Solvable, Group.solutions, accepted, extendAll, Element.extend, passes,
    Element.holds, value, Engine.truth?, engine.truth_ofBool]

/-- A forbidden pattern leaves a solution if it has none itself. -/
theorem Group.solvable_notExists (pattern : Group) :
    Group.Solvable engine graph [.filter (.notExists pattern)] ↔
      ¬ pattern.Solvable engine graph := by
  have value : Expression.value engine graph [] .empty (.notExists pattern) =
      some (.ofBool !((extendAll engine graph .empty .empty pattern).any fun solution =>
        passes engine graph (solution.merge .empty) pattern)) := rfl
  have found : pattern.Solvable engine graph ↔
      ((extendAll engine graph .empty .empty pattern).any fun solution =>
        passes engine graph (solution.merge .empty) pattern) = true := by
    simp [Group.Solvable, Group.solutions, accepted]
  rw [found]
  simp [Group.Solvable, Group.solutions, accepted, extendAll, Element.extend, passes,
    Element.holds, value, Engine.truth?, engine.truth_ofBool]

end

end Sparql

end ShapeQuery
