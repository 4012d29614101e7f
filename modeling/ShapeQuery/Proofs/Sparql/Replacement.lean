/-
This file defines what patterns and expressions name, and replaces it. An atom is a term or the
target of a value, as it is written; a replacement acts on every atom, also in the patterns inside
of expressions. Targets stay variables, so that a replacement of a variable by an IRI is meant for
groups that have no target of that name.
-/
import ShapeQuery.Sparql.Group

namespace ShapeQuery.Sparql

/-! ### Unknowns -/

/-- What a solution may give a value to. -/
inductive Unknown where
  | var (name : Variable)
  | blank (label : String)
deriving DecidableEq, Inhabited

/-- The term as an unknown, if it is one. -/
def Term.unknown? : Term → Option Unknown
  | .var name => some (.var name)
  | .iri _ => none
  | .literal _ => none
  | .blank label => some (.blank label)

/-! ### Atoms -/

/-- A term in a pattern or an expression, or a variable that a pattern or a selection gives
values to. -/
inductive Atom where
  | term (term : Term)
  | target (name : Variable)
deriving DecidableEq, Inhabited

/-- The unknown that an atom names. -/
def Atom.unknown? : Atom → Option Unknown
  | .term named => named.unknown?
  | .target name => some (.var name)

/-- The atoms of a triple. -/
def TriplePattern.atoms (triple : TriplePattern) : List Atom :=
  .term triple.subject :: (triple.verb.term?.toList.map .term ++ [.term triple.object])

/-- The atoms of a table. -/
def Data.atoms (data : Data) : List Atom :=
  data.columns.map .target
    ++ data.rows.flatMap fun row => row.flatMap fun cell => cell.toList.map .term

mutual

/-- The atoms of an expression. -/
def Expression.atoms : Expression → List Atom
  | .var name => [.term (.var name)]
  | .iri name => [.term (.iri name)]
  | .literal _ => []
  | .or operands => listAtoms operands
  | .and operands => listAtoms operands
  | .compare left _ right => left.atoms ++ right.atoms
  | .oneOf value choices => value.atoms ++ listAtoms choices
  | .noneOf value choices => value.atoms ++ listAtoms choices
  | .not operand => operand.atoms
  | .call _ arguments => listAtoms arguments
  | .exists pattern => groupAtoms pattern
  | .notExists pattern => groupAtoms pattern
  | .count _ none => []
  | .count _ (some counted) => counted.atoms
  | .sum _ summed => summed.atoms

/-- The atoms of some expressions. -/
def listAtoms : List Expression → List Atom
  | [] => []
  | expression :: rest => expression.atoms ++ listAtoms rest

/-- The atoms of an element. -/
def Element.atoms : Element → List Atom
  | .triple triple => triple.atoms
  | .optional pattern => groupAtoms pattern
  | .union branches => branchAtoms branches
  | .group pattern => groupAtoms pattern
  | .filter condition => condition.atoms
  | .values data => data.atoms
  | .bind value target => value.atoms ++ [.target target]
  | .service _ _ pattern => groupAtoms pattern
  | .select query => query.atoms

/-- The atoms of some elements. -/
def groupAtoms : List Element → List Atom
  | [] => []
  | element :: rest => element.atoms ++ groupAtoms rest

/-- The atoms of some groups. -/
def branchAtoms : List (List Element) → List Atom
  | [] => []
  | branch :: rest => groupAtoms branch ++ branchAtoms rest

/-- The atoms of a column of a selection. -/
def Projection.atoms : Projection → List Atom
  | .var name => [.target name]
  | .expression value target => value.atoms ++ [.target target]

/-- The atoms of some columns. -/
def columnAtoms : List Projection → List Atom
  | [] => []
  | column :: rest => column.atoms ++ columnAtoms rest

/-- The atoms of a criterion. -/
def OrderCondition.atoms : OrderCondition → List Atom
  | .ascending key => key.atoms
  | .descending key => key.atoms

/-- The atoms of some criteria. -/
def criterionAtoms : List OrderCondition → List Atom
  | [] => []
  | criterion :: rest => criterion.atoms ++ criterionAtoms rest

/-- The atoms of a modifier. -/
def Modifier.atoms : Modifier → List Atom
  | ⟨groupBy, orderBy, _, _⟩ => groupBy.map .target ++ criterionAtoms orderBy

/-- The atoms of a selection. -/
def Select.atoms : Select → List Atom
  | ⟨_, none, pattern, modifier⟩ => groupAtoms pattern ++ modifier.atoms
  | ⟨_, some columns, pattern, modifier⟩ =>
    columnAtoms columns ++ groupAtoms pattern ++ modifier.atoms

end

/-- The unknowns that some atoms name. -/
def Atom.unknowns (atoms : List Atom) : List Unknown :=
  atoms.filterMap Atom.unknown?

/-- The unknowns of a group. -/
def Group.unknowns (group : Group) : List Unknown :=
  Atom.unknowns (groupAtoms group)

@[simp] theorem groupAtoms_append (first second : Group) :
    groupAtoms (first ++ second) = groupAtoms first ++ groupAtoms second := by
  induction first with
  | nil => rfl
  | cons element rest inductionHypothesis =>
    rw [List.cons_append, groupAtoms, inductionHypothesis, groupAtoms, List.append_assoc]

@[simp] theorem Atom.unknowns_append (first second : List Atom) :
    Atom.unknowns (first ++ second) = Atom.unknowns first ++ Atom.unknowns second :=
  List.filterMap_append

/-! ### Replacements -/

/-- What takes the place of a variable where it stands for a term. -/
inductive Substitute where
  | iri (name : Iri)
  | var (name : Variable)
deriving DecidableEq, Inhabited

/-- A substitute as a term. -/
def Substitute.term : Substitute → Term
  | .iri name => .iri name
  | .var name => .var name

/-- A substitute as an expression. -/
def Substitute.expression : Substitute → Expression
  | .iri name => .iri name
  | .var name => .var name

/-- A substitute as a verb. -/
def Substitute.verb : Substitute → Verb
  | .iri name => .predicate name
  | .var name => .var name

/-- Says what takes the place of variables, of targets and of labels. -/
@[ext] structure Replacement where
  substitute : Variable → Substitute
  target : Variable → Variable
  label : String → String

namespace Replacement

/-- A term after a replacement. -/
def term (replacement : Replacement) : Term → Term
  | .var name => (replacement.substitute name).term
  | .iri name => .iri name
  | .literal value => .literal value
  | .blank label => .blank (replacement.label label)

/-- An atom after a replacement. -/
def atom (replacement : Replacement) : Atom → Atom
  | .term named => .term (replacement.term named)
  | .target name => .target (replacement.target name)

/-- A verb after a replacement. -/
def verb (replacement : Replacement) : Verb → Verb
  | .var name => (replacement.substitute name).verb
  | .path route => .path route

/-- A triple after a replacement. -/
def triple (replacement : Replacement) (triple : TriplePattern) : TriplePattern :=
  ⟨replacement.term triple.subject, replacement.verb triple.verb,
    replacement.term triple.object⟩

/-- A table after a replacement. -/
def data (replacement : Replacement) (data : Data) : Data :=
  ⟨data.columns.map replacement.target,
    data.rows.map fun row => row.map fun cell => cell.map replacement.term⟩

mutual

/-- An expression after a replacement. -/
def expression (replacement : Replacement) : Expression → Expression
  | .var name => (replacement.substitute name).expression
  | .iri name => .iri name
  | .literal value => .literal value
  | .or operands => .or (replacement.list operands)
  | .and operands => .and (replacement.list operands)
  | .compare left comparison right =>
    .compare (replacement.expression left) comparison (replacement.expression right)
  | .oneOf value choices => .oneOf (replacement.expression value) (replacement.list choices)
  | .noneOf value choices => .noneOf (replacement.expression value) (replacement.list choices)
  | .not operand => .not (replacement.expression operand)
  | .call function arguments => .call function (replacement.list arguments)
  | .exists pattern => .exists (replacement.group pattern)
  | .notExists pattern => .notExists (replacement.group pattern)
  | .count distinct none => .count distinct none
  | .count distinct (some counted) => .count distinct (some (replacement.expression counted))
  | .sum distinct summed => .sum distinct (replacement.expression summed)

/-- Some expressions after a replacement. -/
def list (replacement : Replacement) : List Expression → List Expression
  | [] => []
  | expression :: rest => replacement.expression expression :: replacement.list rest

/-- An element after a replacement. -/
def element (replacement : Replacement) : Element → Element
  | .triple triple => .triple (replacement.triple triple)
  | .optional pattern => .optional (replacement.group pattern)
  | .union branches => .union (replacement.branches branches)
  | .group pattern => .group (replacement.group pattern)
  | .filter condition => .filter (replacement.expression condition)
  | .values data => .values (replacement.data data)
  | .bind value target => .bind (replacement.expression value) (replacement.target target)
  | .service name silent pattern => .service name silent (replacement.group pattern)
  | .select query => .select (replacement.select query)

/-- A group after a replacement. -/
def group (replacement : Replacement) : List Element → List Element
  | [] => []
  | element :: rest => replacement.element element :: replacement.group rest

/-- Some groups after a replacement. -/
def branches (replacement : Replacement) : List (List Element) → List (List Element)
  | [] => []
  | branch :: rest => replacement.group branch :: replacement.branches rest

/-- A column after a replacement. -/
def column (replacement : Replacement) : Projection → Projection
  | .var name => .var (replacement.target name)
  | .expression value target =>
    .expression (replacement.expression value) (replacement.target target)

/-- Some columns after a replacement. -/
def columns (replacement : Replacement) : List Projection → List Projection
  | [] => []
  | column :: rest => replacement.column column :: replacement.columns rest

/-- A criterion after a replacement. -/
def criterion (replacement : Replacement) : OrderCondition → OrderCondition
  | .ascending key => .ascending (replacement.expression key)
  | .descending key => .descending (replacement.expression key)

/-- Some criteria after a replacement. -/
def criteria (replacement : Replacement) : List OrderCondition → List OrderCondition
  | [] => []
  | criterion :: rest => replacement.criterion criterion :: replacement.criteria rest

/-- A modifier after a replacement. -/
def modifier (replacement : Replacement) : Modifier → Modifier
  | ⟨groupBy, orderBy, limit, offset⟩ =>
    ⟨groupBy.map replacement.target, replacement.criteria orderBy, limit, offset⟩

/-- A selection after a replacement. -/
def select (replacement : Replacement) : Select → Select
  | ⟨distinct, none, pattern, modifier⟩ =>
    ⟨distinct, none, replacement.group pattern, replacement.modifier modifier⟩
  | ⟨distinct, some columns, pattern, modifier⟩ =>
    ⟨distinct, some (replacement.columns columns), replacement.group pattern,
      replacement.modifier modifier⟩

end

/-- What takes the place of a substitute after a further replacement. -/
def again (replacement : Replacement) : Substitute → Substitute
  | .iri name => .iri name
  | .var name => replacement.substitute name

/-- One replacement after another. -/
def after (second first : Replacement) : Replacement where
  substitute name := second.again (first.substitute name)
  target name := second.target (first.target name)
  label text := second.label (first.label text)

/-- The replacement of one variable by an IRI. -/
def single (name : Variable) (iri : Iri) : Replacement where
  substitute other := if other = name then .iri iri else .var other
  target other := other
  label text := text

theorem group_append (replacement : Replacement) (first second : Group) :
    replacement.group (first ++ second) =
      replacement.group first ++ replacement.group second := by
  induction first with
  | nil => rfl
  | cons element rest inductionHypothesis =>
    rw [List.cons_append, group, inductionHypothesis, group, List.cons_append]

theorem group_eq_map (replacement : Replacement) (group : Group) :
    replacement.group group = group.map replacement.element := by
  induction group with
  | nil => rfl
  | cons element rest inductionHypothesis =>
    rw [Replacement.group, inductionHypothesis, List.map_cons]

theorem branches_eq_map (replacement : Replacement) (branches : List Group) :
    replacement.branches branches = branches.map replacement.group := by
  induction branches with
  | nil => rfl
  | cons branch rest inductionHypothesis =>
    rw [Replacement.branches, inductionHypothesis, List.map_cons]

theorem list_eq_map (replacement : Replacement) (expressions : List Expression) :
    replacement.list expressions = expressions.map replacement.expression := by
  induction expressions with
  | nil => rfl
  | cons expression rest inductionHypothesis =>
    rw [Replacement.list, inductionHypothesis, List.map_cons]

/-! ### The atoms of a replaced group -/

theorem atoms_substitute (substitute : Substitute) :
    substitute.expression.atoms = [.term substitute.term] := by
  cases substitute <;> rfl

theorem term?_verb (replacement : Replacement) (verb : Verb) :
    (replacement.verb verb).term? = verb.term?.map replacement.term := by
  cases verb with
  | var name =>
    rw [Replacement.verb, Verb.term?, Option.map_some, Replacement.term]
    cases replacement.substitute name <;> rfl
  | path route => cases route <;> rfl

theorem atoms_triple (replacement : Replacement) (triple : TriplePattern) :
    (replacement.triple triple).atoms = triple.atoms.map replacement.atom := by
  simp only [TriplePattern.atoms, Replacement.triple, term?_verb, List.map_cons,
    List.map_append, List.map_nil, Replacement.atom]
  cases triple.verb.term? <;> rfl

theorem atoms_data (replacement : Replacement) (data : Data) :
    (replacement.data data).atoms = data.atoms.map replacement.atom := by
  simp only [Data.atoms, Replacement.data, List.map_append, List.map_map, List.map_flatMap,
    List.flatMap_map]
  congr 1
  refine congrArg (List.flatMap · data.rows) (funext fun row => ?_)
  refine congrArg (List.flatMap · row) (funext fun cell => ?_)
  cases cell <;> rfl

mutual

theorem atoms_expression (replacement : Replacement) (expression : Expression) :
    (replacement.expression expression).atoms = expression.atoms.map replacement.atom := by
  match expression with
  | .var name => exact atoms_substitute _
  | .iri name => rfl
  | .literal value => rfl
  | .or operands => exact atoms_list replacement operands
  | .and operands => exact atoms_list replacement operands
  | .compare left comparison right =>
    simp only [Replacement.expression, Expression.atoms, List.map_append,
      atoms_expression replacement left, atoms_expression replacement right]
  | .oneOf value choices =>
    simp only [Replacement.expression, Expression.atoms, List.map_append,
      atoms_expression replacement value, atoms_list replacement choices]
  | .noneOf value choices =>
    simp only [Replacement.expression, Expression.atoms, List.map_append,
      atoms_expression replacement value, atoms_list replacement choices]
  | .not operand => exact atoms_expression replacement operand
  | .call function arguments => exact atoms_list replacement arguments
  | .exists pattern => exact atoms_group replacement pattern
  | .notExists pattern => exact atoms_group replacement pattern
  | .count distinct none => rfl
  | .count distinct (some counted) => exact atoms_expression replacement counted
  | .sum distinct summed => exact atoms_expression replacement summed

theorem atoms_list (replacement : Replacement) (expressions : List Expression) :
    listAtoms (replacement.list expressions) =
      (listAtoms expressions).map replacement.atom := by
  match expressions with
  | [] => rfl
  | expression :: rest =>
    rw [Replacement.list, listAtoms, listAtoms, List.map_append,
      atoms_expression replacement expression, atoms_list replacement rest]

theorem atoms_element (replacement : Replacement) (element : Element) :
    (replacement.element element).atoms = element.atoms.map replacement.atom := by
  match element with
  | .triple triple => exact atoms_triple replacement triple
  | .optional pattern => exact atoms_group replacement pattern
  | .union branches => exact atoms_branches replacement branches
  | .group pattern => exact atoms_group replacement pattern
  | .filter condition => exact atoms_expression replacement condition
  | .values data => exact atoms_data replacement data
  | .bind value target =>
    simp only [Replacement.element, Element.atoms, List.map_append,
      atoms_expression replacement value]
    rfl
  | .service name silent pattern => exact atoms_group replacement pattern
  | .select query => exact atoms_select replacement query

theorem atoms_group (replacement : Replacement) (group : Group) :
    groupAtoms (replacement.group group) = (groupAtoms group).map replacement.atom := by
  match group with
  | [] => rfl
  | element :: rest =>
    rw [Replacement.group, groupAtoms, groupAtoms, List.map_append,
      atoms_element replacement element, atoms_group replacement rest]

theorem atoms_branches (replacement : Replacement) (branches : List Group) :
    branchAtoms (replacement.branches branches) =
      (branchAtoms branches).map replacement.atom := by
  match branches with
  | [] => rfl
  | branch :: rest =>
    rw [Replacement.branches, branchAtoms, branchAtoms, List.map_append,
      atoms_group replacement branch, atoms_branches replacement rest]

theorem atoms_column (replacement : Replacement) (column : Projection) :
    (replacement.column column).atoms = column.atoms.map replacement.atom := by
  match column with
  | .var name => rfl
  | .expression value target =>
    simp only [Replacement.column, Projection.atoms, List.map_append,
      atoms_expression replacement value]
    rfl

theorem atoms_columns (replacement : Replacement) (columns : List Projection) :
    columnAtoms (replacement.columns columns) =
      (columnAtoms columns).map replacement.atom := by
  match columns with
  | [] => rfl
  | column :: rest =>
    rw [Replacement.columns, columnAtoms, columnAtoms, List.map_append,
      atoms_column replacement column, atoms_columns replacement rest]

theorem atoms_criterion (replacement : Replacement) (criterion : OrderCondition) :
    (replacement.criterion criterion).atoms = criterion.atoms.map replacement.atom := by
  match criterion with
  | .ascending key => exact atoms_expression replacement key
  | .descending key => exact atoms_expression replacement key

theorem atoms_criteria (replacement : Replacement) (criteria : List OrderCondition) :
    criterionAtoms (replacement.criteria criteria) =
      (criterionAtoms criteria).map replacement.atom := by
  match criteria with
  | [] => rfl
  | criterion :: rest =>
    rw [Replacement.criteria, criterionAtoms, criterionAtoms, List.map_append,
      atoms_criterion replacement criterion, atoms_criteria replacement rest]

theorem atoms_modifier (replacement : Replacement) (modifier : Modifier) :
    (replacement.modifier modifier).atoms = modifier.atoms.map replacement.atom := by
  match modifier with
  | ⟨groupBy, orderBy, limit, offset⟩ =>
    simp only [Replacement.modifier, Modifier.atoms, List.map_append, List.map_map,
      atoms_criteria replacement orderBy]
    rfl

theorem atoms_select (replacement : Replacement) (query : Select) :
    (replacement.select query).atoms = query.atoms.map replacement.atom := by
  match query with
  | ⟨distinct, none, pattern, modifier⟩ =>
    simp only [Replacement.select, Select.atoms, List.map_append,
      atoms_group replacement pattern, atoms_modifier replacement modifier]
  | ⟨distinct, some columns, pattern, modifier⟩ =>
    simp only [Replacement.select, Select.atoms, List.map_append,
      atoms_columns replacement columns, atoms_group replacement pattern,
      atoms_modifier replacement modifier]

end

/-! ### Replacements one after another -/

theorem term_after (second first : Replacement) (term : Term) :
    (second.after first).term term = second.term (first.term term) := by
  cases term with
  | var name =>
    show (second.again (first.substitute name)).term = second.term (first.substitute name).term
    cases first.substitute name <;> rfl
  | _ => rfl

theorem verb_after (second first : Replacement) (verb : Verb) :
    (second.after first).verb verb = second.verb (first.verb verb) := by
  cases verb with
  | var name =>
    show (second.again (first.substitute name)).verb = second.verb (first.substitute name).verb
    cases first.substitute name <;> rfl
  | path route => rfl

theorem triple_after (second first : Replacement) (triple : TriplePattern) :
    (second.after first).triple triple = second.triple (first.triple triple) := by
  simp only [Replacement.triple, term_after, verb_after]

theorem data_after (second first : Replacement) (data : Data) :
    (second.after first).data data = second.data (first.data data) := by
  have cells (cell : Option Term) :
      cell.map (second.after first).term = (cell.map first.term).map second.term := by
    cases cell with
    | none => rfl
    | some term => rw [Option.map_some, term_after, Option.map_some, Option.map_some]
  simp only [Replacement.data, List.map_map, Function.comp_def, cells]
  rfl

mutual

theorem expression_after (second first : Replacement) (expression : Expression) :
    (second.after first).expression expression =
      second.expression (first.expression expression) := by
  match expression with
  | .var name =>
    show (second.again (first.substitute name)).expression =
      second.expression (first.substitute name).expression
    cases first.substitute name <;> rfl
  | .iri name => rfl
  | .literal value => rfl
  | .or operands => exact congrArg _ (list_after second first operands)
  | .and operands => exact congrArg _ (list_after second first operands)
  | .compare left comparison right =>
    simp only [Replacement.expression, expression_after second first left,
      expression_after second first right]
  | .oneOf value choices =>
    simp only [Replacement.expression, expression_after second first value,
      list_after second first choices]
  | .noneOf value choices =>
    simp only [Replacement.expression, expression_after second first value,
      list_after second first choices]
  | .not operand => exact congrArg _ (expression_after second first operand)
  | .call function arguments => exact congrArg _ (list_after second first arguments)
  | .exists pattern => exact congrArg _ (group_after second first pattern)
  | .notExists pattern => exact congrArg _ (group_after second first pattern)
  | .count distinct none => rfl
  | .count distinct (some counted) =>
    simp only [Replacement.expression, expression_after second first counted]
  | .sum distinct summed => exact congrArg _ (expression_after second first summed)

theorem list_after (second first : Replacement) (expressions : List Expression) :
    (second.after first).list expressions = second.list (first.list expressions) := by
  match expressions with
  | [] => rfl
  | expression :: rest =>
    simp only [Replacement.list, expression_after second first expression,
      list_after second first rest]

theorem element_after (second first : Replacement) (element : Element) :
    (second.after first).element element = second.element (first.element element) := by
  match element with
  | .triple triple => exact congrArg _ (triple_after second first triple)
  | .optional pattern => exact congrArg _ (group_after second first pattern)
  | .union branches => exact congrArg _ (branches_after second first branches)
  | .group pattern => exact congrArg _ (group_after second first pattern)
  | .filter condition => exact congrArg _ (expression_after second first condition)
  | .values data => exact congrArg _ (data_after second first data)
  | .bind value target =>
    simp only [Replacement.element, expression_after second first value]
    rfl
  | .service name silent pattern => exact congrArg _ (group_after second first pattern)
  | .select query => exact congrArg _ (select_after second first query)

theorem group_after (second first : Replacement) (group : Group) :
    (second.after first).group group = second.group (first.group group) := by
  match group with
  | [] => rfl
  | element :: rest =>
    simp only [Replacement.group, element_after second first element,
      group_after second first rest]

theorem branches_after (second first : Replacement) (branches : List Group) :
    (second.after first).branches branches = second.branches (first.branches branches) := by
  match branches with
  | [] => rfl
  | branch :: rest =>
    simp only [Replacement.branches, group_after second first branch,
      branches_after second first rest]

theorem column_after (second first : Replacement) (column : Projection) :
    (second.after first).column column = second.column (first.column column) := by
  match column with
  | .var name => rfl
  | .expression value target =>
    simp only [Replacement.column, expression_after second first value]
    rfl

theorem columns_after (second first : Replacement) (columns : List Projection) :
    (second.after first).columns columns = second.columns (first.columns columns) := by
  match columns with
  | [] => rfl
  | column :: rest =>
    simp only [Replacement.columns, column_after second first column,
      columns_after second first rest]

theorem criterion_after (second first : Replacement) (criterion : OrderCondition) :
    (second.after first).criterion criterion = second.criterion (first.criterion criterion) := by
  match criterion with
  | .ascending key => exact congrArg _ (expression_after second first key)
  | .descending key => exact congrArg _ (expression_after second first key)

theorem criteria_after (second first : Replacement) (criteria : List OrderCondition) :
    (second.after first).criteria criteria = second.criteria (first.criteria criteria) := by
  match criteria with
  | [] => rfl
  | criterion :: rest =>
    simp only [Replacement.criteria, criterion_after second first criterion,
      criteria_after second first rest]

theorem modifier_after (second first : Replacement) (modifier : Modifier) :
    (second.after first).modifier modifier = second.modifier (first.modifier modifier) := by
  match modifier with
  | ⟨groupBy, orderBy, limit, offset⟩ =>
    simp only [Replacement.modifier, List.map_map, criteria_after second first orderBy]
    rfl

theorem select_after (second first : Replacement) (query : Select) :
    (second.after first).select query = second.select (first.select query) := by
  match query with
  | ⟨distinct, none, pattern, modifier⟩ =>
    simp only [Replacement.select, group_after second first pattern,
      modifier_after second first modifier]
  | ⟨distinct, some columns, pattern, modifier⟩ =>
    simp only [Replacement.select, columns_after second first columns,
      group_after second first pattern, modifier_after second first modifier]

end

end Replacement

end ShapeQuery.Sparql
