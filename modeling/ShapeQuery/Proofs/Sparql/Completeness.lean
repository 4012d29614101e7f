/-
This file says when a query tree is complete, that is, has a text: no list that has to have a member
is empty, every function gets as many arguments as it takes, and the rows of a table are as long as
its head. A tree is complete if its parts are.
-/
import ShapeQuery.Sparql.Query

namespace ShapeQuery.Sparql

/-! ### Paths -/

namespace Path

/-- A path that can be written. -/
def Complete (path : Path) : Prop :=
  path.defects = []

theorem listDefects_eq_nil {paths : List Path} :
    listDefects paths = [] ↔ ∀ path ∈ paths, path.Complete := by
  induction paths with
  | nil => exact iff_of_true rfl fun _ member => absurd member List.not_mem_nil
  | cons path rest inductionHypothesis =>
    rw [listDefects, List.append_eq_nil_iff, inductionHypothesis, List.forall_mem_cons]
    rfl

@[simp] theorem complete_predicate (iri : Iri) : (predicate iri).Complete :=
  rfl

@[simp] theorem complete_inverse (path : Path) : (inverse path).Complete ↔ path.Complete :=
  Iff.rfl

@[simp] theorem complete_sequence (paths : List Path) :
    (sequence paths).Complete ↔ paths ≠ [] ∧ ∀ path ∈ paths, path.Complete := by
  cases paths with
  | nil => exact iff_of_false nofun fun both => both.1 rfl
  | cons path rest => exact listDefects_eq_nil.trans (and_iff_right (List.cons_ne_nil _ _)).symm

@[simp] theorem complete_alternative (paths : List Path) :
    (alternative paths).Complete ↔ paths ≠ [] ∧ ∀ path ∈ paths, path.Complete := by
  cases paths with
  | nil => exact iff_of_false nofun fun both => both.1 rfl
  | cons path rest => exact listDefects_eq_nil.trans (and_iff_right (List.cons_ne_nil _ _)).symm

@[simp] theorem complete_zeroOrMore (path : Path) : (zeroOrMore path).Complete ↔ path.Complete :=
  Iff.rfl

@[simp] theorem complete_oneOrMore (path : Path) : (oneOrMore path).Complete ↔ path.Complete :=
  Iff.rfl

@[simp] theorem complete_zeroOrOne (path : Path) : (zeroOrOne path).Complete ↔ path.Complete :=
  Iff.rfl

end Path

/-! ### Triples -/

/-- A verb that can be written. -/
def Verb.Complete (verb : Verb) : Prop :=
  verb.defects = []

@[simp] theorem Verb.complete_var (name : Variable) : (Verb.var name).Complete :=
  rfl

@[simp] theorem Verb.complete_path (route : Path) : (Verb.path route).Complete ↔ route.Complete :=
  Iff.rfl

@[simp] theorem Verb.complete_predicate (iri : Iri) : (Verb.predicate iri).Complete :=
  rfl

/-- A triple of a template that can be written: its predicate is a variable or an IRI. -/
def TemplateTriple.Complete (triple : TemplateTriple) : Prop :=
  triple.defects = []

@[simp] theorem TemplateTriple.complete_iri (subject : Term) (predicate : Iri) (object : Term) :
    TemplateTriple.Complete ⟨subject, .iri predicate, object⟩ :=
  rfl

/-- Whatever stands for a pattern in a template can be written. -/
theorem TriplePattern.complete_template? {triple : TriplePattern} {shown : TemplateTriple}
    (found : triple.template? = some shown) : shown.Complete := by
  obtain ⟨predicate, named, rfl⟩ := Option.map_eq_some_iff.1 found
  cases written : triple.verb with
  | var name =>
    rw [written] at named
    cases named
    rfl
  | path route =>
    rw [written] at named
    obtain ⟨iri, -, rfl⟩ := Option.map_eq_some_iff.1 named
    rfl

/-! ### Expressions and groups -/

/-- An expression that can be written. -/
def Expression.Complete (expression : Expression) : Prop :=
  expression.defects = []

/-- An element that can be written. -/
def Element.Complete (element : Element) : Prop :=
  element.defects = []

/-- A group of elements that can be written. -/
def Group.Complete (group : Group) : Prop :=
  ∀ element ∈ group, element.Complete

theorem listDefects_eq_nil {expressions : List Expression} :
    listDefects expressions = [] ↔ ∀ expression ∈ expressions, expression.Complete := by
  induction expressions with
  | nil => exact iff_of_true rfl fun _ member => absurd member List.not_mem_nil
  | cons expression rest inductionHypothesis =>
    rw [listDefects, List.append_eq_nil_iff, inductionHypothesis, List.forall_mem_cons]
    rfl

namespace Group

@[simp] theorem complete_nil : Complete [] :=
  fun _ member => absurd member List.not_mem_nil

@[simp] theorem complete_cons (element : Element) (rest : Group) :
    Complete (element :: rest) ↔ element.Complete ∧ Complete rest :=
  List.forall_mem_cons

@[simp] theorem complete_append (first second : Group) :
    Complete (first ++ second) ↔ Complete first ∧ Complete second :=
  List.forall_mem_append

end Group

theorem groupDefects_eq_nil {group : Group} : groupDefects group = [] ↔ group.Complete := by
  induction group with
  | nil => exact iff_of_true rfl Group.complete_nil
  | cons element rest inductionHypothesis =>
    rw [groupDefects, List.append_eq_nil_iff, inductionHypothesis]
    exact (Group.complete_cons element rest).symm

theorem branchDefects_eq_nil {branches : List Group} :
    branchDefects branches = [] ↔ ∀ branch ∈ branches, Group.Complete branch := by
  induction branches with
  | nil => exact iff_of_true rfl fun _ member => absurd member List.not_mem_nil
  | cons branch rest inductionHypothesis =>
    rw [branchDefects, List.append_eq_nil_iff, inductionHypothesis, groupDefects_eq_nil,
      List.forall_mem_cons]

namespace Expression

@[simp] theorem complete_var (name : Variable) : (var name).Complete :=
  rfl

@[simp] theorem complete_iri (name : Iri) : (iri name).Complete :=
  rfl

@[simp] theorem complete_literal (value : Literal) : (literal value).Complete :=
  rfl

@[simp] theorem complete_or (operands : List Expression) :
    (or operands).Complete ↔ operands ≠ [] ∧ ∀ operand ∈ operands, operand.Complete := by
  cases operands with
  | nil => exact iff_of_false nofun fun both => both.1 rfl
  | cons operand rest => exact listDefects_eq_nil.trans (and_iff_right (List.cons_ne_nil _ _)).symm

@[simp] theorem complete_and (operands : List Expression) :
    (and operands).Complete ↔ operands ≠ [] ∧ ∀ operand ∈ operands, operand.Complete := by
  cases operands with
  | nil => exact iff_of_false nofun fun both => both.1 rfl
  | cons operand rest => exact listDefects_eq_nil.trans (and_iff_right (List.cons_ne_nil _ _)).symm

@[simp] theorem complete_compare (left : Expression) (comparison : Comparison)
    (right : Expression) :
    (compare left comparison right).Complete ↔ left.Complete ∧ right.Complete :=
  List.append_eq_nil_iff

@[simp] theorem complete_oneOf (value : Expression) (choices : List Expression) :
    (oneOf value choices).Complete ↔
      value.Complete ∧ ∀ choice ∈ choices, choice.Complete :=
  List.append_eq_nil_iff.trans (and_congr_right fun _ => listDefects_eq_nil)

@[simp] theorem complete_noneOf (value : Expression) (choices : List Expression) :
    (noneOf value choices).Complete ↔
      value.Complete ∧ ∀ choice ∈ choices, choice.Complete :=
  List.append_eq_nil_iff.trans (and_congr_right fun _ => listDefects_eq_nil)

@[simp] theorem complete_call (function : Function) (arguments : List Expression) :
    (call function arguments).Complete ↔
      function.accepts arguments.length = true ∧ ∀ argument ∈ arguments, argument.Complete := by
  rw [Complete, defects, List.append_eq_nil_iff, listDefects_eq_nil]
  refine and_congr_left fun _ => ?_
  cases function.accepts arguments.length with
  | true => exact iff_of_true rfl rfl
  | false => exact iff_of_false nofun nofun

@[simp] theorem complete_exists (pattern : Group) :
    («exists» pattern).Complete ↔ pattern.Complete :=
  groupDefects_eq_nil

@[simp] theorem complete_notExists (pattern : Group) :
    (notExists pattern).Complete ↔ pattern.Complete :=
  groupDefects_eq_nil

@[simp] theorem complete_count (distinct : Bool) (counted : Expression) :
    (count distinct (some counted)).Complete ↔ counted.Complete :=
  Iff.rfl

@[simp] theorem complete_sum (distinct : Bool) (summed : Expression) :
    (sum distinct summed).Complete ↔ summed.Complete :=
  Iff.rfl

end Expression

theorem Term.complete_expression? {term : Term} {expression : Expression}
    (found : term.expression? = some expression) : expression.Complete := by
  cases term with
  | blank label => cases found
  | _ =>
    cases found
    rfl

/-! ### Selections -/

/-- A column that can be written. -/
def Projection.Complete (column : Projection) : Prop :=
  column.defects = []

@[simp] theorem Projection.complete_var (name : Variable) : (Projection.var name).Complete :=
  rfl

@[simp] theorem Projection.complete_expression (value : Expression) (target : Variable) :
    (Projection.expression value target).Complete ↔ value.Complete :=
  Iff.rfl

/-- A criterion that can be written. -/
def OrderCondition.Complete (criterion : OrderCondition) : Prop :=
  criterion.defects = []

@[simp] theorem OrderCondition.complete_ascending (key : Expression) :
    (OrderCondition.ascending key).Complete ↔ key.Complete :=
  Iff.rfl

@[simp] theorem OrderCondition.complete_descending (key : Expression) :
    (OrderCondition.descending key).Complete ↔ key.Complete :=
  Iff.rfl

theorem columnDefects_eq_nil {columns : List Projection} :
    columnDefects columns = [] ↔ ∀ column ∈ columns, column.Complete := by
  induction columns with
  | nil => exact iff_of_true rfl fun _ member => absurd member List.not_mem_nil
  | cons column rest inductionHypothesis =>
    rw [columnDefects, List.append_eq_nil_iff, inductionHypothesis, List.forall_mem_cons]
    rfl

theorem criterionDefects_eq_nil {criteria : List OrderCondition} :
    criterionDefects criteria = [] ↔ ∀ criterion ∈ criteria, criterion.Complete := by
  induction criteria with
  | nil => exact iff_of_true rfl fun _ member => absurd member List.not_mem_nil
  | cons criterion rest inductionHypothesis =>
    rw [criterionDefects, List.append_eq_nil_iff, inductionHypothesis, List.forall_mem_cons]
    rfl

/-- A modifier whose criteria can be written. -/
def Modifier.Complete (modifier : Modifier) : Prop :=
  ∀ criterion ∈ modifier.orderBy, criterion.Complete

theorem Modifier.defects_eq_nil {modifier : Modifier} :
    modifier.defects = [] ↔ modifier.Complete := by
  cases modifier
  exact criterionDefects_eq_nil

@[simp] theorem Modifier.complete_empty : Modifier.empty.Complete :=
  fun _ member => absurd member List.not_mem_nil

/-! ### Elements -/

namespace Element

@[simp] theorem complete_triple (triple : TriplePattern) :
    (Element.triple triple).Complete ↔ triple.verb.Complete :=
  Iff.rfl

@[simp] theorem complete_ofTriple (subject : Term) (verb : Verb) (object : Term) :
    (ofTriple subject verb object).Complete ↔ verb.Complete :=
  Iff.rfl

@[simp] theorem complete_optional (pattern : Group) :
    (optional pattern).Complete ↔ pattern.Complete :=
  groupDefects_eq_nil

@[simp] theorem complete_group (pattern : Group) : (group pattern).Complete ↔ pattern.Complete :=
  groupDefects_eq_nil

@[simp] theorem complete_union (branches : List Group) :
    (union branches).Complete ↔
      branches ≠ [] ∧ ∀ branch ∈ branches, Group.Complete branch := by
  cases branches with
  | nil => exact iff_of_false nofun fun both => both.1 rfl
  | cons branch rest =>
    exact branchDefects_eq_nil.trans (and_iff_right (List.cons_ne_nil _ _)).symm

@[simp] theorem complete_filter (condition : Expression) :
    (filter condition).Complete ↔ condition.Complete :=
  Iff.rfl

/-- Every row of a single column has one value. -/
@[simp] theorem complete_column (target : Variable) (values : List Term) :
    (column target values).Complete := by
  have rows : ((Data.column target values).rows.all fun row =>
      row.length = (Data.column target values).columns.length) = true := by
    simp [Data.column]
  rw [Complete, column, defects, Data.defects, if_pos rows]
  rfl

@[simp] theorem complete_bind (value : Expression) (target : Variable) :
    (bind value target).Complete ↔ value.Complete :=
  Iff.rfl

@[simp] theorem complete_service (name : Iri) (silent : Bool) (pattern : Group) :
    (service name silent pattern).Complete ↔ pattern.Complete :=
  groupDefects_eq_nil

@[simp] theorem complete_select (distinct : Bool) (columns : List Projection) (pattern : Group)
    (modifier : Modifier) :
    (select ⟨distinct, some columns, pattern, modifier⟩).Complete ↔
      (columns ≠ [] ∧ ∀ column ∈ columns, column.Complete) ∧ pattern.Complete ∧
        modifier.Complete := by
  rw [Complete, defects, Select.defects, List.append_eq_nil_iff, List.append_eq_nil_iff,
    groupDefects_eq_nil, modifier.defects_eq_nil, and_assoc]
  refine and_congr_left fun _ => ?_
  cases columns with
  | nil => exact iff_of_false nofun fun both => both.1 rfl
  | cons column rest =>
    exact columnDefects_eq_nil.trans (and_iff_right (List.cons_ne_nil _ _)).symm

theorem complete_ofTriples {triples : List TriplePattern}
    (complete : ∀ triple ∈ triples, triple.verb.Complete) :
    Group.Complete (Group.ofTriples triples) :=
  List.forall_mem_map.2 complete

end Element

/-! ### Templates of groups -/

mutual

theorem Element.complete_templateTriples (element : Element) :
    ∀ triple ∈ element.templateTriples, triple.Complete := by
  match element with
  | .triple triple =>
    exact fun shown member => triple.complete_template? (Option.mem_toList.1 member)
  | .optional pattern => exact complete_groupTemplateTriples pattern
  | .group pattern => exact complete_groupTemplateTriples pattern
  | .union branches => exact complete_branchesTemplateTriples branches
  | .filter _ | .values _ | .bind _ _ | .service _ _ _ | .select _ =>
    exact fun _ member => absurd member List.not_mem_nil

theorem complete_groupTemplateTriples (group : List Element) :
    ∀ triple ∈ groupTemplateTriples group, triple.Complete := by
  match group with
  | [] => exact fun _ member => absurd member List.not_mem_nil
  | element :: rest =>
    exact List.forall_mem_append.2
      ⟨element.complete_templateTriples, complete_groupTemplateTriples rest⟩

theorem complete_branchesTemplateTriples (branches : List (List Element)) :
    ∀ triple ∈ branchesTemplateTriples branches, triple.Complete := by
  match branches with
  | [] => exact fun _ member => absurd member List.not_mem_nil
  | branch :: rest =>
    exact List.forall_mem_append.2
      ⟨complete_groupTemplateTriples branch, complete_branchesTemplateTriples rest⟩

end

/-! ### Queries -/

/-- A query that can be written. -/
structure Query.Complete (query : Query) : Prop where
  template : ∀ triple ∈ query.template, triple.Complete
  pattern : Group.Complete query.pattern
  modifier : query.modifier.Complete

theorem Query.complete_ofTemplate {template : List TemplateTriple} {pattern : Group}
    (templateComplete : ∀ triple ∈ template, triple.Complete) (complete : Group.Complete pattern) :
    (ofTemplate template pattern .empty).Complete :=
  ⟨fun triple member => templateComplete triple (List.mem_eraseDups.1 member), complete,
    Modifier.complete_empty⟩

/-- The text of a query that can be written is that of its lexemes. -/
theorem Query.Complete.render {query : Query} (complete : query.Complete) :
    query.render = .ok (Lexeme.written query.lexemes) := by
  have template : query.template.flatMap TemplateTriple.defects = [] :=
    List.flatMap_eq_nil_iff.2 complete.template
  have pattern : groupDefects query.pattern = [] := groupDefects_eq_nil.2 complete.pattern
  have modifier : query.modifier.defects = [] := Modifier.defects_eq_nil.2 complete.modifier
  rw [Query.render, defects, template, pattern, modifier]
  rfl

end ShapeQuery.Sparql
