/-
This file defines which variables are in scope in a pattern, by the table of the SPARQL standard,
and what the standard asks of scopes: a value is bound to a variable that the elements before it do
not have in scope, and a selection orders and groups by what it projects. Filters have nothing in
scope, and a selection hides all that it does not project.
-/
import ShapeQuery.Proofs.Sparql.Locality
import ShapeQuery.Sparql.Query

namespace ShapeQuery.Sparql

/-! ### Variables -/

/-- The variable that a term is. -/
def Term.names : Term → List Variable
  | .var name => [name]
  | _ => []

/-- The variable that a verb is. -/
def Verb.names : Verb → List Variable
  | .var name => [name]
  | .path _ => []

/-- The variables of a pattern. -/
def TriplePattern.names (triple : TriplePattern) : List Variable :=
  triple.subject.names ++ triple.verb.names ++ triple.object.names

/-- The variables of a triple of a template. -/
def TemplateTriple.names (triple : TemplateTriple) : List Variable :=
  triple.subject.names ++ triple.predicate.names ++ triple.object.names

/-! ### Scopes -/

mutual

/-- The variables that an element has in scope. -/
def Element.scope : Element → List Variable
  | .triple triple => triple.names
  | .optional pattern => groupScope pattern
  | .union branches => branchScope branches
  | .group pattern => groupScope pattern
  | .filter _ => []
  | .values data => data.columns
  | .bind _ target => [target]
  | .service _ _ pattern => groupScope pattern
  | .select ⟨_, none, pattern, _⟩ => groupScope pattern
  | .select ⟨_, some columns, _, _⟩ => columns.map Projection.target

/-- The variables that one of some elements has in scope. -/
def groupScope : List Element → List Variable
  | [] => []
  | element :: rest => element.scope ++ groupScope rest

/-- The variables that one of some branches has in scope. -/
def branchScope : List (List Element) → List Variable
  | [] => []
  | branch :: rest => groupScope branch ++ branchScope rest

end

/-- The variable that an element binds a value to. -/
def Element.target? : Element → Option Variable
  | .bind _ target => some target
  | _ => none

/-! ### Rules -/

/-- Whether no name of a column is in scope in the pattern that is selected from. -/
def Select.NamesAreFresh (query : Select) : Prop :=
  ∀ value target, .expression value target ∈ query.projection.getD [] →
    target ∉ groupScope query.pattern

/-- Whether a selection is ordered by variables that it projects. -/
def Select.OrdersProjected (query : Select) : Prop :=
  ∀ criterion ∈ query.modifier.orderBy, ∀ name,
    .var name ∈ Atom.unknowns criterion.atoms → name ∈ (Element.select query).scope

/-- Whether a variable that stands next to an aggregate is one that is grouped by. -/
def Select.GroupsPlain (query : Select) : Prop :=
  (query.projection.getD []).any Projection.aggregates = true →
    ∀ name, .var name ∈ query.projection.getD [] → name ∈ query.modifier.groupBy

/-- The rules for a selection by itself. -/
structure Select.Orderly (query : Select) : Prop where
  fresh : query.NamesAreFresh
  ordered : query.OrdersProjected
  grouped : query.GroupsPlain

mutual

/-- Whether the groups in an expression keep to the rules. -/
def Expression.WellScoped : Expression → Prop
  | .or operands => listWellScoped operands
  | .and operands => listWellScoped operands
  | .compare left _ right => left.WellScoped ∧ right.WellScoped
  | .oneOf value choices => value.WellScoped ∧ listWellScoped choices
  | .noneOf value choices => value.WellScoped ∧ listWellScoped choices
  | .not operand => operand.WellScoped
  | .call _ arguments => listWellScoped arguments
  | .exists pattern => groupWellScoped [] pattern
  | .notExists pattern => groupWellScoped [] pattern
  | .count _ (some counted) => counted.WellScoped
  | .sum _ summed => summed.WellScoped
  | _ => True

/-- Whether the groups in some expressions keep to the rules. -/
def listWellScoped : List Expression → Prop
  | [] => True
  | expression :: rest => expression.WellScoped ∧ listWellScoped rest

/-- Whether the groups in an element keep to the rules. -/
def Element.WellScoped : Element → Prop
  | .triple _ => True
  | .optional pattern => groupWellScoped [] pattern
  | .union branches => branchesWellScoped branches
  | .group pattern => groupWellScoped [] pattern
  | .filter condition => condition.WellScoped
  | .values _ => True
  | .bind value _ => value.WellScoped
  | .service _ _ pattern => groupWellScoped [] pattern
  | .select query => query.WellScoped

/-- Whether elements that come after some variables keep to the rules: none of them binds a value to
a variable that is in scope before it. -/
def groupWellScoped : List Variable → List Element → Prop
  | _, [] => True
  | before, element :: rest =>
    element.WellScoped ∧ (∀ target ∈ element.target?, target ∉ before) ∧
      groupWellScoped (before ++ element.scope) rest

/-- Whether some branches keep to the rules. -/
def branchesWellScoped : List (List Element) → Prop
  | [] => True
  | branch :: rest => groupWellScoped [] branch ∧ branchesWellScoped rest

/-- Whether the groups in some columns keep to the rules. -/
def columnsWellScoped : List Projection → Prop
  | [] => True
  | .var _ :: rest => columnsWellScoped rest
  | .expression value _ :: rest => value.WellScoped ∧ columnsWellScoped rest

/-- Whether the groups in some criteria keep to the rules. -/
def criteriaWellScoped : List OrderCondition → Prop
  | [] => True
  | .ascending key :: rest => key.WellScoped ∧ criteriaWellScoped rest
  | .descending key :: rest => key.WellScoped ∧ criteriaWellScoped rest

/-- Whether a selection and the groups in it keep to the rules. -/
def Select.WellScoped : Select → Prop
  | ⟨distinct, none, pattern, ⟨groupBy, orderBy, limit, offset⟩⟩ =>
    groupWellScoped [] pattern ∧ criteriaWellScoped orderBy ∧
      Select.Orderly ⟨distinct, none, pattern, ⟨groupBy, orderBy, limit, offset⟩⟩
  | ⟨distinct, some columns, pattern, ⟨groupBy, orderBy, limit, offset⟩⟩ =>
    groupWellScoped [] pattern ∧ columnsWellScoped columns ∧ criteriaWellScoped orderBy ∧
      Select.Orderly ⟨distinct, some columns, pattern, ⟨groupBy, orderBy, limit, offset⟩⟩

end

/-- Whether a query keeps to the rules, and its template names variables that are in scope only. -/
structure Query.WellScoped (query : Query) : Prop where
  pattern : groupWellScoped [] query.pattern
  template : ∀ triple ∈ query.template, ∀ name ∈ triple.names,
    name ∈ groupScope query.pattern

/-! ### Names -/

@[simp] theorem Verb.names_predicate (iri : Iri) : (Verb.predicate iri).names = [] := rfl

/-- A term that is no unknown has no variable. -/
theorem Term.names_of_ground {term : Term} (ground : term.unknown? = none) : term.names = [] := by
  cases term with
  | var name => cases ground
  | _ => rfl

/-! ### Scopes of parts -/

theorem groupScope_append (first second : Group) :
    groupScope (first ++ second) = groupScope first ++ groupScope second := by
  induction first with
  | nil => rfl
  | cons element rest inductionHypothesis =>
    rw [List.cons_append, groupScope, inductionHypothesis, groupScope, List.append_assoc]

theorem mem_groupScope {name : Variable} {group : Group} :
    name ∈ groupScope group ↔ ∃ element ∈ group, name ∈ element.scope := by
  induction group with
  | nil => simp [groupScope]
  | cons element rest inductionHypothesis => simp [groupScope, inductionHypothesis]

theorem mem_branchScope {name : Variable} {branches : List Group} :
    name ∈ branchScope branches ↔ ∃ branch ∈ branches, name ∈ groupScope branch := by
  induction branches with
  | nil => simp [branchScope]
  | cons branch rest inductionHypothesis => simp [branchScope, inductionHypothesis]

/-- The variable of a term that names an unknown. -/
theorem Term.mem_unknowns_of_names {term : Term} {name : Variable} {atoms : List Atom}
    (named : name ∈ term.names) (member : .term term ∈ atoms) :
    .var name ∈ Atom.unknowns atoms := by
  cases term with
  | var other =>
    rw [List.mem_singleton.1 named]
    exact mem_unknowns_of_unknown? rfl member
  | _ => cases named

theorem TriplePattern.mem_unknowns_of_names {triple : TriplePattern} {name : Variable}
    (member : name ∈ triple.names) : .var name ∈ Atom.unknowns triple.atoms := by
  simp only [names, List.mem_append] at member
  rcases member with (subject | verb) | object
  · exact Term.mem_unknowns_of_names subject List.mem_cons_self
  · cases written : triple.verb with
    | path route =>
      rw [written] at verb
      cases verb
    | var other =>
      rw [written] at verb
      rw [List.mem_singleton.1 verb]
      have inside : .term (.var other) ∈ triple.atoms := by
        simp [atoms, written, Verb.term?]
      exact Term.mem_unknowns_of_unknown? rfl inside
  · exact Term.mem_unknowns_of_names object
      (List.mem_cons_of_mem _ (List.mem_append_right _ List.mem_cons_self))

mutual

/-- What is in scope in an element is one of its unknowns. -/
theorem Element.mem_unknowns_of_scope (element : Element) {name : Variable}
    (member : name ∈ element.scope) : .var name ∈ element.unknowns := by
  match element with
  | .triple triple => exact triple.mem_unknowns_of_names member
  | .optional pattern => exact mem_unknowns_of_groupScope pattern member
  | .union branches => exact mem_unknowns_of_branchScope branches member
  | .group pattern => exact mem_unknowns_of_groupScope pattern member
  | .filter _ => exact absurd member List.not_mem_nil
  | .values data =>
    exact mem_unknowns_of_target (List.mem_append_left _ (List.mem_map_of_mem member))
  | .bind value target =>
    rw [List.mem_singleton.1 member]
    exact mem_unknowns_of_target (List.mem_append_right _ List.mem_cons_self)
  | .service _ _ pattern => exact mem_unknowns_of_groupScope pattern member
  | .select ⟨_, none, pattern, _⟩ =>
    have inside : .var name ∈ Group.unknowns pattern := mem_unknowns_of_groupScope pattern member
    rw [Element.unknowns, Element.atoms, Select.atoms, Atom.unknowns_append]
    exact List.mem_append_left _ inside
  | .select ⟨_, some columns, pattern, _⟩ =>
    obtain ⟨column, among, rfl⟩ := List.mem_map.1 member
    rw [Element.unknowns, Element.atoms, Select.atoms, Atom.unknowns_append, Atom.unknowns_append]
    exact List.mem_append_left _ (List.mem_append_left _
      (mem_unknowns_of_target (target_mem_columnAtoms (List.mem_map_of_mem among))))

theorem mem_unknowns_of_groupScope (group : List Element) {name : Variable}
    (member : name ∈ groupScope group) : .var name ∈ Group.unknowns group := by
  match group with
  | [] => exact absurd member List.not_mem_nil
  | element :: rest =>
    rw [Group.unknowns_cons]
    exact (List.mem_append.1 member).elim
      (fun first => List.mem_append_left _ (element.mem_unknowns_of_scope first))
      fun later => List.mem_append_right _ (mem_unknowns_of_groupScope rest later)

theorem mem_unknowns_of_branchScope (branches : List (List Element)) {name : Variable}
    (member : name ∈ branchScope branches) :
    .var name ∈ Atom.unknowns (branchAtoms branches) := by
  match branches with
  | [] => exact absurd member List.not_mem_nil
  | branch :: rest =>
    rw [branchAtoms, Atom.unknowns_append]
    exact (List.mem_append.1 member).elim
      (fun first => List.mem_append_left _ (mem_unknowns_of_groupScope branch first))
      fun later => List.mem_append_right _ (mem_unknowns_of_branchScope rest later)

end

/-! ### Templates -/

theorem TriplePattern.names_of_template? {triple : TriplePattern} {shown : TemplateTriple}
    (found : triple.template? = some shown) : shown.names = triple.names := by
  obtain ⟨predicate, named, rfl⟩ := Option.map_eq_some_iff.1 found
  rw [TemplateTriple.names, TriplePattern.names]
  cases written : triple.verb with
  | var name =>
    rw [written] at named
    cases named
    rfl
  | path route =>
    rw [written] at named
    obtain ⟨iri, -, rfl⟩ := Option.map_eq_some_iff.1 named
    rfl

mutual

/-- The template of an element names variables that are in scope in it. -/
theorem Element.scope_templateTriples (element : Element) :
    ∀ triple ∈ element.templateTriples, ∀ name ∈ triple.names, name ∈ element.scope := by
  match element with
  | .triple triple =>
    intro shown member name named
    rwa [TriplePattern.names_of_template? (Option.mem_toList.1 member)] at named
  | .optional pattern => exact scope_groupTemplateTriples pattern
  | .group pattern => exact scope_groupTemplateTriples pattern
  | .union branches => exact scope_branchesTemplateTriples branches
  | .filter _ | .values _ | .bind _ _ | .service _ _ _ | .select _ =>
    exact fun _ member => absurd member List.not_mem_nil

theorem scope_groupTemplateTriples (group : List Element) :
    ∀ triple ∈ groupTemplateTriples group, ∀ name ∈ triple.names,
      name ∈ groupScope group := by
  match group with
  | [] => exact fun _ member => absurd member List.not_mem_nil
  | element :: rest =>
    intro triple member name named
    exact (List.mem_append.1 member).elim
      (fun first => List.mem_append_left _ (element.scope_templateTriples triple first name named))
      fun later => List.mem_append_right _ (scope_groupTemplateTriples rest triple later name named)

theorem scope_branchesTemplateTriples (branches : List (List Element)) :
    ∀ triple ∈ branchesTemplateTriples branches, ∀ name ∈ triple.names,
      name ∈ branchScope branches := by
  match branches with
  | [] => exact fun _ member => absurd member List.not_mem_nil
  | branch :: rest =>
    intro triple member name named
    exact (List.mem_append.1 member).elim
      (fun first => List.mem_append_left _ (scope_groupTemplateTriples branch triple first name named))
      fun later => List.mem_append_right _
        (scope_branchesTemplateTriples rest triple later name named)

end

/-! ### Rules for parts -/

@[simp] theorem listWellScoped_iff (expressions : List Expression) :
    listWellScoped expressions ↔ ∀ expression ∈ expressions, expression.WellScoped := by
  induction expressions with
  | nil => simp [listWellScoped]
  | cons expression rest inductionHypothesis => simp [listWellScoped, inductionHypothesis]

@[simp] theorem branchesWellScoped_iff (branches : List Group) :
    branchesWellScoped branches ↔ ∀ branch ∈ branches, groupWellScoped [] branch := by
  induction branches with
  | nil => simp [branchesWellScoped]
  | cons branch rest inductionHypothesis => simp [branchesWellScoped, inductionHypothesis]

theorem columnsWellScoped_vars {columns : List Projection} (wellScoped : columnsWellScoped columns)
    (names : List Variable) : columnsWellScoped (columns ++ names.map .var) := by
  induction columns with
  | nil =>
    induction names with
    | nil => trivial
    | cons name rest inductionHypothesis => exact inductionHypothesis
  | cons column rest inductionHypothesis =>
    cases column with
    | var name => exact inductionHypothesis wellScoped
    | expression value target => exact ⟨wellScoped.1, inductionHypothesis wellScoped.2⟩

theorem groupWellScoped_append (before : List Variable) (first second : Group) :
    groupWellScoped before (first ++ second) ↔
      groupWellScoped before first ∧ groupWellScoped (before ++ groupScope first) second := by
  induction first generalizing before with
  | nil => simp [groupWellScoped, groupScope]
  | cons element rest inductionHypothesis =>
    simp only [List.cons_append, groupWellScoped, inductionHypothesis, groupScope, and_assoc,
      List.append_assoc]

/-- What keeps to the rules after some variables does so after fewer of them. -/
theorem groupWellScoped_mono {fewer before : List Variable} {group : Group}
    (among : ∀ name ∈ fewer, name ∈ before) (kept : groupWellScoped before group) :
    groupWellScoped fewer group := by
  induction group generalizing fewer before with
  | nil => trivial
  | cons element rest inductionHypothesis =>
    obtain ⟨inside, fresh, others⟩ := kept
    refine ⟨inside, fun target bound member => fresh target bound (among target member),
      inductionHypothesis (fun name member => ?_) others⟩
    exact List.mem_append.2 ((List.mem_append.1 member).imp_left (among name))

/-- Whether the elements of a group keep to the rules and bind no values by themselves, so that they
do so after anything. -/
def Group.Settled (group : Group) : Prop :=
  ∀ element ∈ group, element.WellScoped ∧ element.target? = none

namespace Group.Settled

variable {first second group : Group}

theorem nil : Group.Settled [] :=
  fun _ member => absurd member List.not_mem_nil

theorem cons {element : Element} (wellScoped : element.WellScoped) (free : element.target? = none)
    (settled : Group.Settled group) : Group.Settled (element :: group) :=
  List.forall_mem_cons.2 ⟨⟨wellScoped, free⟩, settled⟩

theorem append (one : Group.Settled first) (other : Group.Settled second) :
    Group.Settled (first ++ second) :=
  List.forall_mem_append.2 ⟨one, other⟩

theorem wellScoped (settled : Group.Settled group) (before : List Variable) :
    groupWellScoped before group := by
  induction group generalizing before with
  | nil => trivial
  | cons element rest inductionHypothesis =>
    obtain ⟨⟨inside, free⟩, others⟩ := List.forall_mem_cons.1 settled
    refine ⟨inside, ?_, inductionHypothesis others _⟩
    rw [free]
    exact fun _ member => by cases member

/-- A settled group in an element of its own. -/
theorem single {element : Element} (wellScoped : element.WellScoped)
    (free : element.target? = none) : Group.Settled [element] :=
  cons wellScoped free nil

theorem triples (triples : List TriplePattern) : Group.Settled (Group.ofTriples triples) :=
  List.forall_mem_map.2 fun _ _ => ⟨trivial, rfl⟩

/-- A value may be bound to a variable that is neither in scope before a settled group nor in it. -/
theorem wellScoped_bind (settled : Group.Settled group) {before : List Variable}
    {value : Expression} {target : Variable} (inside : value.WellScoped)
    (fresh : target ∉ before ++ groupScope group) :
    groupWellScoped before (group ++ [.bind value target]) := by
  refine (groupWellScoped_append _ _ _).2 ⟨settled.wellScoped before, inside, ?_, trivial⟩
  exact fun found member => Option.some.inj member ▸ fresh

end Group.Settled

/-! ### Variables of one kind -/

/-- Whether all variables that some atoms name are of one kind. -/
def Atom.NamedIn (owns : Variable → Prop) (atoms : List Atom) : Prop :=
  ∀ name, .var name ∈ Atom.unknowns atoms → owns name

namespace Atom

variable {owns : Variable → Prop}

theorem namedIn_append {first second : List Atom} :
    NamedIn owns (first ++ second) ↔ NamedIn owns first ∧ NamedIn owns second := by
  simp only [NamedIn, unknowns_append, List.mem_append, or_imp, forall_and]

theorem namedIn_nil : NamedIn owns [] :=
  fun _ member => absurd member List.not_mem_nil

theorem namedIn_term {term : Term} (owned : ∀ name ∈ term.names, owns name) :
    NamedIn owns [.term term] := by
  intro name member
  cases term with
  | var other =>
    cases List.mem_singleton.1 member
    exact owned name List.mem_cons_self
  | blank label => cases List.mem_singleton.1 member
  | _ => cases member

theorem namedIn_targets {names : List Variable} (owned : ∀ name ∈ names, owns name) :
    NamedIn owns (names.map .target) := by
  intro name member
  obtain ⟨atom, among, named⟩ := List.mem_filterMap.1 member
  obtain ⟨other, listed, rfl⟩ := List.mem_map.1 among
  cases named
  exact owned _ listed

theorem namedIn_list {expressions : List Expression} :
    NamedIn owns (listAtoms expressions) ↔
      ∀ expression ∈ expressions, NamedIn owns expression.atoms := by
  induction expressions with
  | nil => simpa [listAtoms] using namedIn_nil
  | cons expression rest inductionHypothesis =>
    rw [listAtoms, namedIn_append, inductionHypothesis, List.forall_mem_cons]

theorem namedIn_branches {branches : List Group} :
    NamedIn owns (branchAtoms branches) ↔
      ∀ branch ∈ branches, NamedIn owns (groupAtoms branch) := by
  induction branches with
  | nil => simpa [branchAtoms] using namedIn_nil
  | cons branch rest inductionHypothesis =>
    rw [branchAtoms, namedIn_append, inductionHypothesis, List.forall_mem_cons]

theorem namedIn_triple {triple : TriplePattern} (owned : ∀ name ∈ triple.names, owns name) :
    NamedIn owns triple.atoms := by
  simp only [TriplePattern.names, List.mem_append, or_imp, forall_and] at owned
  obtain ⟨⟨subject, verb⟩, object⟩ := owned
  have middle : NamedIn owns (triple.verb.term?.toList.map .term) := by
    cases written : triple.verb with
    | var other =>
      rw [written] at verb
      exact namedIn_term verb
    | path route =>
      -- A path names no variable, whether it is a single predicate or not.
      intro name member
      obtain ⟨atom, among, named⟩ := List.mem_filterMap.1 member
      obtain ⟨term, found, rfl⟩ := List.mem_map.1 among
      obtain ⟨iri, -, rfl⟩ := Option.map_eq_some_iff.1 (Option.mem_toList.1 found)
      cases named
  exact namedIn_append.2 ⟨namedIn_term subject, namedIn_append.2 ⟨middle, namedIn_term object⟩⟩

theorem namedIn_column {target : Variable} (owned : owns target) {values : List Term}
    (ground : ∀ value ∈ values, value.names = []) :
    NamedIn owns (Element.column target values).atoms := by
  refine namedIn_append.2 ⟨namedIn_targets (List.forall_mem_singleton.2 owned), ?_⟩
  intro name member
  obtain ⟨atom, among, named⟩ := List.mem_filterMap.1 member
  obtain ⟨row, listed, inRow⟩ := List.mem_flatMap.1 among
  obtain ⟨value, given, rfl⟩ := List.mem_map.1 listed
  obtain ⟨cell, inside, inCell⟩ := List.mem_flatMap.1 inRow
  rw [List.mem_singleton.1 inside] at inCell
  cases List.mem_singleton.1 inCell
  cases value with
  | var other => exact absurd (ground _ given) (List.cons_ne_nil _ _)
  | _ => cases named

end Atom

/-- Whether an expression keeps to the rules and names variables of one kind only. -/
structure Expression.ScopedIn (owns : Variable → Prop) (expression : Expression) : Prop where
  wellScoped : expression.WellScoped
  named : Atom.NamedIn owns expression.atoms

/-- Whether a group is settled and names variables of one kind only. -/
structure Group.ScopedIn (owns : Variable → Prop) (group : Group) : Prop where
  settled : group.Settled
  named : Atom.NamedIn owns (groupAtoms group)

namespace Expression.ScopedIn

variable {owns : Variable → Prop}

theorem var {name : Variable} (owned : owns name) : (Expression.var name).ScopedIn owns :=
  ⟨trivial, Atom.namedIn_term (List.forall_mem_singleton.2 owned)⟩

theorem literal (value : Literal) : (Expression.literal value).ScopedIn owns :=
  ⟨trivial, Atom.namedIn_nil⟩

theorem iri (name : Iri) : (Expression.iri name).ScopedIn owns :=
  ⟨trivial, Atom.namedIn_term fun _ member => absurd member List.not_mem_nil⟩

theorem compare {left right : Expression} {comparison : Comparison} (one : left.ScopedIn owns)
    (other : right.ScopedIn owns) : (Expression.compare left comparison right).ScopedIn owns :=
  ⟨⟨one.wellScoped, other.wellScoped⟩, Atom.namedIn_append.2 ⟨one.named, other.named⟩⟩

section Lists

variable {expressions : List Expression}
  (kept : ∀ expression ∈ expressions, expression.ScopedIn owns)

include kept

theorem list : listWellScoped expressions ∧ Atom.NamedIn owns (listAtoms expressions) :=
  ⟨(listWellScoped_iff _).2 fun expression member => (kept expression member).wellScoped,
    Atom.namedIn_list.2 fun expression member => (kept expression member).named⟩

theorem call (function : Function) : (Expression.call function expressions).ScopedIn owns :=
  ⟨(list kept).1, (list kept).2⟩

theorem and : (Expression.and expressions).ScopedIn owns :=
  ⟨(list kept).1, (list kept).2⟩

theorem or : (Expression.or expressions).ScopedIn owns :=
  ⟨(list kept).1, (list kept).2⟩

theorem oneOf {value : Expression} (inside : value.ScopedIn owns) :
    (Expression.oneOf value expressions).ScopedIn owns :=
  ⟨⟨inside.wellScoped, (list kept).1⟩, Atom.namedIn_append.2 ⟨inside.named, (list kept).2⟩⟩

theorem noneOf {value : Expression} (inside : value.ScopedIn owns) :
    (Expression.noneOf value expressions).ScopedIn owns :=
  ⟨⟨inside.wellScoped, (list kept).1⟩, Atom.namedIn_append.2 ⟨inside.named, (list kept).2⟩⟩

end Lists

theorem «exists» {group : Group} (kept : group.ScopedIn owns) :
    (Expression.exists group).ScopedIn owns :=
  ⟨kept.settled.wellScoped [], kept.named⟩

theorem notExists {group : Group} (kept : group.ScopedIn owns) :
    (Expression.notExists group).ScopedIn owns :=
  ⟨kept.settled.wellScoped [], kept.named⟩

end Expression.ScopedIn

namespace Group.ScopedIn

variable {owns : Variable → Prop} {first second group : Group}

/-- What is in scope in a group is of its kind. -/
theorem owned (kept : Group.ScopedIn owns group) : ∀ name ∈ groupScope group, owns name :=
  fun name member => kept.named name (mem_unknowns_of_groupScope group member)

theorem nil : Group.ScopedIn owns [] :=
  ⟨.nil, Atom.namedIn_nil⟩

theorem mono {more : Variable → Prop} (kept : Group.ScopedIn owns group)
    (weaker : ∀ name, owns name → more name) : Group.ScopedIn more group :=
  ⟨kept.settled, fun name member => weaker name (kept.named name member)⟩

theorem append (one : Group.ScopedIn owns first) (other : Group.ScopedIn owns second) :
    Group.ScopedIn owns (first ++ second) := by
  refine ⟨one.settled.append other.settled, ?_⟩
  rw [groupAtoms_append]
  exact Atom.namedIn_append.2 ⟨one.named, other.named⟩

theorem flatten {groups : List Group} (kept : ∀ group ∈ groups, Group.ScopedIn owns group) :
    Group.ScopedIn owns groups.flatten := by
  induction groups with
  | nil => exact .nil
  | cons first rest inductionHypothesis =>
    rw [List.forall_mem_cons] at kept
    exact kept.1.append (inductionHypothesis kept.2)

theorem single {element : Element} (wellScoped : element.WellScoped)
    (free : element.target? = none) (named : Atom.NamedIn owns element.atoms) :
    Group.ScopedIn owns [element] := by
  refine ⟨.single wellScoped free, ?_⟩
  rw [groupAtoms, groupAtoms, List.append_nil]
  exact named

theorem cons {element : Element} (first : Group.ScopedIn owns [element])
    (others : Group.ScopedIn owns group) : Group.ScopedIn owns (element :: group) :=
  first.append others

theorem elements (kept : ∀ element ∈ group, Group.ScopedIn owns [element]) :
    Group.ScopedIn owns group := by
  induction group with
  | nil => exact .nil
  | cons element rest inductionHypothesis =>
    rw [List.forall_mem_cons] at kept
    exact .cons kept.1 (inductionHypothesis kept.2)

theorem triple {triple : TriplePattern} (owned : ∀ name ∈ triple.names, owns name) :
    Group.ScopedIn owns [.triple triple] :=
  single trivial rfl (Atom.namedIn_triple owned)

theorem ofTriples {triples : List TriplePattern}
    (owned : ∀ triple ∈ triples, ∀ name ∈ triple.names, owns name) :
    Group.ScopedIn owns (Group.ofTriples triples) :=
  elements (List.forall_mem_map.2 fun pattern member => triple (owned pattern member))

theorem column {target : Variable} (owned : owns target) {values : List Term}
    (ground : ∀ value ∈ values, value.names = []) :
    Group.ScopedIn owns [.column target values] :=
  single trivial rfl (Atom.namedIn_column owned ground)

theorem iris {target : Variable} (owned : owns target) (names : List Iri) :
    Group.ScopedIn owns [.column target (names.map .iri)] :=
  column owned (List.forall_mem_map.2 fun _ _ => rfl)

theorem filter {condition : Expression} (kept : condition.ScopedIn owns) :
    Group.ScopedIn owns [.filter condition] :=
  single kept.wellScoped rfl kept.named

theorem optional (kept : Group.ScopedIn owns group) : Group.ScopedIn owns [.optional group] :=
  single (kept.settled.wellScoped []) rfl kept.named

theorem nested (kept : Group.ScopedIn owns group) : Group.ScopedIn owns [.group group] :=
  single (kept.settled.wellScoped []) rfl kept.named

theorem service (name : Iri) (silent : Bool) (kept : Group.ScopedIn owns group) :
    Group.ScopedIn owns [.service name silent group] :=
  single (kept.settled.wellScoped []) rfl kept.named

theorem union {branches : List Group} (wellScoped : ∀ branch ∈ branches, groupWellScoped [] branch)
    (named : ∀ branch ∈ branches, Atom.NamedIn owns (groupAtoms branch)) :
    Group.ScopedIn owns [.union branches] :=
  single ((branchesWellScoped_iff branches).2 wellScoped) rfl (Atom.namedIn_branches.2 named)

end Group.ScopedIn

end ShapeQuery.Sparql
