/-
This file collects the literals of patterns and expressions, wherever they are nested, and says when
all of them are of one kind.
-/
import ShapeQuery.Sparql.Group

namespace ShapeQuery.Sparql

/-! ### Literals -/

/-- The literal that a term is. -/
def Term.literals : Term → List Literal
  | .literal value => [value]
  | _ => []

/-- The literals of a triple. A verb has none. -/
def TriplePattern.literals (triple : TriplePattern) : List Literal :=
  triple.subject.literals ++ triple.object.literals

/-- The literals of a table. -/
def Data.literals (data : Data) : List Literal :=
  data.rows.flatMap fun row => row.flatMap fun cell => cell.toList.flatMap Term.literals

mutual

/-- The literals of an expression. -/
def Expression.literals : Expression → List Literal
  | .var _ => []
  | .iri _ => []
  | .literal value => [value]
  | .or operands => listLiterals operands
  | .and operands => listLiterals operands
  | .compare left _ right => left.literals ++ right.literals
  | .oneOf value choices => value.literals ++ listLiterals choices
  | .noneOf value choices => value.literals ++ listLiterals choices
  | .not operand => operand.literals
  | .call _ arguments => listLiterals arguments
  | .exists pattern => groupLiterals pattern
  | .notExists pattern => groupLiterals pattern
  | .count _ none => []
  | .count _ (some counted) => counted.literals
  | .sum _ summed => summed.literals

/-- The literals of some expressions. -/
def listLiterals : List Expression → List Literal
  | [] => []
  | expression :: rest => expression.literals ++ listLiterals rest

/-- The literals of an element. -/
def Element.literals : Element → List Literal
  | .triple triple => triple.literals
  | .optional pattern => groupLiterals pattern
  | .union branches => branchLiterals branches
  | .group pattern => groupLiterals pattern
  | .filter condition => condition.literals
  | .values data => data.literals
  | .bind value _ => value.literals
  | .service _ _ pattern => groupLiterals pattern
  | .select query => query.literals

/-- The literals of some elements. -/
def groupLiterals : List Element → List Literal
  | [] => []
  | element :: rest => element.literals ++ groupLiterals rest

/-- The literals of some groups. -/
def branchLiterals : List (List Element) → List Literal
  | [] => []
  | branch :: rest => groupLiterals branch ++ branchLiterals rest

/-- The literals of a column of a selection. -/
def Projection.literals : Projection → List Literal
  | .var _ => []
  | .expression value _ => value.literals

/-- The literals of some columns. -/
def columnLiterals : List Projection → List Literal
  | [] => []
  | column :: rest => column.literals ++ columnLiterals rest

/-- The literals of a criterion. -/
def OrderCondition.literals : OrderCondition → List Literal
  | .ascending key => key.literals
  | .descending key => key.literals

/-- The literals of some criteria. -/
def criterionLiterals : List OrderCondition → List Literal
  | [] => []
  | criterion :: rest => criterion.literals ++ criterionLiterals rest

/-- The literals of a modifier. -/
def Modifier.literals : Modifier → List Literal
  | ⟨_, orderBy, _, _⟩ => criterionLiterals orderBy

/-- The literals of a selection. -/
def Select.literals : Select → List Literal
  | ⟨_, none, pattern, modifier⟩ => groupLiterals pattern ++ modifier.literals
  | ⟨_, some columns, pattern, modifier⟩ =>
    columnLiterals columns ++ groupLiterals pattern ++ modifier.literals

end

/-! ### Literals of one kind -/

/-- Whether a term is a literal of one kind, unless it is none. -/
def Term.QuotedIn (kind : Literal → Prop) (term : Term) : Prop :=
  ∀ literal ∈ term.literals, kind literal

/-- Whether the literals of a triple are of one kind. -/
def TriplePattern.QuotedIn (kind : Literal → Prop) (triple : TriplePattern) : Prop :=
  ∀ literal ∈ triple.literals, kind literal

/-- Whether the literals of an expression are of one kind. -/
def Expression.QuotedIn (kind : Literal → Prop) (expression : Expression) : Prop :=
  ∀ literal ∈ expression.literals, kind literal

/-- Whether the literals of an element are of one kind. -/
def Element.QuotedIn (kind : Literal → Prop) (element : Element) : Prop :=
  ∀ literal ∈ element.literals, kind literal

/-- Whether the literals of a group are of one kind. -/
def Group.QuotedIn (kind : Literal → Prop) (group : Group) : Prop :=
  ∀ literal ∈ groupLiterals group, kind literal

variable {kind : Literal → Prop}

namespace Term

@[simp] theorem quotedIn_var (name : Variable) : (var name).QuotedIn kind :=
  fun _ member => absurd member List.not_mem_nil

@[simp] theorem quotedIn_iri (name : Iri) : (iri name).QuotedIn kind :=
  fun _ member => absurd member List.not_mem_nil

@[simp] theorem quotedIn_literal (value : Literal) : (literal value).QuotedIn kind ↔ kind value :=
  List.forall_mem_singleton

end Term

@[simp] theorem TriplePattern.quotedIn_mk (subject : Term) (verb : Verb) (object : Term) :
    (TriplePattern.mk subject verb object).QuotedIn kind ↔
      subject.QuotedIn kind ∧ object.QuotedIn kind :=
  List.forall_mem_append

namespace Expression

@[simp] theorem quotedIn_var (name : Variable) : (var name).QuotedIn kind :=
  fun _ member => absurd member List.not_mem_nil

@[simp] theorem quotedIn_iri (name : Iri) : (iri name).QuotedIn kind :=
  fun _ member => absurd member List.not_mem_nil

@[simp] theorem quotedIn_literal (value : Literal) : (literal value).QuotedIn kind ↔ kind value :=
  List.forall_mem_singleton

theorem quotedIn_list (expressions : List Expression) :
    (∀ literal ∈ listLiterals expressions, kind literal) ↔
      ∀ expression ∈ expressions, expression.QuotedIn kind := by
  induction expressions with
  | nil => simp [listLiterals]
  | cons expression rest inductionHypothesis =>
    rw [listLiterals, List.forall_mem_append, inductionHypothesis, List.forall_mem_cons]
    rfl

@[simp] theorem quotedIn_or (operands : List Expression) :
    (or operands).QuotedIn kind ↔ ∀ operand ∈ operands, operand.QuotedIn kind :=
  quotedIn_list operands

@[simp] theorem quotedIn_and (operands : List Expression) :
    (and operands).QuotedIn kind ↔ ∀ operand ∈ operands, operand.QuotedIn kind :=
  quotedIn_list operands

@[simp] theorem quotedIn_compare (left : Expression) (comparison : Comparison)
    (right : Expression) :
    (compare left comparison right).QuotedIn kind ↔
      left.QuotedIn kind ∧ right.QuotedIn kind :=
  List.forall_mem_append

@[simp] theorem quotedIn_oneOf (value : Expression) (choices : List Expression) :
    (oneOf value choices).QuotedIn kind ↔
      value.QuotedIn kind ∧ ∀ choice ∈ choices, choice.QuotedIn kind :=
  List.forall_mem_append.trans (and_congr_right fun _ => quotedIn_list choices)

@[simp] theorem quotedIn_noneOf (value : Expression) (choices : List Expression) :
    (noneOf value choices).QuotedIn kind ↔
      value.QuotedIn kind ∧ ∀ choice ∈ choices, choice.QuotedIn kind :=
  List.forall_mem_append.trans (and_congr_right fun _ => quotedIn_list choices)

@[simp] theorem quotedIn_call (function : Function) (arguments : List Expression) :
    (call function arguments).QuotedIn kind ↔ ∀ argument ∈ arguments, argument.QuotedIn kind :=
  quotedIn_list arguments

@[simp] theorem quotedIn_exists (pattern : Group) :
    («exists» pattern).QuotedIn kind ↔ Group.QuotedIn kind pattern :=
  Iff.rfl

@[simp] theorem quotedIn_notExists (pattern : Group) :
    (notExists pattern).QuotedIn kind ↔ Group.QuotedIn kind pattern :=
  Iff.rfl

end Expression

/-- An expression for a term has the literal of the term. -/
theorem Term.QuotedIn.expression? {term : Term} (quoted : term.QuotedIn kind)
    {expression : Expression} (found : term.expression? = some expression) :
    expression.QuotedIn kind := by
  cases term with
  | blank label => cases found
  | _ =>
    cases found
    exact quoted

namespace Group

@[simp] theorem quotedIn_nil : Group.QuotedIn kind [] :=
  fun _ member => absurd member List.not_mem_nil

@[simp] theorem quotedIn_cons (element : Element) (rest : Group) :
    Group.QuotedIn kind (element :: rest) ↔ element.QuotedIn kind ∧ Group.QuotedIn kind rest :=
  List.forall_mem_append

@[simp] theorem quotedIn_append (first second : Group) :
    Group.QuotedIn kind (first ++ second) ↔
      Group.QuotedIn kind first ∧ Group.QuotedIn kind second := by
  induction first with
  | nil => simp
  | cons element rest inductionHypothesis => simp [inductionHypothesis, and_assoc]

theorem QuotedIn.flatten {groups : List Group} (quoted : ∀ group ∈ groups, group.QuotedIn kind) :
    Group.QuotedIn kind groups.flatten := by
  induction groups with
  | nil => exact quotedIn_nil
  | cons group rest inductionHypothesis =>
    rw [List.forall_mem_cons] at quoted
    exact (quotedIn_append _ _).2 ⟨quoted.1, inductionHypothesis quoted.2⟩

theorem quotedIn_ofTriples {triples : List TriplePattern}
    (quoted : ∀ triple ∈ triples, triple.QuotedIn kind) :
    Group.QuotedIn kind (Group.ofTriples triples) := by
  induction triples with
  | nil => exact quotedIn_nil
  | cons triple rest inductionHypothesis =>
    rw [List.forall_mem_cons] at quoted
    exact (quotedIn_cons _ _).2 ⟨quoted.1, inductionHypothesis quoted.2⟩

end Group

namespace Element

@[simp] theorem quotedIn_triple (triple : TriplePattern) :
    (Element.triple triple).QuotedIn kind ↔ triple.QuotedIn kind :=
  Iff.rfl

@[simp] theorem quotedIn_ofTriple (subject : Term) (verb : Verb) (object : Term) :
    (ofTriple subject verb object).QuotedIn kind ↔
      subject.QuotedIn kind ∧ object.QuotedIn kind :=
  TriplePattern.quotedIn_mk subject verb object

@[simp] theorem quotedIn_optional (pattern : Group) :
    (optional pattern).QuotedIn kind ↔ Group.QuotedIn kind pattern :=
  Iff.rfl

@[simp] theorem quotedIn_union (branches : List Group) :
    (union branches).QuotedIn kind ↔ ∀ branch ∈ branches, Group.QuotedIn kind branch := by
  show (∀ literal ∈ branchLiterals branches, kind literal) ↔ _
  induction branches with
  | nil => simp [branchLiterals]
  | cons branch rest inductionHypothesis =>
    rw [branchLiterals, List.forall_mem_append, inductionHypothesis, List.forall_mem_cons]
    rfl

@[simp] theorem quotedIn_filter (condition : Expression) :
    (filter condition).QuotedIn kind ↔ condition.QuotedIn kind :=
  Iff.rfl

@[simp] theorem quotedIn_bind (value : Expression) (target : Variable) :
    (bind value target).QuotedIn kind ↔ value.QuotedIn kind :=
  Iff.rfl

@[simp] theorem quotedIn_column (target : Variable) (values : List Term) :
    (column target values).QuotedIn kind ↔ ∀ value ∈ values, value.QuotedIn kind := by
  have member (literal : Literal) : literal ∈ (column target values).literals ↔
      ∃ value ∈ values, literal ∈ value.literals := by
    simp [column, literals, Data.literals, Data.column, List.flatMap_map]
  constructor
  · exact fun quoted value listed literal inside =>
      quoted literal ((member literal).2 ⟨value, listed, inside⟩)
  · intro quoted literal inside
    obtain ⟨value, listed, named⟩ := (member literal).1 inside
    exact quoted value listed literal named

end Element

end ShapeQuery.Sparql
