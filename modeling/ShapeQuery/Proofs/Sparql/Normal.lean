/-
This file defines the normal forms of query trees. The grammar has no text for a union of one group
other than the group, and none for a conjunction, a disjunction, a sequence or an alternative of one
operand other than the operand; a normal form has the group or the operand itself. Of all that is
collapsed only a union is written like what it collapses to; around an operand that binds weakly,
parentheses stay.
-/
import ShapeQuery.Proofs.Sparql.Completeness
import ShapeQuery.Proofs.Sparql.Grammar
import ShapeQuery.Proofs.Sparql.Harmless

namespace ShapeQuery.Sparql

/-! ### Normal forms -/

mutual

/-- The normal form of a path. -/
def Path.normal : Path → Path
  | .predicate iri => .predicate iri
  | .inverse path => .inverse path.normal
  | .sequence paths => collapse .sequence (Path.normals paths)
  | .alternative paths => collapse .alternative (Path.normals paths)
  | .zeroOrMore path => .zeroOrMore path.normal
  | .oneOrMore path => .oneOrMore path.normal
  | .zeroOrOne path => .zeroOrOne path.normal

/-- The normal forms of some paths. -/
def Path.normals : List Path → List Path
  | [] => []
  | path :: rest => path.normal :: Path.normals rest

end

/-- The normal form of a verb. -/
def Verb.normal : Verb → Verb
  | .var name => .var name
  | .path route => .path route.normal

/-- The normal form of a triple. -/
def TriplePattern.normal (triple : TriplePattern) : TriplePattern :=
  { triple with verb := triple.verb.normal }

/-- A union of groups, which is a group if there is only one. -/
def Element.united : List Group → Element
  | [branch] => .group branch
  | branches => .union branches

mutual

/-- The normal form of an expression. -/
def Expression.normal : Expression → Expression
  | .var name => .var name
  | .iri name => .iri name
  | .literal value => .literal value
  | .or operands => collapse .or (normalList operands)
  | .and operands => collapse .and (normalList operands)
  | .compare left comparison right => .compare left.normal comparison right.normal
  | .oneOf value choices => .oneOf value.normal (normalList choices)
  | .noneOf value choices => .noneOf value.normal (normalList choices)
  | .not operand => .not operand.normal
  | .call function arguments => .call function (normalList arguments)
  | .exists pattern => .exists (normalGroup pattern)
  | .notExists pattern => .notExists (normalGroup pattern)
  | .count distinct none => .count distinct none
  | .count distinct (some counted) => .count distinct (some counted.normal)
  | .sum distinct summed => .sum distinct summed.normal

/-- The normal forms of some expressions. -/
def normalList : List Expression → List Expression
  | [] => []
  | expression :: rest => expression.normal :: normalList rest

/-- The normal form of an element. -/
def Element.normal : Element → Element
  | .triple triple => .triple triple.normal
  | .optional pattern => .optional (normalGroup pattern)
  | .union branches => .united (normalBranches branches)
  | .group pattern => .group (normalGroup pattern)
  | .filter condition => .filter condition.normal
  | .values data => .values data
  | .bind value target => .bind value.normal target
  | .service name silent pattern => .service name silent (normalGroup pattern)
  | .select query => .select query.normal

/-- The normal form of a group. -/
def normalGroup : List Element → List Element
  | [] => []
  | element :: rest => element.normal :: normalGroup rest

/-- The normal forms of some groups. -/
def normalBranches : List (List Element) → List (List Element)
  | [] => []
  | branch :: rest => normalGroup branch :: normalBranches rest

/-- The normal form of a column of a selection. -/
def Projection.normal : Projection → Projection
  | .var name => .var name
  | .expression value target => .expression value.normal target

/-- The normal forms of some columns. -/
def normalColumns : List Projection → List Projection
  | [] => []
  | column :: rest => column.normal :: normalColumns rest

/-- The normal form of a criterion of an order. -/
def OrderCondition.normal : OrderCondition → OrderCondition
  | .ascending key => .ascending key.normal
  | .descending key => .descending key.normal

/-- The normal forms of some criteria. -/
def normalCriteria : List OrderCondition → List OrderCondition
  | [] => []
  | criterion :: rest => criterion.normal :: normalCriteria rest

/-- The normal form of a modifier. -/
def Modifier.normal : Modifier → Modifier
  | ⟨groupBy, orderBy, limit, offset⟩ => ⟨groupBy, normalCriteria orderBy, limit, offset⟩

/-- The normal form of a selection. -/
def Select.normal : Select → Select
  | ⟨distinct, none, pattern, modifier⟩ => ⟨distinct, none, normalGroup pattern, modifier.normal⟩
  | ⟨distinct, some columns, pattern, modifier⟩ =>
    ⟨distinct, some (normalColumns columns), normalGroup pattern, modifier.normal⟩

end

/-- The normal form of a query. -/
def Query.normal (query : Query) : Query :=
  ⟨query.template, normalGroup query.pattern, query.modifier.normal⟩

theorem Path.normals_eq (paths : List Path) : Path.normals paths = paths.map Path.normal := by
  induction paths with
  | nil => rfl
  | cons path rest inductionHypothesis => rw [Path.normals, inductionHypothesis, List.map_cons]

theorem normalList_eq (expressions : List Expression) :
    normalList expressions = expressions.map Expression.normal := by
  induction expressions with
  | nil => rfl
  | cons expression rest inductionHypothesis =>
    rw [normalList, inductionHypothesis, List.map_cons]

theorem normalGroup_eq (group : Group) : normalGroup group = group.map Element.normal := by
  induction group with
  | nil => rfl
  | cons element rest inductionHypothesis => rw [normalGroup, inductionHypothesis, List.map_cons]

theorem normalBranches_eq (branches : List Group) :
    normalBranches branches = branches.map normalGroup := by
  induction branches with
  | nil => rfl
  | cons branch rest inductionHypothesis => rw [normalBranches, inductionHypothesis, List.map_cons]

theorem normalColumns_eq (columns : List Projection) :
    normalColumns columns = columns.map Projection.normal := by
  induction columns with
  | nil => rfl
  | cons column rest inductionHypothesis => rw [normalColumns, inductionHypothesis, List.map_cons]

theorem normalCriteria_eq (criteria : List OrderCondition) :
    normalCriteria criteria = criteria.map OrderCondition.normal := by
  induction criteria with
  | nil => rfl
  | cons criterion rest inductionHypothesis =>
    rw [normalCriteria, inductionHypothesis, List.map_cons]

/-! ### Inspections -/

/-- Tests for the paths, tables and expressions of a tree. -/
structure Inspection where
  path : Path → Bool
  data : Data → Bool
  expression : Expression → Bool

namespace Inspection

variable (inspection : Inspection)

mutual

/-- Whether a path and all in it pass. -/
def passesPath : Path → Bool
  | .predicate iri => inspection.path (.predicate iri)
  | .inverse path => inspection.path (.inverse path) && passesPath path
  | .sequence paths => inspection.path (.sequence paths) && passesPaths paths
  | .alternative paths => inspection.path (.alternative paths) && passesPaths paths
  | .zeroOrMore path => inspection.path (.zeroOrMore path) && passesPath path
  | .oneOrMore path => inspection.path (.oneOrMore path) && passesPath path
  | .zeroOrOne path => inspection.path (.zeroOrOne path) && passesPath path

/-- Whether some paths and all in them pass. -/
def passesPaths : List Path → Bool
  | [] => true
  | path :: rest => passesPath path && passesPaths rest

end

/-- Whether a verb passes. -/
def passesVerb : Verb → Bool
  | .var _ => true
  | .path route => inspection.passesPath route

mutual

/-- Whether an expression and all in it pass. -/
def passes : Expression → Bool
  | .var name => inspection.expression (.var name)
  | .iri name => inspection.expression (.iri name)
  | .literal value => inspection.expression (.literal value)
  | .or operands => inspection.expression (.or operands) && passesList operands
  | .and operands => inspection.expression (.and operands) && passesList operands
  | .compare left comparison right =>
    inspection.expression (.compare left comparison right) && passes left && passes right
  | .oneOf value choices =>
    inspection.expression (.oneOf value choices) && passes value && passesList choices
  | .noneOf value choices =>
    inspection.expression (.noneOf value choices) && passes value && passesList choices
  | .not operand => inspection.expression (.not operand) && passes operand
  | .call function arguments =>
    inspection.expression (.call function arguments) && passesList arguments
  | .exists pattern => inspection.expression (.exists pattern) && passesGroup pattern
  | .notExists pattern => inspection.expression (.notExists pattern) && passesGroup pattern
  | .count distinct none => inspection.expression (.count distinct none)
  | .count distinct (some counted) =>
    inspection.expression (.count distinct (some counted)) && passes counted
  | .sum distinct summed => inspection.expression (.sum distinct summed) && passes summed

/-- Whether some expressions and all in them pass. -/
def passesList : List Expression → Bool
  | [] => true
  | expression :: rest => passes expression && passesList rest

/-- Whether all in an element passes. -/
def passesElement : Element → Bool
  | .triple triple => inspection.passesVerb triple.verb
  | .optional pattern => passesGroup pattern
  | .union branches => passesBranches branches
  | .group pattern => passesGroup pattern
  | .filter condition => passes condition
  | .values data => inspection.data data
  | .bind value _ => passes value
  | .service _ _ pattern => passesGroup pattern
  | .select query => passesSelect query

/-- Whether all in a group passes. -/
def passesGroup : List Element → Bool
  | [] => true
  | element :: rest => passesElement element && passesGroup rest

/-- Whether all in some groups passes. -/
def passesBranches : List (List Element) → Bool
  | [] => true
  | branch :: rest => passesGroup branch && passesBranches rest

/-- Whether all in a column of a selection passes. -/
def passesColumn : Projection → Bool
  | .var _ => true
  | .expression value _ => passes value

/-- Whether all in some columns passes. -/
def passesColumns : List Projection → Bool
  | [] => true
  | column :: rest => passesColumn column && passesColumns rest

/-- Whether all in a criterion passes. -/
def passesCriterion : OrderCondition → Bool
  | .ascending key => passes key
  | .descending key => passes key

/-- Whether all in some criteria passes. -/
def passesCriteria : List OrderCondition → Bool
  | [] => true
  | criterion :: rest => passesCriterion criterion && passesCriteria rest

/-- Whether all in a modifier passes. -/
def passesModifier : Modifier → Bool
  | ⟨_, orderBy, _, _⟩ => passesCriteria orderBy

/-- Whether all in a selection passes. -/
def passesSelect : Select → Bool
  | ⟨_, none, pattern, modifier⟩ => passesGroup pattern && passesModifier modifier
  | ⟨_, some columns, pattern, modifier⟩ =>
    passesColumns columns && passesGroup pattern && passesModifier modifier

end

theorem passesList_eq (expressions : List Expression) :
    inspection.passesList expressions = expressions.all inspection.passes := by
  induction expressions with
  | nil => rfl
  | cons expression rest inductionHypothesis =>
    rw [passesList, inductionHypothesis, List.all_cons]

theorem passesGroup_eq (group : Group) :
    inspection.passesGroup group = group.all inspection.passesElement := by
  induction group with
  | nil => rfl
  | cons element rest inductionHypothesis =>
    rw [passesGroup, inductionHypothesis, List.all_cons]

theorem passesBranches_eq (branches : List Group) :
    inspection.passesBranches branches = branches.all inspection.passesGroup := by
  induction branches with
  | nil => rfl
  | cons branch rest inductionHypothesis =>
    rw [passesBranches, inductionHypothesis, List.all_cons]

theorem passesColumns_eq (columns : List Projection) :
    inspection.passesColumns columns = columns.all inspection.passesColumn := by
  induction columns with
  | nil => rfl
  | cons column rest inductionHypothesis =>
    rw [passesColumns, inductionHypothesis, List.all_cons]

theorem passesCriteria_eq (criteria : List OrderCondition) :
    inspection.passesCriteria criteria = criteria.all inspection.passesCriterion := by
  induction criteria with
  | nil => rfl
  | cons criterion rest inductionHypothesis =>
    rw [passesCriteria, inductionHypothesis, List.all_cons]

/-- Whether all in a query passes. -/
def passesQuery (query : Query) : Bool :=
  inspection.passesGroup query.pattern && inspection.passesModifier query.modifier

/-! ### Trees that are read back -/

/-- Whether a value of a table is an IRI or a literal. -/
def isValue : Term → Bool
  | .iri _ => true
  | .literal _ => true
  | _ => false

/-- Whether an expression is a variable. -/
def isVariable : Expression → Bool
  | .var _ => true
  | _ => false

/-- The test for what the grammar allows: tables hold values, and only variables are asked for
whether they are bound. -/
def grammatical : Inspection where
  path _ := true
  data data := data.rows.all fun row => row.all fun cell => cell.all isValue
  expression
    | .call .bound arguments => arguments.all isVariable
    | _ => true

/-- The test for lists of operands that have several members. -/
def plural : Inspection where
  path
    | .sequence [_] => false
    | .alternative [_] => false
    | _ => true
  data _ := true
  expression
    | .or [_] => false
    | .and [_] => false
    | _ => true

end Inspection

end ShapeQuery.Sparql
