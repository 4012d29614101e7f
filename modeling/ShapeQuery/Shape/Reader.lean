/-
This file reads node shapes and property shapes from shape graphs. What a graph leaves in no order
is sorted by content: classes by their text, paths and property shapes by their keys.
-/
import ShapeQuery.Number.Numeral
import ShapeQuery.Shape.ContentKey
import ShapeQuery.Shape.Path

namespace ShapeQuery.Rdf.Graph

open Number (unsigned? greatestWord greatestHalfWord)

/-! ### Values -/

/-- An object that has to be an IRI. -/
def iriValue (shape : Node) (predicate : Iri) (value : Term) : Except Shape.Error Iri :=
  match value with
  | .iri name => .ok name
  | _ => .error (.invalidValue shape predicate value)

/-- An object that has to be an IRI or a blank node. -/
def nodeValue (shape : Node) (predicate : Iri) (value : Term) : Except Shape.Error Node :=
  match value.node? with
  | some node => .ok node
  | none => .error (.invalidValue shape predicate value)

/-- An object that has to be an IRI or a literal. -/
def plainValue (shape : Node) (predicate : Iri) (value : Term) : Except Shape.Error Sparql.Term :=
  match value with
  | .iri name => .ok (.iri name)
  | .literal literal => .ok (.literal literal)
  | .blank _ => .error (.invalidValue shape predicate value)

/-- The number with a predicate, of at most `bound`, if the shape has one. -/
def countValue (graph : Graph) (bound : Nat) (shape : Node) (predicate : Iri) :
    Except Shape.Error (Option Nat) :=
  match graph.object? shape predicate with
  | none => .ok none
  | some value =>
    let count := match value with
      | .literal literal => unsigned? bound literal.value
      | _ => none
    match count with
    | some count => .ok (some count)
    | none => .error (.invalidValue shape predicate value)

/-- The synonym of the paths of a node, if it has one. -/
def synonymOf (graph : Graph) (node : Node) : Except Shape.Error (Option Iri) :=
  match graph.object? node Vocabulary.shextPathAlias with
  | none => .ok none
  | some value => (iriValue node Vocabulary.shextPathAlias value).map some

/-! ### Property shapes -/

/-- A member of a union: a path, or a node with a path and perhaps a synonym. -/
def choice (graph : Graph) (member : Term) : Except Shape.Error ShapePath := do
  let described := do
    let node ← member.node?
    let path ← graph.object? node Vocabulary.shPath
    some (node, path)
  match described with
  | some (node, path) =>
    let synonym ← graph.synonymOf node
    return ⟨← graph.path path, synonym⟩
  | none => return ⟨← graph.path member, none⟩

/-- The members of a path that is a union. -/
def choices? (graph : Graph) (path : Term) : Except Shape.Error (Option (List ShapePath)) := do
  match path.node?.bind fun node => graph.object? node Vocabulary.shUnion with
  | none => return none
  | some members => return some (← (← graph.elements members).mapM graph.choice)

/-- Splits the values of a path property into paths that must all match, which share a synonym,
and choices. -/
def shapePaths (graph : Graph) (synonym : Option Iri) :
    List Term → Except Shape.Error (List ShapePath × List ShapePath)
  | [] => .ok ([], [])
  | value :: rest => do
    match ← graph.choices? value with
    | some members =>
      let (paths, choices) ← graph.shapePaths synonym rest
      return (paths, members ++ choices)
    | none =>
      let path ← graph.path value
      let (paths, choices) ← graph.shapePaths synonym rest
      return (⟨path, synonym⟩ :: paths, choices)

/-- The condition on another property that a node describes. Single values are sorted by their
text, listed ones keep their order. -/
def filterConstraint (graph : Graph) (node : Node) : Except Shape.Error FilterConstraint := do
  match graph.object? node Vocabulary.shPath with
  | none => .error (.missingPath node.text)
  | some value =>
    let path ← graph.path value
    let single ← (graph.objects node Vocabulary.shHasValue).mapM
      (plainValue node Vocabulary.shHasValue)
    let listed ← match graph.object? node Vocabulary.shIn with
      | none => pure []
      | some members =>
        (← graph.elements members).mapM (plainValue node Vocabulary.shIn)
    let values := sortedByKey Sparql.Term.text single ++ listed
    if values.isEmpty then .error (.missingFilterValue node) else return ⟨path, values⟩

/-- The conditions of a property of a filter shape: those of its own properties if it has any. -/
def filtersOf (graph : Graph) (property : Node) : Except Shape.Error (List FilterConstraint) := do
  let nested ← (graph.objects property Vocabulary.shProperty).mapM
    (nodeValue property Vocabulary.shProperty)
  if nested.isEmpty then return [← graph.filterConstraint property]
  else nested.mapM graph.filterConstraint

/-- The conditions that the filter shapes of a property shape state. -/
def filters (graph : Graph) (shape : Node) : Except Shape.Error (List FilterConstraint) := do
  let lists ← (graph.objects shape Vocabulary.shFilterShape).mapM fun value => do
    let filterShape ← nodeValue shape Vocabulary.shFilterShape value
    let lists ← (graph.objects filterShape Vocabulary.shProperty).mapM fun value => do
      graph.filtersOf (← nodeValue filterShape Vocabulary.shProperty value)
    return lists.flatten
  return lists.flatten

/-- The class of a member of a disjunction. -/
def memberClass (graph : Graph) (shape : Node) (member : Term) : Except Shape.Error Iri :=
  match member.node? with
  | none => .error (.ambiguousClass shape.text .literalMember)
  | some node =>
    match graph.object? node Vocabulary.shClass with
    | none => .error (.ambiguousClass shape.text .memberWithoutClass)
    | some value => iriValue node Vocabulary.shClass value

/-- The classes one of which the value of a property must have: a single one, or the members of a
disjunction. -/
def classes (graph : Graph) (shape : Node) : Except Shape.Error (List Iri) := do
  let direct ← (graph.objects shape Vocabulary.shClass).mapM (iriValue shape Vocabulary.shClass)
  match direct, graph.object? shape Vocabulary.shOr with
  | [], none => return []
  | [single], none => return [single]
  | _, none => .error (.ambiguousClass shape.text .severalClasses)
  | [], some members => (← graph.elements members).mapM (graph.memberClass shape)
  | _, some _ => .error (.ambiguousClass shape.text .classAndChoice)

/-- The property shape at a node. -/
def propertyShape (graph : Graph) (node : Node) : Except Shape.Error PropertyShape := do
  let synonym ← graph.synonymOf node
  let (paths, choices) ← graph.shapePaths synonym (graph.objects node Vocabulary.shPath)
  if paths.isEmpty && choices.isEmpty then .error (.missingPath node.text)
  else
    let filters ← graph.filters node
    let classes ← graph.classes node
    let minCount ← graph.countValue greatestWord node Vocabulary.shMinCount
    let maxCount ← graph.countValue greatestWord node Vocabulary.shMaxCount
    return {
      id := node.text, paths := sortedByKey ShapePath.key paths, choices, classes, minCount,
      maxCount, filters }

/-! ### Node shapes -/

/-- The node shape with a name. -/
def nodeShape (graph : Graph) (shape : Iri) : Except Shape.Error NodeShape := do
  let node := Node.iri shape
  if !graph.hasSubject node then .error (.notFound shape.bracketed)
  else
    let classes ← (graph.objects node Vocabulary.shTargetClass).mapM
      (iriValue node Vocabulary.shTargetClass)
    let properties ← (graph.objects node Vocabulary.shProperty).mapM fun value => do
      graph.propertyShape (← nodeValue node Vocabulary.shProperty value)
    let blankDepth ← graph.countValue greatestHalfWord node Vocabulary.shextBnodeDepth
    let level ← graph.countValue greatestHalfWord node Vocabulary.ontHierarchyLevel
    return {
      id := shape.bracketed, classes := sortedByKey Iri.text classes,
      properties := sortedByKey PropertyShape.contentKey properties, blankDepth, level }

end ShapeQuery.Rdf.Graph
