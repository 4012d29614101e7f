/-
This file lowers shapes to fragments of queries. Every path of a shape gets nodes of its own,
numbered in the order in which the paths are lowered; the longest path that must match leads to
the terminal of a property shape.
-/
import ShapeQuery.Shape.BlankChain
import ShapeQuery.Shape.Error

namespace ShapeQuery

open Sparql (Path Term Variable Group)
open Shape (Scope Slot)

/-- The stem of the variables of the property shape at an index. The property shapes of an
endpoint share one. -/
def ShapeKind.stem (kind : ShapeKind) (index : Nat) : String :=
  match kind with
  | .endpoint => "path"
  | _ => "prof_" ++ toString (index + 1)

/-- What shapes are lowered for: their kind, the focus, and terms that take the place of
variables. -/
structure Lowering where
  kind : ShapeKind
  focus : Term
  fixed : List (Variable × Term)

namespace Lowering

/-! ### Paths -/

/-- The node with a number. Every path of a search leads to the same last node. -/
def node (lowering : Lowering) (stem : String) (number : Nat) (last : Bool) : Term :=
  if last && lowering.kind = .search then .var Shape.searchNode
  else
    let name := Slot.toVariable stem (.node number)
    (lowering.fixed.lookup name).getD (.var name)

/-- The nodes of a path with some hops, the first of which has the given number. -/
def nodes (lowering : Lowering) (stem : String) (first hops : Nat) : List Term :=
  (List.range hops).map fun offset =>
    lowering.node stem (first + offset) (offset + 1 = hops)

/-- Any triple of the focus. -/
def anyTriple (lowering : Lowering) (predicate value : Variable) : Fragment :=
  .ofTriple ⟨lowering.focus, .var predicate, .var value⟩

/-- A path from the focus along given nodes. The steps of a sequence are matched one by one unless
an endpoint is selected. -/
def along (lowering : Lowering) (path : Path) (nodes : List Term) (terminal : Term) : Fragment :=
  match path with
  | .sequence paths =>
    if lowering.kind = .endpoint then path.whole lowering.focus terminal
    else Path.walk lowering.focus (paths.zip nodes)
  | _ => path.whole lowering.focus terminal

/-- The triples that show a path: those of its steps, or the one of its synonym. -/
def shown (lowering : Lowering) (synonym : Option Iri) (terminal : Term) (walked : Fragment) :
    Fragment :=
  match synonym with
  | some predicate => { walked with template := [⟨lowering.focus, .iri predicate, terminal⟩] }
  | none => walked

/-- Lowers a path. While the terminal of the shape is undecided, the end of the path has to have
one of the classes. A path for all predicates has no end. -/
def path (lowering : Lowering) (classes : List Iri) (undecided : Bool) (scope : Scope)
    (path : ShapePath) : Fragment × Scope :=
  if path.path.predicate? = some Vocabulary.shextAllPredicateValues then
    let number := scope.nextPredicate
    (lowering.anyTriple (Slot.toVariable scope.stem (.predicate number))
        (Slot.toVariable scope.stem (.value number)),
      { scope with nextPredicate := number + 1 })
  else
    let first := scope.nextNode
    let hops := path.path.hops
    let nodes := lowering.nodes scope.stem first hops
    let terminal := nodes.getLast?.getD lowering.focus
    let walked := lowering.shown path.synonym terminal (lowering.along path.path nodes terminal)
    let classVariable := Slot.toVariable scope.stem (.nodeClasses (first + hops - 1))
    let constraint :=
      if undecided then Fragment.classified terminal classVariable classes else .empty
    ({ walked ++ constraint with terminal := some terminal },
      { scope with nextNode := first + hops })

/-- Lowers paths that must all match. -/
def paths (lowering : Lowering) (classes : List Iri) (undecided : Bool) (scope : Scope) :
    List ShapePath → Fragment × Scope
  | [] => (.empty, scope)
  | path :: rest =>
    let (first, scope) := lowering.path classes undecided scope path
    let (others, scope) :=
      lowering.paths classes (undecided && first.terminal.isNone) scope rest
    (first ++ others, scope)

/-! ### Unions -/

/-- Lowers each of some choices by itself. -/
def branches (lowering : Lowering) (classes : List Iri) (undecided : Bool) (scope : Scope) :
    List ShapePath → List Fragment × Scope
  | [] => ([], scope)
  | path :: rest =>
    let (first, scope) := lowering.path classes undecided scope path
    let (others, scope) := lowering.branches classes undecided scope rest
    (first :: others, scope)

/-- Binds a variable to the terminal of a branch. -/
def bound (target : Variable) (branch : Fragment) : Fragment :=
  match branch.terminal with
  | some (.var terminal) => branch ++ .hidden [.bind (.var terminal) target]
  | some terminal => branch ++ .hidden [.column target [terminal]]
  | none => branch

/-- Gives the branches of a union a terminal in common, unless they have one or the first has
none. -/
def joined (lowering : Lowering) (scope : Scope) (branches : List Fragment) :
    List Fragment × Option Term × Scope :=
  match branches.head?.bind Fragment.terminal with
  | none => (branches, none, scope)
  | some terminal =>
    if branches.all fun branch => branch.terminal = some terminal then
      (branches, some terminal, scope)
    else
      let number := scope.nextNode
      let scope := { scope with nextNode := number + 1 }
      match lowering.node scope.stem number false with
      | .var target => (branches.map (bound target), some (.var target), scope)
      | _ => (branches, none, scope)

/-- Lowers choices to a union. It has a terminal only while that of the shape is undecided. -/
def choices (lowering : Lowering) (classes : List Iri) (undecided : Bool) (scope : Scope)
    (choices : List ShapePath) : Fragment × Scope :=
  if choices.isEmpty then (.empty, scope)
  else
    let (branches, scope) := lowering.branches classes undecided scope choices
    let (branches, terminal, scope) :=
      if undecided then lowering.joined scope branches else (branches, none, scope)
    (⟨[.union (branches.map Fragment.pattern)], branches.flatMap Fragment.template, terminal⟩,
      scope)

/-! ### Property shapes -/

/-- Lowers a condition on another property. Several values are put into a table. -/
def filter (lowering : Lowering) (scope : Scope) (filter : FilterConstraint) : Fragment × Scope :=
  match filter.values with
  | [value] => (.ofTriple (filter.path.step lowering.focus value), scope)
  | values =>
    let number := scope.nextChoice
    let choice := Slot.toVariable scope.stem (.choice number)
    (.hidden [.column choice values] ++ .ofTriple (filter.path.step lowering.focus (.var choice)),
      { scope with nextChoice := number + 1 })

/-- Lowers some conditions. -/
def filters (lowering : Lowering) (scope : Scope) : List FilterConstraint → Fragment × Scope
  | [] => (.empty, scope)
  | constraint :: rest =>
    let (first, scope) := lowering.filter scope constraint
    let (others, scope) := lowering.filters scope rest
    (first ++ others, scope)

/-- Lowers a property shape without values: the focus has a triple with a predicate that is not
one of the declared ones. -/
def exclusion (lowering : Lowering) (scope : Scope) (shape : PropertyShape) :
    Except Shape.Error (Fragment × Scope) := do
  let predicates ← (shape.paths ++ shape.choices).mapM fun path =>
    match path.path.predicate? with
    | some predicate => .ok predicate
    | none => .error (.unsupportedPath shape.id .excludedCompound)
  let number := scope.nextPredicate
  let predicate := Slot.toVariable scope.stem (.predicate number)
  let excluded := Slot.toVariable scope.stem (.excludedValue number)
  return (lowering.anyTriple predicate excluded
      ++ .hidden [.filter (.noneOf (.var predicate) (predicates.map .iri))],
    { scope with nextPredicate := number + 1 })

/-- The longest paths first; paths of one length keep their order. -/
def longestFirst (paths : List ShapePath) : List ShapePath :=
  paths.mergeSort fun first second => decide (second.path.hops ≤ first.path.hops)

/-- Makes a fragment optional. -/
def madeOptional (fragment : Fragment) : Fragment :=
  { fragment with pattern := [.optional fragment.pattern] }

/-- Lowers a property shape. -/
def property (lowering : Lowering) (scope : Scope) (shape : PropertyShape) :
    Except Shape.Error (Fragment × Scope) :=
  if shape.maxCount = some 0 then lowering.exclusion scope shape
  else
    let (required, scope) := lowering.paths shape.classes true scope (longestFirst shape.paths)
    let (union, scope) :=
      lowering.choices shape.classes required.terminal.isNone scope shape.choices
    let (conditions, scope) := lowering.filters scope shape.filters
    let whole := required ++ union ++ conditions
    .ok (if shape.minCount = some 0 then madeOptional whole else whole, scope)

/-! ### Node shapes -/

/-- Lowers the property shapes from an index on. Those of an endpoint share one scope. -/
def properties (lowering : Lowering) (index : Nat) (shared : Scope) :
    List PropertyShape → Except Shape.Error Fragment
  | [] => .ok .empty
  | shape :: rest => do
    let scope :=
      if lowering.kind = .endpoint then shared else Scope.start (lowering.kind.stem index)
    let (first, scope) ← lowering.property scope shape
    return first ++ (← lowering.properties (index + 1) scope rest)

/-- Gives the focus one of the target classes; every resource has the class of all resources. -/
def targetClasses (lowering : Lowering) (classes : List Iri) : Fragment :=
  if classes = [Vocabulary.rdfsResource] then .empty
  else .classified lowering.focus Shape.focusClasses classes

/-- Lowers a node shape. It has no terminal. -/
def nodeShape (lowering : Lowering) (shape : NodeShape) : Except Shape.Error Fragment := do
  if lowering.kind = .endpoint ∧ shape.level = none then
    .error (.missingHierarchyLevel shape.id)
  else if shape.classes.isEmpty then .error (.missingTargetClass shape.id)
  else
    let properties ←
      lowering.properties 0 (Scope.start (lowering.kind.stem 0)) shape.properties
    let whole := lowering.targetClasses shape.classes ++ properties
      ++ Shape.blankChain lowering.focus (shape.blankDepth.getD 0)
    return { whole with terminal := none }

end Lowering

end ShapeQuery
