/-
This file proves that the variables of a lowered node shape are allocated once. What a shape is
lowered to is described without numbers, as patterns over variables that each part takes for itself:
a node for every hop, one for the common end of a union, a predicate and a value for a wildcard or an
exclusion, a choice for a table of values, and a class for an end that may have one of several. No
two parts take the same variable, and none takes that of the focus, of its classes or of a chain of
blank nodes.
-/
import ShapeQuery.Proofs.Shape.Deciding

namespace ShapeQuery

open Sparql (Path Term Variable Unknown)
open Shape (Slot Scope)
open Success (bind_ok)

namespace Lowering

/-! ### What parts take -/

/-- The variables for the class of an end: one if it may be one of several. -/
def classNames (classVariable : Variable) : List Iri → List Variable
  | [] => []
  | [_] => []
  | _ => [classVariable]

/-- What a path is lowered to, and the variables that it takes. -/
inductive TakesPath (lowering : Lowering) (classes : List Iri) (undecided : Bool)
    (path : ShapePath) : List Variable → Fragment → Prop where
  /-- A path for all predicates takes a predicate and a value. -/
  | wildcard (every : path.isWildcard = true) (predicate value : Variable) :
      lowering.TakesPath classes undecided path [predicate, value]
        (lowering.anyTriple predicate value)
  /-- Any other path takes a node for each of its hops. While the terminal of the shape is
  undecided, it also takes what its end needs to have one of the classes. -/
  | hops (single : path.isWildcard = false) (nodes : List Variable) (last classVariable : Variable)
      (length : nodes.length = path.path.hops) (ends : nodes.getLast? = some last) :
      lowering.TakesPath classes undecided path
        (nodes ++ if undecided then classNames classVariable classes else [])
        { lowering.shown path.synonym (.var last)
              (lowering.along path.path (nodes.map .var) (.var last)) ++
            (if undecided then .classified (.var last) classVariable classes else .empty) with
          terminal := some (.var last) }

/-- What paths that must all match take. -/
inductive TakesPaths (lowering : Lowering) (classes : List Iri) :
    Bool → List ShapePath → List Variable → Fragment → Prop where
  | nil (undecided : Bool) : lowering.TakesPaths classes undecided [] [] .empty
  | cons {undecided : Bool} {path : ShapePath} {rest : List ShapePath}
      {names more : List Variable} {first others : Fragment}
      (one : lowering.TakesPath classes undecided path names first)
      (later : lowering.TakesPaths classes (undecided && first.terminal.isNone) rest more others) :
      lowering.TakesPaths classes undecided (path :: rest) (names ++ more) (first ++ others)

/-- What choices take, each by itself. -/
inductive TakesBranches (lowering : Lowering) (classes : List Iri) (undecided : Bool) :
    List ShapePath → List Variable → List Fragment → Prop where
  | nil : lowering.TakesBranches classes undecided [] [] []
  | cons {path : ShapePath} {rest : List ShapePath} {names more : List Variable}
      {first : Fragment} {others : List Fragment}
      (one : lowering.TakesPath classes undecided path names first)
      (later : lowering.TakesBranches classes undecided rest more others) :
      lowering.TakesBranches classes undecided (path :: rest) (names ++ more) (first :: others)

/-- What the common end of branches takes: a node, unless they have one or the first has none. -/
inductive TakesJoined (branches : List Fragment) :
    List Variable → List Fragment → Option Term → Prop where
  | endless (endless : branches.head?.bind Fragment.terminal = none) :
      TakesJoined branches [] branches none
  | common {terminal : Term} (leads : branches.head?.bind Fragment.terminal = some terminal)
      (same : ∀ branch ∈ branches, branch.terminal = some terminal) :
      TakesJoined branches [] branches (some terminal)
  | joined {terminal : Term} (leads : branches.head?.bind Fragment.terminal = some terminal)
      (different : ∃ branch ∈ branches, branch.terminal ≠ some terminal) (target : Variable) :
      TakesJoined branches [target] (branches.map (bound target)) (some (.var target))

/-- What choices that are lowered to a union take. -/
inductive TakesChoices (lowering : Lowering) (classes : List Iri) :
    Bool → List ShapePath → List Variable → Fragment → Prop where
  | empty (undecided : Bool) : lowering.TakesChoices classes undecided [] [] .empty
  | decided {choices : List ShapePath} {names : List Variable} {branches : List Fragment}
      (nonempty : choices ≠ [])
      (each : lowering.TakesBranches classes false choices names branches) :
      lowering.TakesChoices classes false choices names
        ⟨[.union (branches.map Fragment.pattern)], branches.flatMap Fragment.template, none⟩
  | undecided {choices : List ShapePath} {names more : List Variable}
      {branches joined : List Fragment} {terminal : Option Term} (nonempty : choices ≠ [])
      (each : lowering.TakesBranches classes true choices names branches)
      (together : TakesJoined branches more joined terminal) :
      lowering.TakesChoices classes true choices (names ++ more)
        ⟨[.union (joined.map Fragment.pattern)], joined.flatMap Fragment.template, terminal⟩

/-- What a condition takes: a choice, unless it has one value. -/
inductive TakesFilter (lowering : Lowering) (constraint : FilterConstraint) :
    List Variable → Fragment → Prop where
  | single (value : Term) (only : constraint.values = [value]) :
      lowering.TakesFilter constraint [] (.ofTriple (constraint.path.step lowering.focus value))
  | several (choice : Variable) (many : ∀ value, constraint.values ≠ [value]) :
      lowering.TakesFilter constraint [choice]
        (.hidden [.column choice constraint.values] ++
          .ofTriple (constraint.path.step lowering.focus (.var choice)))

/-- What some conditions take. -/
inductive TakesFilters (lowering : Lowering) :
    List FilterConstraint → List Variable → Fragment → Prop where
  | nil : lowering.TakesFilters [] [] .empty
  | cons {constraint : FilterConstraint} {rest : List FilterConstraint}
      {names more : List Variable} {first others : Fragment}
      (one : lowering.TakesFilter constraint names first)
      (later : lowering.TakesFilters rest more others) :
      lowering.TakesFilters (constraint :: rest) (names ++ more) (first ++ others)

/-- What a property shape takes. -/
inductive TakesProperty (lowering : Lowering) (shape : PropertyShape) :
    List Variable → Fragment → Prop where
  /-- A shape without values takes a predicate and a value. -/
  | excluded (empty : shape.maxCount = some 0) (predicate value : Variable) :
      lowering.TakesProperty shape [predicate, value]
        (lowering.anyTriple predicate value ++
          .hidden [.filter (.noneOf (.var predicate) (shape.declared.map .iri))])
  /-- Any other shape takes what its paths, its choices and its conditions take. -/
  | whole (values : shape.maxCount ≠ some 0) {names more others : List Variable}
      {required union conditions : Fragment}
      (paths : lowering.TakesPaths shape.classes true (longestFirst shape.paths) names required)
      (choices : lowering.TakesChoices shape.classes required.terminal.isNone shape.choices more
        union)
      (filters : lowering.TakesFilters shape.filters others conditions) :
      lowering.TakesProperty shape (names ++ more ++ others)
        (if shape.minCount = some 0 then madeOptional (required ++ union ++ conditions)
          else required ++ union ++ conditions)

/-- What the property shapes of a node shape take. -/
inductive TakesProperties (lowering : Lowering) :
    List PropertyShape → List Variable → Fragment → Prop where
  | nil : lowering.TakesProperties [] [] .empty
  | cons {shape : PropertyShape} {rest : List PropertyShape} {names more : List Variable}
      {first others : Fragment} (one : lowering.TakesProperty shape names first)
      (later : lowering.TakesProperties rest more others) :
      lowering.TakesProperties (shape :: rest) (names ++ more) (first ++ others)

/-! ### Numbers -/

/-- Whether some variables are different ones whose numbers are free in one scope and taken in a
later one. -/
structure Allotted (before after : Scope) (names : List Variable) : Prop where
  precedes : before.Precedes after
  owned : ∀ name ∈ names, before.Owns after (.var name)
  distinct : names.Nodup

namespace Allotted

variable {before middle after : Scope} {names more : List Variable}

theorem nil (precedes : before.Precedes after) : Allotted before after [] :=
  ⟨precedes, fun _ member => absurd member List.not_mem_nil, List.nodup_nil⟩

/-- Parts that are lowered one after another do not take the same number. -/
theorem append (one : Allotted before middle names) (later : Allotted middle after more) :
    Allotted before after (names ++ more) := by
  refine ⟨one.precedes.trans later.precedes, List.forall_mem_append.2 ⟨?_, ?_⟩, ?_⟩
  · exact fun name member => (one.owned name member).mono (.refl _) later.precedes
  · exact fun name member => (later.owned name member).mono one.precedes (.refl _)
  · refine List.nodup_append'.2 ⟨one.distinct, later.distinct, fun name inOne inLater => ?_⟩
    exact (one.owned name inOne).apart one.precedes (later.owned name inLater)

theorem sublist (allotted : Allotted before after more) (within : names.Sublist more) :
    Allotted before after names :=
  ⟨allotted.precedes, fun name member => allotted.owned name (within.subset member),
    allotted.distinct.sublist within⟩

/-- The variables of different slots are different. -/
theorem ofSlots (precedes : before.Precedes after) {slots : List Slot}
    (between : ∀ slot ∈ slots, slot.Between before after) (distinct : slots.Nodup) :
    Allotted before after (slots.map (Slot.toVariable before.stem)) :=
  ⟨precedes, List.forall_mem_map.2 fun slot member => ⟨slot, between slot member, rfl⟩,
    distinct.map (Slot.toVariable_injective before.stem)⟩

theorem single (precedes : before.Precedes after) {slot : Slot}
    (between : slot.Between before after) :
    Allotted before after [slot.toVariable before.stem] :=
  .ofSlots precedes (List.forall_mem_singleton.2 between) (List.nodup_singleton slot)

theorem pair (precedes : before.Precedes after) {first second : Slot}
    (one : first.Between before after) (other : second.Between before after)
    (different : first ≠ second) :
    Allotted before after [first.toVariable before.stem, second.toVariable before.stem] :=
  .ofSlots precedes (List.forall_mem_cons.2 ⟨one, List.forall_mem_singleton.2 other⟩)
    (List.nodup_cons.2 ⟨fun same => different (List.mem_singleton.1 same), List.nodup_singleton second⟩)

end Allotted

theorem classNames_sublist (classVariable : Variable) (classes : List Iri) :
    (classNames classVariable classes).Sublist [classVariable] := by
  unfold classNames
  split
  · exact List.nil_sublist _
  · exact List.nil_sublist _
  · exact List.Sublist.refl _

/-- The names of nodes with numbers one after another. -/
def nodeNames (stem : String) (first hops : Nat) : List Variable :=
  (List.range hops).map fun offset => (Slot.node (first + offset)).toVariable stem

theorem nodeNames_length (stem : String) (first hops : Nat) :
    (nodeNames stem first hops).length = hops := by
  rw [nodeNames, List.length_map, List.length_range]

theorem nodeNames_getLast? (stem : String) (first : Nat) {hops : Nat} (step : hops ≠ 0) :
    (nodeNames stem first hops).getLast? =
      some ((Slot.node (first + hops - 1)).toVariable stem) := by
  obtain ⟨previous, rfl⟩ := Nat.exists_eq_succ_of_ne_zero step
  simp [nodeNames, List.range_succ]

/-- The nodes of a path and the class of its end are different. -/
theorem allotted_hops {before after : Scope} (precedes : before.Precedes after) {hops : Nat}
    (step : hops ≠ 0) (reserved : after.nextNode = before.nextNode + hops) :
    Allotted before after (nodeNames before.stem before.nextNode hops ++
      [(Slot.nodeClasses (before.nextNode + hops - 1)).toVariable before.stem]) := by
  let nodes := (List.range hops).map fun offset => Slot.node (before.nextNode + offset)
  let last := Slot.nodeClasses (before.nextNode + hops - 1)
  have allotted : Allotted before after
      ((nodes ++ [last]).map (Slot.toVariable before.stem)) := by
    refine .ofSlots precedes (List.forall_mem_append.2 ⟨?_, ?_⟩) ?_
    · refine List.forall_mem_map.2 fun offset member => ?_
      have bounded := List.mem_range.1 member
      exact ⟨by omega, by omega⟩
    · exact List.forall_mem_singleton.2 ⟨by omega, by omega⟩
    · refine List.nodup_append'.2 ⟨?_, List.nodup_singleton _, by simp [nodes, last]⟩
      exact List.nodup_range.map fun _ _ same => Nat.add_left_cancel (Slot.node.inj same)
  rwa [List.map_append, List.map_map] at allotted

section Plain

variable {lowering : Lowering} (plain : lowering.Plain)

include plain

theorem path_takes (classes : List Iri) (undecided : Bool) (scope : Scope) {path : ShapePath}
    (step : path.path.hops ≠ 0) :
    ∃ names, lowering.TakesPath classes undecided path names
        (lowering.path classes undecided scope path).1 ∧
      Allotted scope (lowering.path classes undecided scope path).2 names := by
  have precedes := @path_precedes lowering classes undecided scope path
  unfold Lowering.path at precedes ⊢
  split
  · rename_i every
    rw [if_pos every] at precedes
    have taken : scope.nextPredicate ≤ scope.nextPredicate ∧
        scope.nextPredicate < scope.nextPredicate + 1 := ⟨Nat.le_refl _, Nat.lt_succ_self _⟩
    exact ⟨_, .wildcard (decide_eq_true every) _ _, .pair precedes taken taken nofun⟩
  · rename_i single
    rw [if_neg single] at precedes
    have nodes : lowering.nodes scope.stem scope.nextNode path.path.hops =
        (nodeNames scope.stem scope.nextNode path.path.hops).map .var := by
      rw [plain.nodes, nodeNames, List.map_map]
      rfl
    simp only [plain.terminal scope.stem scope.nextNode step]
    simp only [nodes]
    refine ⟨_, .hops (decide_eq_false single) _ _ _ (nodeNames_length _ _ _)
      (nodeNames_getLast? _ _ step), (allotted_hops precedes step rfl).sublist ?_⟩
    refine (List.Sublist.refl _).append ?_
    split
    · exact classNames_sublist _ _
    · exact List.nil_sublist _

theorem paths_takes (classes : List Iri) (undecided : Bool) (scope : Scope)
    {paths : List ShapePath} (steps : ∀ path ∈ paths, path.path.hops ≠ 0) :
    ∃ names, lowering.TakesPaths classes undecided paths names
        (lowering.paths classes undecided scope paths).1 ∧
      Allotted scope (lowering.paths classes undecided scope paths).2 names := by
  induction paths generalizing undecided scope with
  | nil => exact ⟨[], .nil undecided, .nil (.refl scope)⟩
  | cons path rest inductionHypothesis =>
    rw [List.forall_mem_cons] at steps
    obtain ⟨names, taken, allotted⟩ := path_takes plain classes undecided scope steps.1
    obtain ⟨more, others, later⟩ := inductionHypothesis
      (undecided && (lowering.path classes undecided scope path).1.terminal.isNone)
      (lowering.path classes undecided scope path).2 steps.2
    rw [paths_cons]
    exact ⟨names ++ more, .cons taken others, allotted.append later⟩

/-! ### Unions -/

theorem branches_takes (classes : List Iri) (undecided : Bool) (scope : Scope)
    {paths : List ShapePath} (steps : ∀ path ∈ paths, path.path.hops ≠ 0) :
    ∃ names, lowering.TakesBranches classes undecided paths names
        (lowering.branches classes undecided scope paths).1 ∧
      Allotted scope (lowering.branches classes undecided scope paths).2 names := by
  induction paths generalizing scope with
  | nil => exact ⟨[], .nil, .nil (.refl scope)⟩
  | cons path rest inductionHypothesis =>
    rw [List.forall_mem_cons] at steps
    obtain ⟨names, taken, allotted⟩ := path_takes plain classes undecided scope steps.1
    obtain ⟨more, others, later⟩ :=
      inductionHypothesis (lowering.path classes undecided scope path).2 steps.2
    rw [branches_cons]
    exact ⟨names ++ more, .cons taken others, allotted.append later⟩

theorem joined_takes (scope : Scope) (branches : List Fragment) :
    ∃ names, TakesJoined branches names (lowering.joined scope branches).1
        (lowering.joined scope branches).2.1 ∧
      Allotted scope (lowering.joined scope branches).2.2 names := by
  unfold joined
  split
  · rename_i endless
    exact ⟨[], .endless endless, .nil (.refl scope)⟩
  · rename_i terminal leads
    split
    · rename_i same
      refine ⟨[], .common leads fun branch member => ?_, .nil (.refl scope)⟩
      exact of_decide_eq_true (List.all_eq_true.1 same branch member)
    · rename_i different
      simp only [plain.node]
      have precedes : scope.Precedes { scope with nextNode := scope.nextNode + 1 } :=
        ⟨rfl, Nat.le_succ _, Nat.le_refl _, Nat.le_refl _⟩
      exact ⟨_, .joined leads (by simpa using different) _,
        .single precedes ⟨Nat.le_refl _, Nat.lt_succ_self _⟩⟩

theorem choices_takes (classes : List Iri) (undecided : Bool) (scope : Scope)
    {choices : List ShapePath} (steps : ∀ path ∈ choices, path.path.hops ≠ 0) :
    ∃ names, lowering.TakesChoices classes undecided choices names
        (lowering.choices classes undecided scope choices).1 ∧
      Allotted scope (lowering.choices classes undecided scope choices).2 names := by
  obtain ⟨names, each, allotted⟩ := branches_takes plain classes undecided scope steps
  unfold Lowering.choices
  split
  · rename_i empty
    rw [List.isEmpty_iff.1 empty]
    exact ⟨[], .empty undecided, .nil (.refl scope)⟩
  · rename_i nonempty
    have nonempty : choices ≠ [] := fun empty => nonempty (List.isEmpty_iff.2 empty)
    cases undecided with
    | false => exact ⟨names, .decided nonempty each, allotted⟩
    | true =>
      obtain ⟨more, together, later⟩ := joined_takes plain
        (lowering.branches classes true scope choices).2
        (lowering.branches classes true scope choices).1
      exact ⟨names ++ more, .undecided nonempty each together, allotted.append later⟩

/-! ### Property shapes -/

omit plain in
theorem filter_takes (scope : Scope) (constraint : FilterConstraint) :
    ∃ names, lowering.TakesFilter constraint names (lowering.filter scope constraint).1 ∧
      Allotted scope (lowering.filter scope constraint).2 names := by
  unfold Lowering.filter
  split
  · rename_i value only
    exact ⟨[], .single value only, .nil (.refl scope)⟩
  · rename_i many
    have precedes : scope.Precedes { scope with nextChoice := scope.nextChoice + 1 } :=
      ⟨rfl, Nat.le_refl _, Nat.le_refl _, Nat.le_succ _⟩
    exact ⟨_, .several _ many, .single precedes ⟨Nat.le_refl _, Nat.lt_succ_self _⟩⟩

omit plain in
theorem filters_takes (scope : Scope) (constraints : List FilterConstraint) :
    ∃ names, lowering.TakesFilters constraints names (lowering.filters scope constraints).1 ∧
      Allotted scope (lowering.filters scope constraints).2 names := by
  induction constraints generalizing scope with
  | nil => exact ⟨[], .nil, .nil (.refl scope)⟩
  | cons constraint rest inductionHypothesis =>
    obtain ⟨names, taken, allotted⟩ := @filter_takes lowering scope constraint
    obtain ⟨more, others, later⟩ := inductionHypothesis (lowering.filter scope constraint).2
    rw [filters_cons]
    exact ⟨names ++ more, .cons taken others, allotted.append later⟩

theorem property_takes {scope next : Scope} {shape : PropertyShape} {fragment : Fragment}
    (regular : shape.Regular) (lowered : lowering.property scope shape = .ok (fragment, next)) :
    ∃ names, lowering.TakesProperty shape names fragment ∧ Allotted scope next names := by
  by_cases values : shape.maxCount = some 0
  · rw [Lowering.property, if_pos values] at lowered
    obtain ⟨rfl, rfl⟩ := exclusion_ok lowered
    have precedes : scope.Precedes { scope with nextPredicate := scope.nextPredicate + 1 } :=
      ⟨rfl, Nat.le_refl _, Nat.le_succ _, Nat.le_refl _⟩
    have taken : scope.nextPredicate ≤ scope.nextPredicate ∧
        scope.nextPredicate < scope.nextPredicate + 1 := ⟨Nat.le_refl _, Nat.lt_succ_self _⟩
    exact ⟨_, .excluded values _ _, .pair precedes taken taken (by intro same; cases same)⟩
  · rw [lowering.property_of_values scope values] at lowered
    obtain ⟨rfl, rfl⟩ := Prod.mk.inj (Except.ok.inj lowered)
    obtain ⟨names, required, first⟩ := paths_takes plain shape.classes true scope
      fun path member => regular.paths path (List.mem_mergeSort.1 member)
    obtain ⟨more, chosen, second⟩ := choices_takes plain shape.classes
      (lowering.required scope shape).1.terminal.isNone (lowering.required scope shape).2
      regular.choices
    obtain ⟨others, conditions, third⟩ :=
      @filters_takes lowering (lowering.chosen scope shape).2 shape.filters
    exact ⟨names ++ more ++ others, .whole values required chosen conditions,
      (first.append second).append third⟩

/-! ### Node shapes -/

/-- The property shapes of an endpoint share one scope. -/
theorem properties_takes_endpoint (endpoint : lowering.kind = .endpoint) {index : Nat}
    {shared : Scope} {properties : List PropertyShape} {fragment : Fragment}
    (regular : ∀ property ∈ properties, property.Regular)
    (lowered : lowering.properties index shared properties = .ok fragment) :
    ∃ names, lowering.TakesProperties properties names fragment ∧
      ∃ last, Allotted shared last names := by
  induction properties generalizing index shared fragment with
  | nil =>
    cases lowered
    exact ⟨[], .nil, shared, .nil (.refl shared)⟩
  | cons property rest inductionHypothesis =>
    rw [List.forall_mem_cons] at regular
    obtain ⟨⟨first, next⟩, firstLowered, further⟩ := bind_ok.1 lowered
    obtain ⟨others, othersLowered, made⟩ := bind_ok.1 further
    cases made
    rw [if_pos endpoint] at firstLowered
    obtain ⟨names, taken, allotted⟩ := property_takes plain regular.1 firstLowered
    obtain ⟨more, later, last, allottedLater⟩ := inductionHypothesis regular.2 othersLowered
    exact ⟨names ++ more, .cons taken later, last, allotted.append allottedLater⟩

omit plain in
/-- The stems of the property shapes of a profile are different. -/
theorem toVariable_stem_inj {kind : ShapeKind} (other : kind ≠ .endpoint) {index later : Nat}
    {first second : Slot}
    (same : first.toVariable (kind.stem index) = second.toVariable (kind.stem later)) :
    index = later := by
  have stem (number : Nat) : kind.stem number = "prof_" ++ toString (number + 1) := by
    cases kind with
    | endpoint => exact absurd rfl other
    | profile => rfl
    | search => rfl
  have names := Variable.mk.inj same
  rw [stem, stem] at names
  simp only [String.append_assoc] at names
  have rest := (String.append_right_inj "prof_").1 names
  exact Nat.succ.inj (Shape.numeral_append_inj (by simpa only [String.append_assoc] using rest)).1

/-- The property shapes of a profile have scopes of their own. -/
theorem properties_takes_profile (other : lowering.kind ≠ .endpoint) {index : Nat}
    {shared : Scope} {properties : List PropertyShape} {fragment : Fragment}
    (regular : ∀ property ∈ properties, property.Regular)
    (lowered : lowering.properties index shared properties = .ok fragment) :
    ∃ names, lowering.TakesProperties properties names fragment ∧ names.Nodup ∧
      ∀ name ∈ names, ∃ later ≥ index, ∃ slot : Slot,
        name = slot.toVariable (lowering.kind.stem later) := by
  induction properties generalizing index shared fragment with
  | nil =>
    cases lowered
    exact ⟨[], .nil, List.nodup_nil, fun _ member => absurd member List.not_mem_nil⟩
  | cons property rest inductionHypothesis =>
    rw [List.forall_mem_cons] at regular
    obtain ⟨⟨first, next⟩, firstLowered, further⟩ := bind_ok.1 lowered
    obtain ⟨others, othersLowered, made⟩ := bind_ok.1 further
    cases made
    rw [if_neg other] at firstLowered
    obtain ⟨names, taken, allotted⟩ := property_takes plain regular.1 firstLowered
    obtain ⟨more, later, distinct, named⟩ := inductionHypothesis regular.2 othersLowered
    have own : ∀ name ∈ names, ∃ slot : Slot,
        name = slot.toVariable (lowering.kind.stem index) := fun name member =>
      (allotted.owned name member).imp fun slot owns => Unknown.var.inj owns.2
    refine ⟨names ++ more, .cons taken later, ?_, List.forall_mem_append.2 ⟨?_, ?_⟩⟩
    · refine List.nodup_append'.2 ⟨allotted.distinct, distinct, fun name inFirst inLater => ?_⟩
      obtain ⟨slot, rfl⟩ := own name inFirst
      obtain ⟨number, above, otherSlot, same⟩ := named _ inLater
      have equal := toVariable_stem_inj other same
      omega
    · exact fun name member => ⟨index, Nat.le_refl _, own name member⟩
    · intro name member
      obtain ⟨number, above, found⟩ := named name member
      exact ⟨number, by omega, found⟩

/-- The property shapes of a node shape take different variables, all of them slots. -/
theorem properties_takes {properties : List PropertyShape} {fragment : Fragment}
    (regular : ∀ property ∈ properties, property.Regular)
    (lowered : lowering.properties 0 (Scope.start (lowering.kind.stem 0)) properties =
      .ok fragment) :
    ∃ names, lowering.TakesProperties properties names fragment ∧ names.Nodup ∧
      ∀ name ∈ names, ∃ (index : Nat) (slot : Slot),
        name = slot.toVariable (lowering.kind.stem index) := by
  by_cases endpoint : lowering.kind = .endpoint
  · obtain ⟨names, taken, last, allotted⟩ :=
      properties_takes_endpoint plain endpoint regular lowered
    refine ⟨names, taken, allotted.distinct, fun name member => ?_⟩
    obtain ⟨slot, -, same⟩ := allotted.owned name member
    exact ⟨0, slot, Unknown.var.inj same⟩
  · obtain ⟨names, taken, distinct, named⟩ :=
      properties_takes_profile plain endpoint regular lowered
    refine ⟨names, taken, distinct, fun name member => ?_⟩
    obtain ⟨index, -, found⟩ := named name member
    exact ⟨index, found⟩

end Plain

/-! ### Names outside of scopes -/

/-- The classes of the focus have no number. -/
theorem toVariable_ne_focusClasses (stem : String) (slot : Slot) :
    slot.toVariable stem ≠ Shape.focusClasses := by
  intro equal
  have split : "focus_classes" = "focus" ++ "_" ++ String.ofList "classes".toList := by decide
  exact Shape.numbered_ne (by decide) (by decide : 'c' ∈ "classes".toList) (by decide) _ _
    ((Variable.mk.inj equal).trans split)

/-- The stems of shapes do not begin like the names in a chain of blank nodes. -/
theorem toVariable_ne_numbered (kind : ShapeKind) (index depth : Nat) (slot : Slot)
    {text : String} (other : text.toList.head? = some 'b') :
    slot.toVariable (kind.stem index) ≠ ⟨text ++ "_" ++ toString depth⟩ := by
  intro equal
  have names := (Shape.numbered_inj (Variable.mk.inj equal)).1
  rw [← names] at other
  cases kind <;> simp [ShapeKind.stem] at other

/-! ### Allocation -/

/-- Whether the variables of a lowered node shape are allocated once. -/
structure Allocated (lowering : Lowering) (shape : NodeShape) (fragment : Fragment)
    (names : List Variable) : Prop where
  /-- The names are what the parts of the property shapes take, one part after another. -/
  taken : ∃ properties, lowering.TakesProperties shape.properties names properties ∧
    fragment = { lowering.targetClasses shape.classes ++ properties ++
      Shape.blankChain lowering.focus (shape.blankDepth.getD 0) with terminal := none }
  /-- No variable is taken twice, by parts of one property shape or of several. -/
  distinct : names.Nodup
  focusNode : Shape.focusNode ∉ names
  focusClasses : Shape.focusClasses ∉ names
  blankPredicate : ∀ depth, Shape.blankPredicate depth ∉ names
  blankObject : ∀ depth, Shape.blankObject depth ∉ names

/-- Every variable of a node shape that is read from a graph is allocated once, whether it selects
the resources of an endpoint or describes one. -/
theorem nodeShape_allocated {graph : Rdf.Graph} {name : Iri} {shape : NodeShape}
    (read : graph.nodeShape name = .ok shape) {kind : ShapeKind} (other : kind ≠ .search)
    {fragment : Fragment}
    (lowered : Lowering.nodeShape ⟨kind, .var Shape.focusNode, []⟩ shape = .ok fragment) :
    ∃ names, Allocated ⟨kind, .var Shape.focusNode, []⟩ shape fragment names := by
  unfold nodeShape at lowered
  split at lowered
  · cases lowered
  · split at lowered
    · cases lowered
    · obtain ⟨properties, propertiesLowered, made⟩ := bind_ok.1 lowered
      obtain ⟨names, taken, distinct, named⟩ := properties_takes ⟨other, rfl⟩
        (Rdf.Graph.regular_of_nodeShape read) propertiesLowered
      have apart {outside : Variable}
          (unlike : ∀ (index : Nat) (slot : Slot), slot.toVariable (kind.stem index) ≠ outside) :
          outside ∉ names := by
        intro member
        obtain ⟨index, slot, same⟩ := named outside member
        exact unlike index slot same.symm
      refine ⟨names, ⟨properties, taken, (Except.ok.inj made).symm⟩, distinct, ?_, ?_, ?_, ?_⟩
      · exact apart fun index slot => slot.toVariable_ne_focusNode _
      · exact apart fun index slot => toVariable_ne_focusClasses _ slot
      · exact fun depth => apart fun index slot =>
          @toVariable_ne_numbered kind index depth slot "bn_p" (by decide)
      · exact fun depth => apart fun index slot =>
          @toVariable_ne_numbered kind index depth slot "bn_o" (by decide)

/-- The shape of things with a name, or with something that has a name. -/
def namedThings : Rdf.Graph :=
  .ofList [
    ⟨.iri ⟨"http://example.org/shape"⟩, Vocabulary.shTargetClass,
      .iri ⟨"http://example.org/Thing"⟩⟩,
    ⟨.iri ⟨"http://example.org/shape"⟩, Vocabulary.shProperty, .blank "property"⟩,
    ⟨.blank "property", Vocabulary.shPath, .blank "path"⟩,
    ⟨.blank "path", Vocabulary.shUnion, .blank "members"⟩,
    ⟨.blank "members", Vocabulary.rdfFirst, .iri Vocabulary.schemaName⟩,
    ⟨.blank "members", Vocabulary.rdfRest, .blank "others"⟩,
    ⟨.blank "others", Vocabulary.rdfFirst, .blank "steps"⟩,
    ⟨.blank "others", Vocabulary.rdfRest, .iri Vocabulary.rdfNil⟩,
    ⟨.blank "steps", Vocabulary.rdfFirst, .iri ⟨"http://example.org/part"⟩⟩,
    ⟨.blank "steps", Vocabulary.rdfRest, .blank "step"⟩,
    ⟨.blank "step", Vocabulary.rdfFirst, .iri Vocabulary.schemaName⟩,
    ⟨.blank "step", Vocabulary.rdfRest, .iri Vocabulary.rdfNil⟩]

/-- A profile with a union of a path of one hop and a path of two. -/
theorem nodeShape_allocated_namedThings :
    ∃ shape fragment names,
      namedThings.nodeShape ⟨"http://example.org/shape"⟩ = .ok shape ∧
      ShapeKind.profile ≠ .search ∧
      Lowering.nodeShape ⟨.profile, .var Shape.focusNode, []⟩ shape = .ok fragment ∧
      Allocated ⟨.profile, .var Shape.focusNode, []⟩ shape fragment names := by
  have succeeds : (do
      let shape ← namedThings.nodeShape ⟨"http://example.org/shape"⟩
      Lowering.nodeShape ⟨.profile, .var Shape.focusNode, []⟩ shape).isOk = true := by
    decide +kernel
  obtain ⟨fragment, lowered⟩ := Success.exists_ok succeeds
  obtain ⟨shape, read, lowered⟩ := bind_ok.1 lowered
  obtain ⟨names, allocated⟩ := nodeShape_allocated read (by decide) lowered
  exact ⟨shape, fragment, names, read, by decide, lowered, allocated⟩

end Lowering

end ShapeQuery
