/-
This file tells which shapes bind their focus. Every path of a shape starts at the focus, so that a
shape binds it unless all that the shape asks for is optional.
-/
import ShapeQuery.Proofs.Shape.Naming
import ShapeQuery.Proofs.Sparql.Binding

namespace ShapeQuery

open Sparql (Path Term Variable Group groupBinds groupBinds_append groupBinds_single)
open Shape (Scope Slot)

/-! ### Anchored shapes -/

/-- Whether a property shape asks for something of the focus. -/
def PropertyShape.Anchors (shape : PropertyShape) : Prop :=
  shape.maxCount = some 0 ∨
    shape.minCount ≠ some 0 ∧ (shape.paths ≠ [] ∨ shape.choices ≠ [] ∨ shape.filters ≠ [])

/-- Whether a node shape asks for something of the focus. -/
def NodeShape.Anchors (shape : NodeShape) : Prop :=
  shape.classes ≠ [Vocabulary.rdfsResource] ∨ ∃ property ∈ shape.properties, property.Anchors

/-! ### Paths -/

namespace Sparql.Path

variable {subject object : Term} {name : Variable}

theorem names_step (path : Path) (named : name ∈ subject.names) :
    name ∈ (path.step subject object).names := by
  unfold step
  split
  · exact List.mem_append_right _ named
  · exact List.mem_append_left _ (List.mem_append_left _ named)

theorem binds_hop (path : Path) (named : name ∈ subject.names) :
    groupBinds name (path.hop subject object).pattern := by
  cases path with
  | alternative members =>
    refine groupBinds_single.2 (branchesBind_iff.2 (List.forall_mem_map.2 fun member _ => ?_))
    exact groupBinds_single.2 (names_step member named)
  | _ => exact groupBinds_single.2 (names_step _ named)

theorem binds_walk {steps : List (Path × Term)} (nonempty : steps ≠ [])
    (named : name ∈ subject.names) : groupBinds name (walk subject steps).pattern := by
  cases steps with
  | nil => exact absurd rfl nonempty
  | cons step rest => exact groupBinds_append.2 (.inl (binds_hop step.1 named))

theorem binds_whole (path : Path) (named : name ∈ subject.names) :
    groupBinds name (path.whole subject object).pattern := by
  cases path with
  | alternative members =>
    exact groupBinds_single.2 (List.mem_append_left _ (List.mem_append_left _ named))
  | _ => exact groupBinds_single.2 (names_step _ named)

end Sparql.Path

namespace Lowering

variable {lowering : Lowering} {name : Variable} (named : name ∈ lowering.focus.names)

include named

theorem binds_anyTriple (predicate value : Variable) :
    groupBinds name (lowering.anyTriple predicate value).pattern :=
  groupBinds_single.2 (List.mem_append_left _ (List.mem_append_left _ named))

theorem binds_along {path : Path} {nodes : List Term} (long : path.hops ≤ nodes.length)
    (step : path.hops ≠ 0) (terminal : Term) :
    groupBinds name (lowering.along path nodes terminal).pattern := by
  unfold along
  split
  · rename_i paths
    split
    · exact Path.binds_whole _ named
    · refine Path.binds_walk (fun empty => ?_) named
      have length : (paths.zip nodes).length = paths.length := by
        rw [List.length_zip]
        exact Nat.min_eq_left long
      exact step (length.symm.trans (congrArg List.length empty))
  · exact Path.binds_whole _ named

theorem binds_path (classes : List Iri) (undecided : Bool) (scope : Scope) {path : ShapePath}
    (step : path.path.hops ≠ 0) :
    groupBinds name (lowering.path classes undecided scope path).1.pattern := by
  unfold Lowering.path
  split
  · exact binds_anyTriple named _ _
  · have long (stem : String) (first : Nat) :
        path.path.hops ≤ (lowering.nodes stem first path.path.hops).length :=
      Nat.le_of_eq ((List.length_map _).trans List.length_range).symm
    refine groupBinds_append.2 (.inl ?_)
    unfold shown
    split <;> exact binds_along named (long _ _) step _

theorem binds_paths (classes : List Iri) (undecided : Bool) (scope : Scope)
    {paths : List ShapePath} (steps : ∀ path ∈ paths, path.path.hops ≠ 0) (nonempty : paths ≠ []) :
    groupBinds name (lowering.paths classes undecided scope paths).1.pattern := by
  cases paths with
  | nil => exact absurd rfl nonempty
  | cons path rest =>
    exact groupBinds_append.2
      (.inl (binds_path named classes undecided scope (List.forall_mem_cons.1 steps).1))

/-! ### Unions -/

theorem binds_branches (classes : List Iri) (undecided : Bool) (scope : Scope)
    {paths : List ShapePath} (steps : ∀ path ∈ paths, path.path.hops ≠ 0) :
    ∀ branch ∈ (lowering.branches classes undecided scope paths).1,
      groupBinds name branch.pattern := by
  induction paths generalizing scope with
  | nil => exact fun _ member => absurd member List.not_mem_nil
  | cons path rest inductionHypothesis =>
    rw [List.forall_mem_cons] at steps
    exact List.forall_mem_cons.2 ⟨binds_path named classes undecided scope steps.1,
      inductionHypothesis _ steps.2⟩

omit named in
theorem binds_joined (scope : Scope) {branches : List Fragment}
    (binds : ∀ branch ∈ branches, groupBinds name branch.pattern) :
    ∀ branch ∈ (lowering.joined scope branches).1, groupBinds name branch.pattern := by
  unfold joined
  split
  · exact binds
  · split
    · exact binds
    · dsimp only
      split
      · refine List.forall_mem_map.2 fun branch member => ?_
        unfold bound
        split
        · exact groupBinds_append.2 (.inl (binds branch member))
        · exact groupBinds_append.2 (.inl (binds branch member))
        · exact binds branch member
      · exact binds

theorem binds_choices (classes : List Iri) (undecided : Bool) (scope : Scope)
    {choices : List ShapePath} (steps : ∀ path ∈ choices, path.path.hops ≠ 0)
    (nonempty : choices ≠ []) :
    groupBinds name (lowering.choices classes undecided scope choices).1.pattern := by
  have branches := binds_branches named classes undecided scope steps
  unfold Lowering.choices
  rw [if_neg fun empty => nonempty (List.isEmpty_iff.1 empty)]
  refine groupBinds_single.2 (Sparql.branchesBind_iff.2 (List.forall_mem_map.2 ?_))
  cases undecided with
  | false => exact branches
  | true => exact binds_joined _ branches

/-! ### Property shapes -/

theorem binds_filters (scope : Scope) {constraints : List FilterConstraint}
    (nonempty : constraints ≠ []) :
    groupBinds name (lowering.filters scope constraints).1.pattern := by
  cases constraints with
  | nil => exact absurd rfl nonempty
  | cons constraint rest =>
    refine groupBinds_append.2 (.inl ?_)
    show groupBinds name (lowering.filter scope constraint).1.pattern
    unfold Lowering.filter
    split
    · exact groupBinds_single.2 (Path.names_step _ named)
    · exact groupBinds_append.2 (.inr (groupBinds_single.2 (Path.names_step _ named)))

/-- A property shape that asks for something of the focus binds it. -/
theorem binds_property {scope next : Scope} {shape : PropertyShape} {fragment : Fragment}
    (regular : shape.Regular) (anchors : shape.Anchors)
    (lowered : lowering.property scope shape = .ok (fragment, next)) :
    groupBinds name fragment.pattern := by
  by_cases values : shape.maxCount = some 0
  · rw [Lowering.property, if_pos values] at lowered
    obtain ⟨predicates, -, made⟩ := Success.bind_ok.1 lowered
    cases made
    exact groupBinds_append.2 (.inl (binds_anyTriple named _ _))
  · obtain ⟨needed, something⟩ := anchors.resolve_left values
    rw [lowering.property_of_values scope values, if_neg needed] at lowered
    obtain ⟨rfl, rfl⟩ := Prod.mk.inj (Except.ok.inj lowered)
    have steps : ∀ path ∈ longestFirst shape.paths, path.path.hops ≠ 0 := fun path member =>
      regular.paths path (List.mem_mergeSort.1 member)
    rcases something with paths | choices | filters
    · have nonempty : longestFirst shape.paths ≠ [] := by
        intro empty
        have length : (longestFirst shape.paths).length = shape.paths.length :=
          List.length_mergeSort _
        rw [empty] at length
        exact paths (List.length_eq_zero_iff.1 length.symm)
      exact groupBinds_append.2 (.inl (groupBinds_append.2
        (.inl (binds_paths named shape.classes true scope steps nonempty))))
    · exact groupBinds_append.2 (.inl (groupBinds_append.2
        (.inr (binds_choices named shape.classes _ _ regular.choices choices))))
    · exact groupBinds_append.2 (.inr (binds_filters named _ filters))

/-! ### Node shapes -/

theorem binds_properties {index : Nat} {shared : Scope} {properties : List PropertyShape}
    {fragment : Fragment} (regular : ∀ property ∈ properties, property.Regular)
    (anchors : ∃ property ∈ properties, property.Anchors)
    (lowered : lowering.properties index shared properties = .ok fragment) :
    groupBinds name fragment.pattern := by
  induction properties generalizing index shared fragment with
  | nil =>
    obtain ⟨property, member, -⟩ := anchors
    exact absurd member List.not_mem_nil
  | cons property rest inductionHypothesis =>
    rw [List.forall_mem_cons] at regular
    obtain ⟨⟨first, next⟩, firstLowered, further⟩ := Success.bind_ok.1 lowered
    obtain ⟨others, othersLowered, made⟩ := Success.bind_ok.1 further
    cases made
    rcases (List.exists_mem_cons_iff _ _ _).1 anchors with here | later
    · exact groupBinds_append.2 (.inl (binds_property named regular.1 here firstLowered))
    · exact groupBinds_append.2 (.inr (inductionHypothesis regular.2 later othersLowered))

/-- A node shape that asks for something of the focus binds it. -/
theorem binds_nodeShape {shape : NodeShape} {fragment : Fragment}
    (regular : ∀ property ∈ shape.properties, property.Regular) (anchors : shape.Anchors)
    (lowered : lowering.nodeShape shape = .ok fragment) : groupBinds name fragment.pattern := by
  unfold nodeShape at lowered
  split at lowered
  · cases lowered
  · split at lowered
    · cases lowered
    · rename_i targeted
      obtain ⟨properties, propertiesLowered, made⟩ := Success.bind_ok.1 lowered
      cases made
      refine groupBinds_append.2 (.inl (groupBinds_append.2 ?_))
      rcases anchors with classes | property
      · refine .inl ?_
        unfold targetClasses
        rw [if_neg classes]
        unfold Fragment.classified
        split
        · exact absurd (List.isEmpty_iff.2 ‹_›) targeted
        · exact groupBinds_single.2 (List.mem_append_left _ (List.mem_append_left _ named))
        · exact groupBinds_append.2 (.inl
            (groupBinds_single.2 (List.mem_append_left _ (List.mem_append_left _ named))))
      · exact .inr (binds_properties named regular property propertiesLowered)

end Lowering

end ShapeQuery
