/-
This file proves that a node shape is lowered alike for every focus. A query for one resource and a
query for the resources of a listing are made by the same steps: what is made for the resource is
what is made for the focus node, with the resource in its place.

The shape must not name the focus node itself, and each of its paths must have a step. A path
without steps would end at the focus, and a union binds a variable in another way than a resource.
-/
import ShapeQuery.Proofs.Shape.Replacement

namespace ShapeQuery

open Sparql (Term Variable Group Replacement TriplePattern)
open Shape (Scope Slot)

/-! ### Closed shapes -/

/-- Whether a property shape has no variables and every path of it has a step. -/
structure PropertyShape.Closed (shape : PropertyShape) : Prop where
  steps : ∀ path ∈ shape.paths ++ shape.choices, path.path.hops ≠ 0
  values : ∀ constraint ∈ shape.filters, ∀ value ∈ constraint.values, ∀ name, value ≠ .var name

/-- Whether a node shape has no variables and every path of it has a step. -/
def NodeShape.Closed (shape : NodeShape) : Prop :=
  ∀ property ∈ shape.properties, property.Closed

/-! ### Chains of blank nodes -/

theorem Shape.replaced_blankLevels {replacement : Replacement}
    (predicates : ∀ depth,
      replacement.substitute (blankPredicate depth) = .var (blankPredicate depth))
    (objects : ∀ depth, replacement.substitute (blankObject depth) = .var (blankObject depth))
    (start : List TriplePattern) (depth remaining : Nat) :
    (blankLevels start depth remaining).replaced replacement =
      blankLevels (start.map replacement.triple) depth remaining := by
  induction remaining generalizing start depth with
  | zero => rfl
  | succ remaining inductionHypothesis =>
    have object : replacement.term (.var (blankObject depth)) = .var (blankObject depth) := by
      rw [Replacement.term, objects]
      rfl
    have step : replacement.triple (blankStep (.var (blankObject depth)) (depth + 1)) =
        blankStep (.var (blankObject depth)) (depth + 1) := by
      unfold blankStep Replacement.triple
      rw [object, Replacement.verb, predicates, Replacement.term, objects]
      rfl
    have deeper : (blankLevels [] (depth + 1) remaining).replaced replacement =
        blankLevels [] (depth + 1) remaining := inductionHypothesis [] (depth + 1)
    have starts : (start ++ [blankStep (.var (blankObject depth)) (depth + 1)]).map
        replacement.triple = start.map replacement.triple ++
          [blankStep (.var (blankObject depth)) (depth + 1)] := by
      rw [List.map_append, List.map_singleton, step]
    have triples (listed : List TriplePattern) : replacement.group (listed.map .triple) =
        (listed.map replacement.triple).map .triple := by
      rw [Replacement.group_eq_map, List.map_map, List.map_map]
      rfl
    have test : replacement.group [.filter (.call .isBlank [.var (blankObject depth)])] =
        [.filter (.call .isBlank [.var (blankObject depth)])] := by
      rw [Replacement.group, Replacement.element, Replacement.expression, Replacement.list,
        Replacement.expression, objects]
      rfl
    have pattern : replacement.group ((start ++ [blankStep (.var (blankObject depth))
          (depth + 1)]).map .triple ++ [.filter (.call .isBlank [.var (blankObject depth)])] ++
            (blankLevels [] (depth + 1) remaining).pattern) =
        (start.map replacement.triple ++ [blankStep (.var (blankObject depth)) (depth + 1)]).map
            .triple ++ [.filter (.call .isBlank [.var (blankObject depth)])] ++
          (blankLevels [] (depth + 1) remaining).pattern := by
      rw [Replacement.group_append, Replacement.group_append, triples, starts, test]
      exact congrArg (_ ++ ·) (congrArg Fragment.pattern deeper)
    have shown (listed : List TriplePattern) :
        (listed.filterMap TriplePattern.template?).map replacement.templateTriple =
          (listed.map replacement.triple).filterMap TriplePattern.template? := by
      rw [List.map_filterMap, List.filterMap_map]
      exact List.filterMap_congr fun triple _ => (Fragment.template?_triple replacement triple).symm
    have template : ((start ++ [blankStep (.var (blankObject depth)) (depth + 1)]).filterMap
          TriplePattern.template? ++ (blankLevels [] (depth + 1) remaining).template).map
            replacement.templateTriple =
        (start.map replacement.triple ++ [blankStep (.var (blankObject depth))
          (depth + 1)]).filterMap TriplePattern.template? ++
            (blankLevels [] (depth + 1) remaining).template := by
      rw [List.map_append, shown, starts]
      exact congrArg (_ ++ ·) (congrArg Fragment.template deeper)
    unfold blankLevels Fragment.replaced
    simp only [Replacement.group, Replacement.element, pattern, template, Option.map_none]

/-! ### Another focus -/

/-- The replacement of the focus node by a resource. A resource cannot get values: if something
gave the focus node values, another variable would get them. -/
def Sparql.Replacement.focusing (resource : Iri) (elsewhere : Variable) : Replacement where
  substitute name := if name = Shape.focusNode then .iri resource else .var name
  target name := if name = Shape.focusNode then elsewhere else name
  label text := text

namespace Sparql.Replacement

variable (resource : Iri) (elsewhere : Variable)

theorem substitute_focusing {name : Variable} (other : name ≠ Shape.focusNode) :
    (focusing resource elsewhere).substitute name = .var name :=
  if_neg other

theorem target_focusing {name : Variable} (other : name ≠ Shape.focusNode) :
    (focusing resource elsewhere).target name = name :=
  if_neg other

theorem term_focusing_focusNode :
    (focusing resource elsewhere).term (.var Shape.focusNode) = .iri resource := by
  have replaced : (focusing resource elsewhere).substitute Shape.focusNode = .iri resource := by
    show (if Shape.focusNode = Shape.focusNode then Substitute.iri resource
      else .var Shape.focusNode) = _
    rw [if_pos rfl]
  rw [term, replaced]
  rfl

theorem term_focusing {term : Term} (other : term ≠ .var Shape.focusNode) :
    (focusing resource elsewhere).term term = term := by
  cases term with
  | var name =>
    rw [term, substitute_focusing _ _ fun same => other (congrArg Term.var same)]
    rfl
  | _ => rfl

end Sparql.Replacement

namespace Lowering

theorem properties_cons (lowering : Lowering) (index : Nat) (shared : Scope)
    (property : PropertyShape) (rest : List PropertyShape) :
    lowering.properties index shared (property :: rest) =
      (lowering.property (if lowering.kind = .endpoint then shared
          else Scope.start (lowering.kind.stem index)) property).bind fun result =>
        (lowering.properties (index + 1) result.2 rest).map (result.1 ++ ·) := by
  rw [properties]
  generalize (lowering.property _ property) = lowered
  cases lowered with
  | error fault => rfl
  | ok result =>
    show bind (lowering.properties (index + 1) result.2 rest) _ = Except.map _ _
    cases lowering.properties (index + 1) result.2 rest <;> rfl

/-- The property shapes are lowered alike if this holds of each of them. -/
theorem properties_transferred {replacement : Replacement} {before after : Lowering}
    (transfers : ∀ stem, Transfers replacement before after stem stem)
    {properties : List PropertyShape}
    (steps : ∀ property ∈ properties, ∀ path ∈ property.paths ++ property.choices,
      path.path.hops ≠ 0)
    (kept : ∀ property ∈ properties, ∀ constraint ∈ property.filters,
      ∀ value ∈ constraint.values, replacement.term value = value)
    (index : Nat) (shared : Scope) :
    after.properties index shared properties =
      (before.properties index shared properties).map (Fragment.replaced replacement) := by
  induction properties generalizing index shared with
  | nil => rfl
  | cons property rest inductionHypothesis =>
    rw [List.forall_mem_cons] at steps kept
    simp only [properties_cons, (transfers "").kind]
    generalize (if before.kind = .endpoint then shared
      else Scope.start (before.kind.stem index)) = scope
    have same : after.property scope property = (before.property scope property).map fun result =>
        (result.1.replaced replacement, result.2.moved scope.stem) :=
      (transfers scope.stem).property rfl steps.1 kept.1
    rw [same]
    cases lowered : before.property scope property with
    | error fault => rfl
    | ok result =>
      have unmoved : result.2.moved scope.stem = result.2 := by
        rw [← before.property_stem scope lowered]
        rfl
      show Except.map _ (after.properties (index + 1) (result.2.moved scope.stem) rest) = _
      rw [unmoved, inductionHypothesis steps.2 kept.2]
      show _ = Except.map _ (Except.map _ (before.properties (index + 1) result.2 rest))
      cases before.properties (index + 1) result.2 rest with
      | error fault => rfl
      | ok others =>
        exact congrArg Except.ok (Fragment.replaced_append replacement result.1 others).symm

variable {kind : ShapeKind} {fixed : List (Variable × Term)}

/-- A node of a path is not the focus node, unless that is fixed for one. -/
theorem focusNode_not_isNode (unfixed : ∀ pair ∈ fixed, pair.2 ≠ .var Shape.focusNode)
    (focus : Term) (stem : String) :
    ¬ Lowering.IsNode ⟨kind, focus, fixed⟩ stem (.var Shape.focusNode) := by
  rintro ⟨number, last, isNode⟩
  unfold Lowering.node at isNode
  split at isNode
  · exact absurd (Term.var.inj isNode) (by decide)
  · simp only at isNode
    cases found : fixed.lookup (Slot.toVariable stem (.node number)) with
    | none =>
      rw [found] at isNode
      exact Slot.toVariable_ne_focusNode stem _ (Term.var.inj isNode).symm
    | some value =>
      rw [found] at isNode
      obtain ⟨earlier, later, rfl, -⟩ := List.lookup_eq_some_iff.1 found
      exact unfixed _ (List.mem_append_right earlier List.mem_cons_self) isNode.symm

/-- What is made for the focus node is carried over to a resource. -/
theorem transfers_focusing (unfixed : ∀ pair ∈ fixed, pair.2 ≠ .var Shape.focusNode)
    (resource : Iri) (elsewhere : Variable) (stem : String) :
    Transfers (.focusing resource elsewhere) ⟨kind, .var Shape.focusNode, fixed⟩
      ⟨kind, .iri resource, fixed⟩ stem stem := by
  have apart {term : Term} (isNode : IsNode ⟨kind, .var Shape.focusNode, fixed⟩ stem term) :
      term ≠ .var Shape.focusNode := by
    rintro rfl
    exact focusNode_not_isNode unfixed _ stem isNode
  have slot (slot : Slot) : slot.toVariable stem ≠ Shape.focusNode :=
    slot.toVariable_ne_focusNode stem
  refine ⟨rfl, Replacement.term_focusing_focusNode _ _,
    fun taken => Replacement.substitute_focusing _ _ (slot taken),
    fun taken => Replacement.target_focusing _ _ (slot taken), fun number last => ?_,
    fun isNode => ?_, fun first second same => ?_⟩
  · exact Replacement.term_focusing _ _ (apart ⟨number, last, rfl⟩)
  · have other := fun same => apart isNode (congrArg Term.var same)
    rw [Replacement.substitute_focusing _ _ other, Replacement.target_focusing _ _ other]
  · rwa [Replacement.term_focusing _ _ (apart first),
      Replacement.term_focusing _ _ (apart second)] at same

theorem targetClasses_refocused (resource : Iri) (elsewhere : Variable) (classes : List Iri) :
    targetClasses ⟨kind, .iri resource, fixed⟩ classes =
      (targetClasses ⟨kind, .var Shape.focusNode, fixed⟩ classes).replaced
        (.focusing resource elsewhere) := by
  have other : Shape.focusClasses ≠ Shape.focusNode := by decide
  unfold targetClasses
  split
  · rfl
  · rw [Fragment.replaced_classified _ _ (Replacement.substitute_focusing _ _ other)
      (Replacement.target_focusing _ _ other), Replacement.term_focusing_focusNode]

theorem blankChain_refocused (resource : Iri) (elsewhere : Variable) (depth : Nat) :
    Shape.blankChain (.iri resource) depth =
      (Shape.blankChain (.var Shape.focusNode) depth).replaced
        (.focusing resource elsewhere) := by
  have predicates (depth : Nat) : (Replacement.focusing resource elsewhere).substitute
      (Shape.blankPredicate depth) = .var (Shape.blankPredicate depth) :=
    Replacement.substitute_focusing _ _ (Shape.numbered_ne_focusNode "bn_p" depth)
  have objects (depth : Nat) : (Replacement.focusing resource elsewhere).substitute
      (Shape.blankObject depth) = .var (Shape.blankObject depth) :=
    Replacement.substitute_focusing _ _ (Shape.numbered_ne_focusNode "bn_o" depth)
  have first : (Replacement.focusing resource elsewhere).triple
      (Shape.blankStep (.var Shape.focusNode) 1) = Shape.blankStep (.iri resource) 1 := by
    unfold Shape.blankStep Replacement.triple
    rw [Replacement.term_focusing_focusNode, Replacement.verb, Replacement.term, predicates,
      objects]
    rfl
  unfold Shape.blankChain
  rw [Shape.replaced_blankLevels predicates objects, List.map_singleton, first]

/-- Lowering a shape for a resource and lowering it for the focus node fail alike, and otherwise
make the same pattern and the same triples, up to the resource in the place of the focus node. -/
theorem nodeShape_refocused (kind : ShapeKind) {fixed : List (Variable × Term)}
    (unfixed : ∀ pair ∈ fixed, pair.2 ≠ .var Shape.focusNode) {shape : NodeShape}
    (closed : shape.Closed) (resource : Iri) (elsewhere : Variable) :
    Lowering.nodeShape ⟨kind, .iri resource, fixed⟩ shape =
      (Lowering.nodeShape ⟨kind, .var Shape.focusNode, fixed⟩ shape).map
        (Fragment.replaced (.focusing resource elsewhere)) := by
  have properties := properties_transferred
    (@transfers_focusing kind fixed unfixed resource elsewhere)
    (fun property member => (closed property member).steps)
    (fun property member constraint among value listed =>
      Replacement.term_focusing resource elsewhere
        ((closed property member).values constraint among value listed _))
    0 (Scope.start (kind.stem 0))
  have whole (described : Fragment) :
      targetClasses ⟨kind, .iri resource, fixed⟩ shape.classes ++
          described.replaced (.focusing resource elsewhere) ++
            Shape.blankChain (.iri resource) (shape.blankDepth.getD 0) =
        (targetClasses ⟨kind, .var Shape.focusNode, fixed⟩ shape.classes ++ described ++
          Shape.blankChain (.var Shape.focusNode) (shape.blankDepth.getD 0)).replaced
            (.focusing resource elsewhere) := by
    rw [Fragment.replaced_append, Fragment.replaced_append,
      targetClasses_refocused resource elsewhere, blankChain_refocused resource elsewhere]
  unfold nodeShape
  split
  · rfl
  · split
    · rfl
    · rw [properties]
      show _ = Except.map _ (bind _ _)
      generalize Lowering.properties _ _ _ shape.properties = lowered
      cases lowered with
      | error fault => rfl
      | ok described =>
        refine congrArg Except.ok ?_
        show Fragment.mk _ _ none = Fragment.mk _ _ none
        rw [whole]
        rfl

/-- A shape of things with a part or a longer way to a name, and with blank nodes. -/
def partShape : NodeShape where
  id := "http://example.org/shape"
  classes := [⟨"http://example.org/Thing"⟩]
  properties := [{
    id := "http://example.org/property"
    paths := [⟨.inverse (.predicate ⟨"http://example.org/part"⟩), none⟩]
    choices := [⟨.predicate Vocabulary.schemaName, none⟩,
      ⟨.sequence [.predicate ⟨"http://example.org/part"⟩, .predicate Vocabulary.schemaName],
        some Vocabulary.schemaName⟩]
    classes := []
    minCount := some 0
    maxCount := none
    filters := [⟨.predicate Vocabulary.dctermsTitle, [.literal (.plain "part"), .blank "b0"]⟩] }]
  blankDepth := some 2
  level := none

theorem nodeShape_refocused_part :
    (∀ pair ∈ ([] : List (Variable × Term)), pair.2 ≠ .var Shape.focusNode) ∧ partShape.Closed ∧
      Lowering.nodeShape ⟨.profile, .iri ⟨"http://example.org/thing"⟩, []⟩ partShape =
        (Lowering.nodeShape ⟨.profile, .var Shape.focusNode, []⟩ partShape).map
          (Fragment.replaced (.focusing ⟨"http://example.org/thing"⟩ ⟨"elsewhere"⟩)) ∧
      (Lowering.nodeShape ⟨.profile, .iri ⟨"http://example.org/thing"⟩, []⟩
        partShape).isOk = true := by
  have unfixed : ∀ pair ∈ ([] : List (Variable × Term)), pair.2 ≠ .var Shape.focusNode :=
    List.forall_mem_nil _
  have closed : partShape.Closed := by
    refine List.forall_mem_singleton.2 ⟨by decide, ?_⟩
    simp
  exact ⟨unfixed, closed, nodeShape_refocused .profile unfixed closed _ _, by decide⟩

end Lowering

end ShapeQuery
