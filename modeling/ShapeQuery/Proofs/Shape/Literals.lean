/-
This file proves that a lowered shape has no literals but the values that its conditions ask for and
the focus.
-/
import ShapeQuery.Proofs.Shape.Naming
import ShapeQuery.Proofs.Sparql.Literals
import ShapeQuery.Shape.BlankChain

namespace ShapeQuery

open Sparql (Path Term Variable Group Element TriplePattern)
open Shape (Scope)

/-- The values that the conditions of a property shape ask for. -/
def PropertyShape.values (shape : PropertyShape) : List Term :=
  shape.filters.flatMap FilterConstraint.values

/-- The values that the conditions of a node shape ask for. -/
def NodeShape.values (shape : NodeShape) : List Term :=
  shape.properties.flatMap PropertyShape.values

variable {kind : Literal → Prop}

/-! ### Fragments -/

namespace Fragment

/-- Whether the literals of a fragment are of one kind. Its template has those of its pattern. -/
structure QuotedIn (kind : Literal → Prop) (fragment : Fragment) : Prop where
  pattern : fragment.pattern.QuotedIn kind
  terminal : ∀ term ∈ fragment.terminal, term.QuotedIn kind

theorem quotedIn_empty : empty.QuotedIn kind :=
  ⟨Group.quotedIn_nil, fun _ member => by cases member⟩

theorem quotedIn_when (needed : Bool) {fragment : Fragment} (quoted : fragment.QuotedIn kind) :
    (if needed then fragment else empty).QuotedIn kind := by
  cases needed with
  | true => exact quoted
  | false => exact quotedIn_empty

theorem QuotedIn.append {first second : Fragment} (quoted : first.QuotedIn kind)
    (later : second.QuotedIn kind) : (first ++ second).QuotedIn kind := by
  refine ⟨(Group.quotedIn_append _ _).2 ⟨quoted.pattern, later.pattern⟩, fun term ended => ?_⟩
  rw [Option.mem_def, Lowering.terminal_append] at ended
  rcases Option.or_eq_some_iff.1 ended with found | ⟨-, found⟩
  · exact quoted.terminal term found
  · exact later.terminal term found

theorem quotedIn_hidden {pattern : Group} (quoted : pattern.QuotedIn kind) :
    (hidden pattern).QuotedIn kind :=
  ⟨quoted, fun _ member => by cases member⟩

theorem quotedIn_ofTriple {triple : TriplePattern} (quoted : triple.QuotedIn kind) :
    (ofTriple triple).QuotedIn kind :=
  ⟨(Group.quotedIn_cons _ _).2 ⟨quoted, Group.quotedIn_nil⟩, fun _ member => by cases member⟩

theorem quotedIn_classified {node : Term} (nodeQuoted : node.QuotedIn kind)
    (classVariable : Variable) (classes : List Iri) :
    (classified node classVariable classes).QuotedIn kind := by
  unfold classified
  split
  · exact quotedIn_empty
  · exact quotedIn_ofTriple (by simp [nodeQuoted])
  · exact (quotedIn_ofTriple (by simp [nodeQuoted])).append (quotedIn_hidden (by simp))

end Fragment

/-! ### Steps -/

namespace Sparql.Path

variable {subject object : Term} (subjectQuoted : subject.QuotedIn kind)

include subjectQuoted

theorem quotedIn_step (path : Path) (objectQuoted : object.QuotedIn kind) :
    (path.step subject object).QuotedIn kind := by
  unfold step
  split
  · exact (TriplePattern.quotedIn_mk _ _ _).2 ⟨objectQuoted, subjectQuoted⟩
  · exact (TriplePattern.quotedIn_mk _ _ _).2 ⟨subjectQuoted, objectQuoted⟩

theorem quotedIn_hop (path : Path) (objectQuoted : object.QuotedIn kind) :
    (path.hop subject object).QuotedIn kind := by
  have step (path : Path) := quotedIn_step subjectQuoted path objectQuoted
  unfold hop
  split
  · refine ⟨?_, fun _ member => by cases member⟩
    rw [Group.quotedIn_cons, Element.quotedIn_union, List.forall_mem_map]
    exact ⟨fun member _ => (Group.quotedIn_cons _ _).2 ⟨step member, Group.quotedIn_nil⟩,
      Group.quotedIn_nil⟩
  · exact ⟨(Group.quotedIn_cons _ _).2 ⟨step _, Group.quotedIn_nil⟩,
      fun _ member => by cases member⟩

theorem quotedIn_walk {steps : List (Path × Term)}
    (quoted : ∀ step ∈ steps, step.2.QuotedIn kind) : (walk subject steps).QuotedIn kind := by
  induction steps generalizing subject with
  | nil => exact Fragment.quotedIn_empty
  | cons step rest inductionHypothesis =>
    rw [List.forall_mem_cons] at quoted
    exact (quotedIn_hop subjectQuoted step.1 quoted.1).append
      (inductionHypothesis quoted.1 quoted.2)

theorem quotedIn_whole (path : Path) (objectQuoted : object.QuotedIn kind) :
    (path.whole subject object).QuotedIn kind := by
  unfold whole
  split
  · exact ⟨by simp [subjectQuoted, objectQuoted], fun _ member => by cases member⟩
  · exact Fragment.quotedIn_ofTriple (quotedIn_step subjectQuoted _ objectQuoted)

end Sparql.Path

/-! ### Property shapes -/

namespace Lowering

variable {lowering : Lowering} (plain : lowering.Plain) (focus : lowering.focus.QuotedIn kind)

include focus

theorem quotedIn_anyTriple (predicate value : Variable) :
    (lowering.anyTriple predicate value).QuotedIn kind :=
  Fragment.quotedIn_ofTriple (by simp [focus])

theorem quotedIn_along (path : Path) {nodes : List Term} {terminal : Term}
    (nodesQuoted : ∀ node ∈ nodes, node.QuotedIn kind) (terminalQuoted : terminal.QuotedIn kind) :
    (lowering.along path nodes terminal).QuotedIn kind := by
  have whole := Path.quotedIn_whole focus path terminalQuoted
  unfold along
  split
  · split
    · exact whole
    · exact Path.quotedIn_walk focus fun step member =>
        nodesQuoted _ (List.of_mem_zip member).2
  · exact whole

omit focus in
theorem quotedIn_shown (lowering : Lowering) (synonym : Option Iri) (terminal : Term)
    {walked : Fragment} (quoted : walked.QuotedIn kind) :
    (lowering.shown synonym terminal walked).QuotedIn kind := by
  unfold shown
  split
  · exact ⟨quoted.pattern, quoted.terminal⟩
  · exact quoted

include plain

theorem quotedIn_path (classes : List Iri) (undecided : Bool) (scope : Scope) (path : ShapePath) :
    (lowering.path classes undecided scope path).1.QuotedIn kind := by
  unfold Lowering.path
  split
  · exact quotedIn_anyTriple focus _ _
  · have nodes : ∀ node ∈ lowering.nodes scope.stem scope.nextNode path.path.hops,
        node.QuotedIn kind := by
      rw [plain.nodes]
      exact List.forall_mem_map.2 fun _ _ => Term.quotedIn_var _
    have terminal : ((lowering.nodes scope.stem scope.nextNode path.path.hops).getLast?.getD
        lowering.focus).QuotedIn kind := by
      cases last : (lowering.nodes scope.stem scope.nextNode path.path.hops).getLast? with
      | none => exact focus
      | some node => exact nodes node (List.mem_of_getLast? last)
    have walked := quotedIn_shown lowering path.synonym
      ((lowering.nodes scope.stem scope.nextNode path.path.hops).getLast?.getD lowering.focus)
      (quotedIn_along focus path.path nodes terminal)
    have classified := Fragment.quotedIn_classified terminal
      ((Shape.Slot.nodeClasses (scope.nextNode + path.path.hops - 1)).toVariable scope.stem) classes
    refine ⟨(walked.append (Fragment.quotedIn_when undecided classified)).pattern,
      fun term member => ?_⟩
    cases member
    exact terminal

theorem quotedIn_paths (classes : List Iri) (undecided : Bool) (scope : Scope)
    (paths : List ShapePath) : (lowering.paths classes undecided scope paths).1.QuotedIn kind := by
  induction paths generalizing undecided scope with
  | nil => exact Fragment.quotedIn_empty
  | cons path rest inductionHypothesis =>
    rw [paths_cons]
    exact (quotedIn_path plain focus classes undecided scope path).append (inductionHypothesis _ _)

theorem quotedIn_branches (classes : List Iri) (undecided : Bool) (scope : Scope)
    (paths : List ShapePath) :
    ∀ branch ∈ (lowering.branches classes undecided scope paths).1, branch.QuotedIn kind := by
  induction paths generalizing scope with
  | nil => exact fun _ member => absurd member List.not_mem_nil
  | cons path rest inductionHypothesis =>
    rw [branches_cons, List.forall_mem_cons]
    exact ⟨quotedIn_path plain focus classes undecided scope path, inductionHypothesis _⟩

omit plain focus in
theorem quotedIn_bound (target : Variable) {branch : Fragment} (quoted : branch.QuotedIn kind) :
    (bound target branch).QuotedIn kind := by
  unfold bound
  split
  · exact quoted.append (Fragment.quotedIn_hidden (by simp))
  · rename_i terminal _ ended
    exact quoted.append (Fragment.quotedIn_hidden (by simp [quoted.terminal terminal ended]))
  · exact quoted

omit focus in
theorem quotedIn_joined (scope : Scope) {branches : List Fragment}
    (quoted : ∀ branch ∈ branches, branch.QuotedIn kind) :
    (∀ branch ∈ (lowering.joined scope branches).1, branch.QuotedIn kind) ∧
      ∀ terminal ∈ (lowering.joined scope branches).2.1, terminal.QuotedIn kind := by
  unfold joined
  split
  · exact ⟨quoted, fun _ member => by cases member⟩
  · rename_i terminal found
    obtain ⟨first, head, ended⟩ := Option.bind_eq_some_iff.1 found
    split
    · refine ⟨quoted, fun _ member => ?_⟩
      cases member
      exact (quoted first (List.mem_of_head? head)).terminal terminal ended
    · simp only [plain.node]
      refine ⟨List.forall_mem_map.2 fun branch member => quotedIn_bound _ (quoted branch member),
        fun _ member => ?_⟩
      cases member
      exact Term.quotedIn_var _

theorem quotedIn_choices (classes : List Iri) (undecided : Bool) (scope : Scope)
    (choices : List ShapePath) :
    (lowering.choices classes undecided scope choices).1.QuotedIn kind := by
  unfold Lowering.choices
  split
  · exact Fragment.quotedIn_empty
  · have branches := quotedIn_branches plain focus classes undecided scope choices
    have union (parts : List Fragment) (quoted : ∀ part ∈ parts, part.QuotedIn kind) :
        Group.QuotedIn kind [.union (parts.map Fragment.pattern)] := by
      rw [Group.quotedIn_cons, Element.quotedIn_union, List.forall_mem_map]
      exact ⟨fun part member => (quoted part member).pattern, Group.quotedIn_nil⟩
    cases undecided with
    | false => exact ⟨union _ branches, fun _ member => by cases member⟩
    | true =>
      obtain ⟨parts, ended⟩ := quotedIn_joined plain _ branches
      exact ⟨union _ parts, ended⟩

omit plain in
theorem quotedIn_filter (scope : Scope) {constraint : FilterConstraint}
    (values : ∀ value ∈ constraint.values, value.QuotedIn kind) :
    (lowering.filter scope constraint).1.QuotedIn kind := by
  unfold Lowering.filter
  split
  · rename_i value only
    rw [only, List.forall_mem_singleton] at values
    exact Fragment.quotedIn_ofTriple (Path.quotedIn_step focus _ values)
  · refine Fragment.QuotedIn.append (Fragment.quotedIn_hidden ?_)
      (Fragment.quotedIn_ofTriple (Path.quotedIn_step focus _ (Term.quotedIn_var _)))
    exact (Group.quotedIn_cons _ _).2 ⟨(Element.quotedIn_column _ _).2 values, Group.quotedIn_nil⟩

omit plain in
theorem quotedIn_filters (scope : Scope) {constraints : List FilterConstraint}
    (values : ∀ value ∈ constraints.flatMap FilterConstraint.values, value.QuotedIn kind) :
    (lowering.filters scope constraints).1.QuotedIn kind := by
  induction constraints generalizing scope with
  | nil => exact Fragment.quotedIn_empty
  | cons constraint rest inductionHypothesis =>
    rw [List.flatMap_cons, List.forall_mem_append] at values
    rw [filters_cons]
    exact (quotedIn_filter focus scope values.1).append (inductionHypothesis _ values.2)

omit plain in
theorem quotedIn_exclusion {scope : Scope} {shape : PropertyShape} {fragment : Fragment}
    {next : Scope} (lowered : lowering.exclusion scope shape = .ok (fragment, next)) :
    fragment.QuotedIn kind := by
  obtain ⟨predicates, -, made⟩ := Success.bind_ok.1 lowered
  cases made
  exact (quotedIn_anyTriple focus _ _).append (Fragment.quotedIn_hidden (by simp))

/-- A property shape is lowered to a fragment whose literals are its values. -/
theorem quotedIn_property {scope : Scope} {shape : PropertyShape} {fragment : Fragment}
    {next : Scope} (values : ∀ value ∈ shape.values, value.QuotedIn kind)
    (lowered : lowering.property scope shape = .ok (fragment, next)) :
    fragment.QuotedIn kind := by
  by_cases excluded : shape.maxCount = some 0
  · rw [Lowering.property, if_pos excluded] at lowered
    exact quotedIn_exclusion focus lowered
  · rw [lowering.property_of_values scope excluded] at lowered
    obtain ⟨rfl, -⟩ := Prod.mk.inj (Except.ok.inj lowered)
    have together : (lowering.together scope shape).QuotedIn kind :=
      ((quotedIn_paths plain focus _ _ _ _).append (quotedIn_choices plain focus _ _ _ _)).append
        (quotedIn_filters focus _ values)
    split
    · exact ⟨(Group.quotedIn_cons _ _).2 ⟨together.pattern, Group.quotedIn_nil⟩,
        together.terminal⟩
    · exact together

/-! ### Node shapes -/

omit plain focus in
theorem quotedIn_blankLevels {start : List TriplePattern}
    (quoted : ∀ triple ∈ start, triple.QuotedIn kind) (depth remaining : Nat) :
    (Shape.blankLevels start depth remaining).QuotedIn kind := by
  induction remaining generalizing start depth with
  | zero => exact Fragment.quotedIn_empty
  | succ remaining inductionHypothesis =>
    have deeper : (Shape.blankLevels [] (depth + 1) remaining).QuotedIn kind :=
      inductionHypothesis (List.forall_mem_nil _) (depth + 1)
    have triples : Group.QuotedIn kind (Group.ofTriples
        (start ++ [Shape.blankStep (.var (Shape.blankObject depth)) (depth + 1)])) :=
      Group.quotedIn_ofTriples (List.forall_mem_append.2 ⟨quoted,
        List.forall_mem_singleton.2 (by simp [Shape.blankStep])⟩)
    rw [Shape.blankLevels]
    refine ⟨?_, fun _ member => by cases member⟩
    rw [Group.quotedIn_cons, Element.quotedIn_optional, Group.quotedIn_append,
      Group.quotedIn_append]
    exact ⟨⟨⟨triples, by simp⟩, deeper.pattern⟩, Group.quotedIn_nil⟩

theorem quotedIn_properties {index : Nat} {shared : Scope} {properties : List PropertyShape}
    {fragment : Fragment}
    (values : ∀ value ∈ properties.flatMap PropertyShape.values, value.QuotedIn kind)
    (lowered : lowering.properties index shared properties = .ok fragment) :
    fragment.QuotedIn kind := by
  induction properties generalizing index shared fragment with
  | nil =>
    cases lowered
    exact Fragment.quotedIn_empty
  | cons property rest inductionHypothesis =>
    rw [List.flatMap_cons, List.forall_mem_append] at values
    obtain ⟨⟨first, next⟩, firstLowered, further⟩ := Success.bind_ok.1 lowered
    obtain ⟨others, othersLowered, made⟩ := Success.bind_ok.1 further
    cases made
    exact (quotedIn_property plain focus values.1 firstLowered).append
      (inductionHypothesis values.2 othersLowered)

/-- A node shape is lowered to a fragment whose literals are its values. -/
theorem quotedIn_nodeShape {shape : NodeShape} {fragment : Fragment}
    (values : ∀ value ∈ shape.values, value.QuotedIn kind)
    (lowered : lowering.nodeShape shape = .ok fragment) : fragment.QuotedIn kind := by
  unfold nodeShape at lowered
  split at lowered
  · cases lowered
  · split at lowered
    · cases lowered
    · obtain ⟨properties, propertiesLowered, made⟩ := Success.bind_ok.1 lowered
      cases made
      have described := quotedIn_properties plain focus values propertiesLowered
      have targets : (lowering.targetClasses shape.classes).QuotedIn kind := by
        unfold targetClasses
        split
        · exact Fragment.quotedIn_empty
        · exact Fragment.quotedIn_classified focus _ _
      have start : (Shape.blankStep lowering.focus 1).QuotedIn kind := by
        simp [Shape.blankStep, focus]
      have chain : (Shape.blankChain lowering.focus (shape.blankDepth.getD 0)).QuotedIn kind :=
        quotedIn_blankLevels (List.forall_mem_singleton.2 start) 1 _
      exact ⟨((targets.append described).append chain).pattern, fun _ member => by cases member⟩

end Lowering

end ShapeQuery
