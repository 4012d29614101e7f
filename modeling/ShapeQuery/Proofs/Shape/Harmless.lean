/-
This file proves that shapes with valid IRIs are lowered to harmless fragments: whatever a shape
names stands in the query as an IRI, as the value of a literal or, for blank nodes, variables and
language tags, as a word of the lexicon.
-/
import ShapeQuery.Proofs.Iri.Reference
import ShapeQuery.Proofs.Shape.Naming
import ShapeQuery.Proofs.Sparql.Harmless
import ShapeQuery.Proofs.Sparql.Names
import ShapeQuery.Shape.BlankChain

namespace ShapeQuery

open Sparql (Path Term Variable Group Element Expression TriplePattern TemplateTriple)
open Sparql.Lexer (Lexicon IsReference Fills fills_numbered withoutDigits withoutDigits_append
  withoutDigits_numeral stemFrames families slotFrames filterFrames listingFrames names_of_mem)
open Shape (Slot Scope)

/-! ### Valid shapes -/

/-- A literal with a known language or a valid datatype. -/
def Literal.IsValid (lexicon : Lexicon) : Literal → Prop
  | .plain _ => True
  | .tagged _ tag => lexicon.tags tag
  | .typed _ datatype => datatype.IsValid

/-- A term with valid IRIs and known names. -/
def Sparql.Term.IsValid (lexicon : Lexicon) : Term → Prop
  | .var name => lexicon.names name.name
  | .iri name => name.IsValid
  | .literal value => value.IsValid lexicon
  | .blank label => lexicon.labels label

/-- A path along valid IRIs. -/
def Sparql.Path.IsValid (path : Path) : Prop :=
  ∀ iri ∈ path.predicates, iri.IsValid

/-- A path of a shape with valid IRIs. -/
structure ShapePath.IsValid (shape : ShapePath) : Prop where
  path : shape.path.IsValid
  synonym : ∀ iri ∈ shape.synonym, iri.IsValid

/-- A condition with valid IRIs. -/
structure FilterConstraint.IsValid (lexicon : Lexicon) (constraint : FilterConstraint) : Prop where
  path : constraint.path.IsValid
  values : ∀ value ∈ constraint.values, value.IsValid lexicon

/-- A property shape with valid IRIs. -/
structure PropertyShape.IsValid (lexicon : Lexicon) (shape : PropertyShape) : Prop where
  paths : ∀ path ∈ shape.paths, path.IsValid
  choices : ∀ path ∈ shape.choices, path.IsValid
  classes : ∀ iri ∈ shape.classes, iri.IsValid
  filters : ∀ constraint ∈ shape.filters, constraint.IsValid lexicon

/-- A node shape with valid IRIs. -/
structure NodeShape.IsValid (lexicon : Lexicon) (shape : NodeShape) : Prop where
  classes : ∀ iri ∈ shape.classes, iri.IsValid
  properties : ∀ property ∈ shape.properties, property.IsValid lexicon

section Terms

variable {lexicon : Lexicon}

theorem Literal.IsValid.harmless {literal : Literal} (valid : literal.IsValid lexicon) :
    literal.Harmless lexicon := by
  cases literal with
  | typed value datatype => exact Iri.IsValid.isReference valid
  | _ => exact valid

theorem Sparql.Term.IsValid.harmless {term : Term} (valid : term.IsValid lexicon) :
    term.Harmless lexicon := by
  cases term with
  | iri name => exact (Term.harmless_iri name).2 (Iri.IsValid.isReference valid)
  | literal value => exact Term.harmless_literal (Literal.IsValid.harmless valid)
  | var name => exact (Term.harmless_var name).2 valid
  | blank label => exact (Term.harmless_blank label).2 valid

theorem Sparql.Path.IsValid.harmless {path : Path} (valid : path.IsValid) : path.Harmless :=
  fun iri member => (valid iri member).isReference

end Terms

/-! ### Harmless fragments -/

namespace Fragment

/-- A fragment with harmless lexemes. -/
structure Harmless (lexicon : Lexicon) (fragment : Fragment) : Prop where
  pattern : Group.Harmless lexicon fragment.pattern
  template : ∀ triple ∈ fragment.template, triple.Harmless lexicon
  terminal : ∀ term ∈ fragment.terminal, term.Harmless lexicon

variable {lexicon : Lexicon}

theorem harmless_empty : empty.Harmless lexicon :=
  ⟨Group.harmless_nil, fun _ member => absurd member List.not_mem_nil,
    fun _ member => by cases member⟩

theorem harmless_when (needed : Bool) {fragment : Fragment} (harmless : fragment.Harmless lexicon) :
    (if needed then fragment else empty).Harmless lexicon := by
  cases needed with
  | true => exact harmless
  | false => exact harmless_empty

theorem Harmless.append {first second : Fragment} (harmless : first.Harmless lexicon)
    (later : second.Harmless lexicon) : (first ++ second).Harmless lexicon := by
  refine ⟨(Group.harmless_append _ _).2 ⟨harmless.pattern, later.pattern⟩, ?_, ?_⟩
  · exact List.forall_mem_append.2 ⟨harmless.template, later.template⟩
  · intro term ended
    rw [Option.mem_def, Lowering.terminal_append] at ended
    rcases Option.or_eq_some_iff.1 ended with found | ⟨-, found⟩
    · exact harmless.terminal term found
    · exact later.terminal term found

theorem harmless_hidden {pattern : Group} (harmless : Group.Harmless lexicon pattern) :
    (hidden pattern).Harmless lexicon :=
  ⟨harmless, fun _ member => absurd member List.not_mem_nil, fun _ member => by cases member⟩

theorem harmless_ofTriple {triple : TriplePattern} (harmless : triple.Harmless lexicon) :
    (ofTriple triple).Harmless lexicon := by
  refine ⟨?_, fun shown member => ?_, fun _ member => by cases member⟩
  · simp [ofTriple, Element.harmless_triple harmless]
  · exact harmless.template (Option.mem_toList.1 member)

theorem harmless_classified {node : Term} {classVariable : Variable} {classes : List Iri}
    (nodeHarmless : node.Harmless lexicon) (named : lexicon.names classVariable.name)
    (valid : ∀ iri ∈ classes, iri.IsValid) :
    (classified node classVariable classes).Harmless lexicon := by
  have type : (Sparql.Verb.predicate Vocabulary.rdfType).Harmless lexicon :=
    (Sparql.Verb.harmless_predicate _).2 (Sparql.Lexer.isReference_ofList (by decide))
  have references : ∀ iri ∈ classes, (Term.iri iri).Harmless lexicon :=
    fun iri member => (Term.harmless_iri iri).2 (valid iri member).isReference
  unfold classified
  split
  · exact harmless_empty
  · exact harmless_ofTriple ⟨nodeHarmless, type, references _ List.mem_cons_self⟩
  · refine (harmless_ofTriple ⟨nodeHarmless, type, (Term.harmless_var _).2 named⟩).append
      (harmless_hidden ?_)
    rw [Group.harmless_cons, Element.harmless_column, List.forall_mem_map]
    exact ⟨⟨named, references⟩, Group.harmless_nil⟩

end Fragment

/-! ### Steps -/

namespace Sparql.Path

variable {lexicon : Lexicon} {path : Path} {subject object : Term}

theorem mem_predicates_of_predicate? {iri : Iri} (found : path.predicate? = some iri) :
    iri ∈ path.predicates := by
  cases path with
  | predicate name =>
    cases found
    exact List.mem_singleton_self _
  | _ => cases found

theorem harmless_step (harmless : path.Harmless) (subjectHarmless : subject.Harmless lexicon)
    (objectHarmless : object.Harmless lexicon) : (path.step subject object).Harmless lexicon := by
  unfold step
  split
  · rename_i iri backwards
    cases path with
    | inverse inner =>
      cases inner with
      | predicate name =>
        cases backwards
        exact ⟨objectHarmless, harmless, subjectHarmless⟩
      | _ => cases backwards
    | _ => cases backwards
  · exact ⟨subjectHarmless, harmless, objectHarmless⟩

theorem harmless_repeated {inner : Path} (harmless : path.Harmless)
    (found : path.repeated? = some inner) : inner.Harmless := by
  cases path with
  | zeroOrMore | oneOrMore | zeroOrOne =>
    cases found
    exact harmless
  | _ => cases found

theorem harmless_shownStep (harmless : path.Harmless)
    (subjectHarmless : subject.Harmless lexicon) (objectHarmless : object.Harmless lexicon)
    {shown : TemplateTriple} (found : path.shownStep? subject object = some shown) :
    shown.Harmless lexicon := by
  unfold shownStep? at found
  cases direct : (path.step subject object).template? with
  | some triple =>
    rw [direct] at found
    cases found
    exact (harmless_step harmless subjectHarmless objectHarmless).template direct
  | none =>
    rw [direct] at found
    obtain ⟨inner, repeats, shownInner⟩ := Option.bind_eq_some_iff.1 found
    exact (harmless_step (harmless_repeated harmless repeats) subjectHarmless
      objectHarmless).template shownInner

theorem harmless_hop (harmless : path.Harmless) (subjectHarmless : subject.Harmless lexicon)
    (objectHarmless : object.Harmless lexicon) : (path.hop subject object).Harmless lexicon := by
  unfold hop
  split
  · rename_i members
    rw [harmless_alternative] at harmless
    refine ⟨?_, fun shown member => ?_, fun _ member => by cases member⟩
    · rw [Group.harmless_cons, Element.harmless_union, List.forall_mem_map]
      refine ⟨fun member listed => ?_, Group.harmless_nil⟩
      have step := harmless_step (harmless member listed) subjectHarmless objectHarmless
      exact (Group.harmless_cons _ _).2 ⟨Element.harmless_triple step, Group.harmless_nil⟩
    · obtain ⟨step, listed, found⟩ := List.mem_filterMap.1 member
      exact harmless_shownStep (harmless step listed) subjectHarmless objectHarmless found
  · have step := harmless_step harmless subjectHarmless objectHarmless
    refine ⟨?_, fun shown member => ?_, fun _ member => by cases member⟩
    · exact (Group.harmless_cons _ _).2 ⟨Element.harmless_triple step, Group.harmless_nil⟩
    · exact harmless_shownStep harmless subjectHarmless objectHarmless (Option.mem_toList.1 member)

theorem harmless_walk {steps : List (Path × Term)} (subjectHarmless : subject.Harmless lexicon)
    (harmless : ∀ step ∈ steps, step.1.Harmless ∧ step.2.Harmless lexicon) :
    (walk subject steps).Harmless lexicon := by
  induction steps generalizing subject with
  | nil => exact Fragment.harmless_empty
  | cons step rest inductionHypothesis =>
    obtain ⟨stepPath, node⟩ := step
    rw [List.forall_mem_cons] at harmless
    exact (harmless_hop harmless.1.1 subjectHarmless harmless.1.2).append
      (inductionHypothesis harmless.1.2 harmless.2)

theorem harmless_whole (harmless : path.Harmless) (subjectHarmless : subject.Harmless lexicon)
    (objectHarmless : object.Harmless lexicon) : (path.whole subject object).Harmless lexicon := by
  unfold whole
  split
  · rename_i members
    refine ⟨?_, fun shown member => ?_, fun _ member => by cases member⟩
    · have triple : TriplePattern.Harmless lexicon ⟨subject, .path (.alternative members), object⟩ :=
        ⟨subjectHarmless, harmless, objectHarmless⟩
      exact (Group.harmless_cons _ _).2 ⟨Element.harmless_triple triple, Group.harmless_nil⟩
    · rw [harmless_alternative] at harmless
      obtain ⟨step, listed, found⟩ := List.mem_filterMap.1 member
      exact (harmless_step (harmless step listed) subjectHarmless objectHarmless).template found
  · exact Fragment.harmless_ofTriple (harmless_step harmless subjectHarmless objectHarmless)

end Sparql.Path

/-! ### Property shapes -/

/-- Whether the variables of a scope are known. -/
def Shape.Scope.Known (lexicon : Lexicon) (scope : Scope) : Prop :=
  ∀ slot : Slot, lexicon.names (slot.toVariable scope.stem).name

namespace Lowering

variable {lexicon : Lexicon} {lowering : Lowering} (plain : lowering.Plain)
  (focus : lowering.focus.Harmless lexicon)

include focus

theorem harmless_anyTriple {predicate value : Variable} (predicateNamed : lexicon.names predicate.name)
    (valueNamed : lexicon.names value.name) :
    (lowering.anyTriple predicate value).Harmless lexicon :=
  Fragment.harmless_ofTriple ⟨focus, predicateNamed, (Term.harmless_var value).2 valueNamed⟩

theorem harmless_along {path : Path} {nodes : List Term} {terminal : Term}
    (harmless : path.Harmless) (nodesHarmless : ∀ node ∈ nodes, node.Harmless lexicon)
    (terminalHarmless : terminal.Harmless lexicon) :
    (lowering.along path nodes terminal).Harmless lexicon := by
  have whole := Path.harmless_whole harmless focus terminalHarmless
  unfold along
  split
  · split
    · exact whole
    · rw [Path.harmless_sequence] at harmless
      refine Path.harmless_walk focus fun step member => ?_
      obtain ⟨stepPath, node⟩ := step
      obtain ⟨pathMember, nodeMember⟩ := List.of_mem_zip member
      exact ⟨harmless stepPath pathMember, nodesHarmless node nodeMember⟩
  · exact whole

theorem harmless_shown {synonym : Option Iri} {terminal : Term} {walked : Fragment}
    (valid : ∀ iri ∈ synonym, iri.IsValid) (terminalHarmless : terminal.Harmless lexicon)
    (harmless : walked.Harmless lexicon) :
    (lowering.shown synonym terminal walked).Harmless lexicon := by
  unfold shown
  split
  · rename_i predicate
    have reference : IsReference predicate.text := (valid predicate rfl).isReference
    refine ⟨harmless.pattern, fun triple member => ?_, harmless.terminal⟩
    rw [List.mem_singleton.1 member]
    exact ⟨focus, (Term.harmless_iri predicate).2 reference, terminalHarmless⟩
  · exact harmless

include plain

theorem harmless_path {classes : List Iri} (undecided : Bool) {scope : Scope} {path : ShapePath}
    (classesValid : ∀ iri ∈ classes, iri.IsValid) (known : scope.Known lexicon)
    (valid : path.IsValid) :
    (lowering.path classes undecided scope path).1.Harmless lexicon := by
  unfold Lowering.path
  split
  · exact harmless_anyTriple focus (known _) (known _)
  · have nodes : ∀ node ∈ lowering.nodes scope.stem scope.nextNode path.path.hops,
        node.Harmless lexicon := by
      intro node member
      rw [plain.nodes] at member
      obtain ⟨offset, -, rfl⟩ := List.mem_map.1 member
      exact (Term.harmless_var _).2 (known _)
    have terminal : ((lowering.nodes scope.stem scope.nextNode path.path.hops).getLast?.getD
        lowering.focus).Harmless lexicon := by
      cases last : (lowering.nodes scope.stem scope.nextNode path.path.hops).getLast? with
      | none => exact focus
      | some node => exact nodes node (List.mem_of_getLast? last)
    have walked := harmless_shown focus valid.synonym terminal
      (harmless_along focus valid.path.harmless nodes terminal)
    have classified := Fragment.harmless_classified terminal
      (known (.nodeClasses (scope.nextNode + path.path.hops - 1))) classesValid
    have whole := walked.append (Fragment.harmless_when undecided classified)
    refine ⟨whole.pattern, whole.template, fun term member => ?_⟩
    cases member
    exact terminal

theorem harmless_paths {classes : List Iri} (undecided : Bool) {scope : Scope}
    {paths : List ShapePath} (classesValid : ∀ iri ∈ classes, iri.IsValid)
    (known : scope.Known lexicon) (valid : ∀ path ∈ paths, path.IsValid) :
    (lowering.paths classes undecided scope paths).1.Harmless lexicon := by
  induction paths generalizing undecided scope with
  | nil => exact Fragment.harmless_empty
  | cons path rest inductionHypothesis =>
    rw [List.forall_mem_cons] at valid
    rw [paths_cons]
    refine (harmless_path plain focus undecided classesValid known valid.1).append ?_
    refine inductionHypothesis _ (fun slot => ?_) valid.2
    rw [path_stem]
    exact known slot

theorem harmless_branches {classes : List Iri} (undecided : Bool) {scope : Scope}
    {paths : List ShapePath} (classesValid : ∀ iri ∈ classes, iri.IsValid)
    (known : scope.Known lexicon) (valid : ∀ path ∈ paths, path.IsValid) :
    ∀ branch ∈ (lowering.branches classes undecided scope paths).1, branch.Harmless lexicon := by
  induction paths generalizing scope with
  | nil => exact fun _ member => absurd member List.not_mem_nil
  | cons path rest inductionHypothesis =>
    rw [List.forall_mem_cons] at valid
    rw [branches_cons, List.forall_mem_cons]
    refine ⟨harmless_path plain focus undecided classesValid known valid.1, ?_⟩
    refine inductionHypothesis (fun slot => ?_) valid.2
    rw [path_stem]
    exact known slot

omit plain focus in
theorem harmless_bound {target : Variable} {branch : Fragment}
    (named : lexicon.names target.name) (harmless : branch.Harmless lexicon) :
    (bound target branch).Harmless lexicon := by
  unfold bound
  split
  · rename_i terminal ended
    have known := harmless.terminal _ ended
    refine harmless.append (Fragment.harmless_hidden ?_)
    simpa [named] using known
  · rename_i terminal _ ended
    have known := harmless.terminal _ ended
    refine harmless.append (Fragment.harmless_hidden ?_)
    simpa [named] using known
  · exact harmless

omit focus in
theorem harmless_joined {scope : Scope} {branches : List Fragment} (known : scope.Known lexicon)
    (harmless : ∀ branch ∈ branches, branch.Harmless lexicon) :
    (∀ branch ∈ (lowering.joined scope branches).1, branch.Harmless lexicon) ∧
      ∀ terminal ∈ (lowering.joined scope branches).2.1, terminal.Harmless lexicon := by
  unfold joined
  split
  · exact ⟨harmless, fun _ member => by cases member⟩
  · rename_i terminal found
    obtain ⟨first, head, ended⟩ := Option.bind_eq_some_iff.1 found
    have clean := (harmless first (List.mem_of_head? head)).terminal terminal ended
    split
    · refine ⟨harmless, fun _ member => ?_⟩
      cases member
      exact clean
    · simp only [plain.node]
      refine ⟨List.forall_mem_map.2 fun branch member => ?_, fun _ member => ?_⟩
      · exact harmless_bound (known _) (harmless branch member)
      · cases member
        exact (Term.harmless_var _).2 (known _)

theorem harmless_choices {classes : List Iri} (undecided : Bool) {scope : Scope}
    {choices : List ShapePath} (classesValid : ∀ iri ∈ classes, iri.IsValid)
    (known : scope.Known lexicon) (valid : ∀ path ∈ choices, path.IsValid) :
    (lowering.choices classes undecided scope choices).1.Harmless lexicon := by
  unfold Lowering.choices
  split
  · exact Fragment.harmless_empty
  · have branches := harmless_branches plain focus undecided classesValid known valid
    have union (parts : List Fragment) (clean : ∀ part ∈ parts, part.Harmless lexicon)
        (terminal : Option Term) (ended : ∀ term ∈ terminal, term.Harmless lexicon) :
        Fragment.Harmless lexicon ⟨[.union (parts.map Fragment.pattern)],
          parts.flatMap Fragment.template, terminal⟩ := by
      refine ⟨?_, fun triple member => ?_, ended⟩
      · rw [Group.harmless_cons, Element.harmless_union, List.forall_mem_map]
        exact ⟨fun part member => (clean part member).pattern, Group.harmless_nil⟩
      · obtain ⟨part, partMember, inside⟩ := List.mem_flatMap.1 member
        exact (clean part partMember).template triple inside
    cases undecided with
    | false => exact union _ branches none fun _ member => by cases member
    | true =>
      have knownThere : Scope.Known lexicon (lowering.branches classes true scope choices).2 := by
        intro slot
        rw [branches_stem]
        exact known slot
      obtain ⟨parts, ended⟩ := harmless_joined plain knownThere branches
      exact union _ parts _ ended

omit plain in
theorem harmless_filter {scope : Scope} {constraint : FilterConstraint}
    (known : scope.Known lexicon) (valid : constraint.IsValid lexicon) :
    (lowering.filter scope constraint).1.Harmless lexicon := by
  have path := Path.IsValid.harmless valid.path
  have values : ∀ value ∈ constraint.values, value.Harmless lexicon :=
    fun value member => Term.IsValid.harmless (valid.values value member)
  unfold Lowering.filter
  split
  · rename_i value only
    rw [only, List.forall_mem_singleton] at values
    exact Fragment.harmless_ofTriple (Path.harmless_step path focus values)
  · have choice := (Term.harmless_var _).2 (known (.choice scope.nextChoice))
    refine Fragment.Harmless.append (Fragment.harmless_hidden ?_)
      (Fragment.harmless_ofTriple (Path.harmless_step path focus choice))
    rw [Group.harmless_cons, Element.harmless_column]
    exact ⟨⟨known _, values⟩, Group.harmless_nil⟩

omit plain in
theorem harmless_filters {scope : Scope} {constraints : List FilterConstraint}
    (known : scope.Known lexicon)
    (valid : ∀ constraint ∈ constraints, constraint.IsValid lexicon) :
    (lowering.filters scope constraints).1.Harmless lexicon := by
  induction constraints generalizing scope with
  | nil => exact Fragment.harmless_empty
  | cons constraint rest inductionHypothesis =>
    rw [List.forall_mem_cons] at valid
    rw [filters_cons]
    refine (harmless_filter focus known valid.1).append ?_
    refine inductionHypothesis (fun slot => ?_) valid.2
    rw [filter_stem]
    exact known slot

omit plain in
theorem harmless_exclusion {scope : Scope} {shape : PropertyShape} {fragment : Fragment}
    {next : Scope} (known : scope.Known lexicon) (valid : shape.IsValid lexicon)
    (lowered : lowering.exclusion scope shape = .ok (fragment, next)) :
    fragment.Harmless lexicon ∧ next.stem = scope.stem := by
  obtain ⟨predicates, read, made⟩ := Success.bind_ok.1 lowered
  cases made
  refine ⟨(harmless_anyTriple focus (known _) (known _)).append (Fragment.harmless_hidden ?_), rfl⟩
  have references : ∀ iri ∈ predicates, IsReference iri.text := by
    intro iri member
    obtain ⟨path, pathMember, found⟩ := Success.source_of_mem_mapM read iri member
    have pathValid : path.IsValid := by
      rcases List.mem_append.1 pathMember with required | choice
      · exact valid.paths path required
      · exact valid.choices path choice
    split at found
    · rename_i predicate single
      cases found
      exact (pathValid.path iri (Path.mem_predicates_of_predicate? single)).isReference
    · cases found
  simpa [known (.predicate scope.nextPredicate)] using references

omit plain focus in
theorem harmless_madeOptional {fragment : Fragment} (harmless : fragment.Harmless lexicon) :
    (madeOptional fragment).Harmless lexicon := by
  refine ⟨?_, harmless.template, harmless.terminal⟩
  rw [madeOptional, Group.harmless_cons, Element.harmless_optional]
  exact ⟨harmless.pattern, Group.harmless_nil⟩

/-- A property shape is lowered to a harmless fragment, and keeps to the variables of its scope. -/
theorem harmless_property {scope : Scope} {shape : PropertyShape} {fragment : Fragment}
    {next : Scope} (known : scope.Known lexicon) (valid : shape.IsValid lexicon)
    (lowered : lowering.property scope shape = .ok (fragment, next)) :
    fragment.Harmless lexicon ∧ next.stem = scope.stem := by
  by_cases values : shape.maxCount = some 0
  · rw [Lowering.property, if_pos values] at lowered
    exact harmless_exclusion focus known valid lowered
  · rw [lowering.property_of_values scope values] at lowered
    obtain ⟨rfl, rfl⟩ := Prod.mk.inj (Except.ok.inj lowered)
    have requiredStem : (lowering.required scope shape).2.stem = scope.stem :=
      lowering.paths_stem ..
    have chosenStem : (lowering.chosen scope shape).2.stem = scope.stem :=
      (lowering.choices_stem ..).trans requiredStem
    have required : (lowering.required scope shape).1.Harmless lexicon :=
      harmless_paths plain focus true valid.classes known fun path member =>
        valid.paths path (List.mem_mergeSort.1 member)
    have chosen := harmless_choices plain focus
      (lowering.required scope shape).1.terminal.isNone valid.classes
      (fun slot => requiredStem ▸ known slot) valid.choices
    have conditions := harmless_filters focus (fun slot => chosenStem ▸ known slot) valid.filters
    have together : (lowering.together scope shape).Harmless lexicon :=
      (required.append chosen).append conditions
    refine ⟨?_, (lowering.filters_stem ..).trans chosenStem⟩
    split
    · exact harmless_madeOptional together
    · exact together

end Lowering

/-! ### The names of shapes -/

theorem Shape.Slot.family_mem (slot : Slot) : slot.family ∈ families := by
  cases slot <;> simp [family, families]

theorem Shape.Slot.fills_toVariable {stem frame : String} (known : frame ∈ stemFrames)
    (same : withoutDigits stem = frame.toList) (slot : Slot) :
    Fills slotFrames (slot.toVariable stem).name := by
  have listed : ∀ frame ∈ stemFrames, ∀ family ∈ families,
      frame.toList ++ withoutDigits "_" ++ withoutDigits family ++ withoutDigits "_" ∈
        slotFrames.map String.toList := by
    decide
  simp only [toVariable, Fills, withoutDigits_append, withoutDigits_numeral, List.append_nil, same]
  exact listed frame known slot.family slot.family_mem

section Own

variable {lexicon : Lexicon} (own : Lexicon.own.Within lexicon)

include own

theorem Shape.Scope.known_of_frame {scope : Scope} {frame : String} (known : frame ∈ stemFrames)
    (same : withoutDigits scope.stem = frame.toList) : scope.Known lexicon := by
  intro slot
  refine own.names _ ?_
  have fills := slot.fills_toVariable known same
  simp only [Lexicon.own, Fills, List.map_append, List.append_assoc, List.mem_append] at fills ⊢
  exact .inl fills

theorem ShapeKind.known_start (kind : ShapeKind) (index : Nat) :
    (Scope.start (kind.stem index)).Known lexicon := by
  have numbered : withoutDigits ("prof_" ++ toString (index + 1)) = "prof_".toList := by
    rw [withoutDigits_append, withoutDigits_numeral]
    decide
  cases kind with
  | endpoint =>
    have plain : withoutDigits "path" = "path".toList := by decide
    exact Scope.known_of_frame own (by decide : "path" ∈ stemFrames) plain
  | profile | search =>
    exact Scope.known_of_frame own (by decide : "prof_" ∈ stemFrames) numbered

/-! ### Node shapes -/

theorem names_focusNode : lexicon.names Shape.focusNode.name :=
  own.names _ (names_of_mem (by decide))

theorem names_focusClasses : lexicon.names Shape.focusClasses.name :=
  own.names _ (names_of_mem (by decide))

theorem names_numbered {frame : String} (known : frame ∈ filterFrames ++ listingFrames)
    (number : Nat) : lexicon.names (frame ++ toString number) :=
  own.names _ (fills_numbered (names_of_mem known) number)

namespace Shape

theorem names_blankPredicate (depth : Nat) : lexicon.names (blankPredicate depth).name :=
  names_numbered own (by decide : "bn_p_" ∈ _) depth

theorem names_blankObject (depth : Nat) : lexicon.names (blankObject depth).name :=
  names_numbered own (by decide : "bn_o_" ∈ _) depth

theorem harmless_blankStep {subject : Term} (harmless : subject.Harmless lexicon) (depth : Nat) :
    (blankStep subject depth).Harmless lexicon :=
  ⟨harmless, names_blankPredicate own depth, (Term.harmless_var _).2 (names_blankObject own depth)⟩

theorem harmless_blankLevels {start : List TriplePattern}
    (harmless : ∀ triple ∈ start, triple.Harmless lexicon) (depth remaining : Nat) :
    (blankLevels start depth remaining).Harmless lexicon := by
  induction remaining generalizing start depth with
  | zero => exact Fragment.harmless_empty
  | succ remaining inductionHypothesis =>
    have node : (Term.var (blankObject depth)).Harmless lexicon :=
      (Term.harmless_var _).2 (names_blankObject own depth)
    have triples : ∀ triple ∈ start ++ [blankStep (.var (blankObject depth)) (depth + 1)],
        triple.Harmless lexicon :=
      List.forall_mem_append.2 ⟨harmless,
        List.forall_mem_singleton.2 (harmless_blankStep own node (depth + 1))⟩
    have deeper : (blankLevels [] (depth + 1) remaining).Harmless lexicon :=
      inductionHypothesis (fun _ member => absurd member List.not_mem_nil) (depth + 1)
    have listed : Group.Harmless lexicon
        ((start ++ [blankStep (.var (blankObject depth)) (depth + 1)]).map .triple) :=
      List.forall_mem_map.2 fun triple member => Element.harmless_triple (triples triple member)
    have test : (Element.filter (.call .isBlank [.var (blankObject depth)])).Harmless lexicon := by
      simp [Sparql.Function.lexeme, Sparql.Lexeme.IsHarmless, Sparql.Lexer.keywords,
        names_blankObject own depth]
    rw [blankLevels]
    refine ⟨?_, List.forall_mem_append.2 ⟨fun shown member => ?_, deeper.template⟩,
      fun _ member => by cases member⟩
    · simp only [Group.harmless_cons, Element.harmless_optional, Group.harmless_append]
      exact ⟨⟨⟨listed, test, Group.harmless_nil⟩, deeper.pattern⟩, Group.harmless_nil⟩
    · obtain ⟨triple, inside, found⟩ := List.mem_filterMap.1 member
      exact (triples triple inside).template found

end Shape

namespace Lowering

variable {lowering : Lowering} (plain : lowering.Plain)
  (focus : lowering.focus.Harmless lexicon)

include plain focus

theorem harmless_properties {index : Nat} {shared : Scope} {properties : List PropertyShape}
    {fragment : Fragment} (known : shared.Known lexicon)
    (valid : ∀ property ∈ properties, property.IsValid lexicon)
    (lowered : lowering.properties index shared properties = .ok fragment) :
    fragment.Harmless lexicon := by
  induction properties generalizing index shared fragment with
  | nil =>
    cases lowered
    exact Fragment.harmless_empty
  | cons property rest inductionHypothesis =>
    rw [List.forall_mem_cons] at valid
    obtain ⟨⟨first, next⟩, firstLowered, further⟩ := Success.bind_ok.1 lowered
    obtain ⟨others, othersLowered, made⟩ := Success.bind_ok.1 further
    cases made
    have start : Scope.Known lexicon (if lowering.kind = .endpoint then shared
        else Scope.start (lowering.kind.stem index)) := by
      split
      · exact known
      · exact ShapeKind.known_start own lowering.kind index
    obtain ⟨harmless, stem⟩ := harmless_property plain focus start valid.1 firstLowered
    exact harmless.append (inductionHypothesis (fun slot => stem ▸ start slot) valid.2 othersLowered)

/-- A valid node shape is lowered to a harmless fragment. -/
theorem harmless_nodeShape {shape : NodeShape} {fragment : Fragment}
    (valid : shape.IsValid lexicon) (lowered : lowering.nodeShape shape = .ok fragment) :
    fragment.Harmless lexicon := by
  unfold nodeShape at lowered
  split at lowered
  · cases lowered
  · split at lowered
    · cases lowered
    · obtain ⟨properties, propertiesLowered, made⟩ := Success.bind_ok.1 lowered
      cases made
      have described := harmless_properties own plain focus
        (ShapeKind.known_start own lowering.kind 0) valid.properties propertiesLowered
      have targets : (lowering.targetClasses shape.classes).Harmless lexicon := by
        unfold targetClasses
        split
        · exact Fragment.harmless_empty
        · exact Fragment.harmless_classified focus (names_focusClasses own) valid.classes
      have start : ∀ triple ∈ [Shape.blankStep lowering.focus 1], triple.Harmless lexicon :=
        List.forall_mem_singleton.2 (Shape.harmless_blankStep own focus 1)
      have chain : (Shape.blankChain lowering.focus (shape.blankDepth.getD 0)).Harmless lexicon :=
        Shape.harmless_blankLevels own start 1 _
      have whole := (targets.append described).append chain
      exact ⟨whole.pattern, whole.template, fun _ member => by cases member⟩

end Lowering

end Own

end ShapeQuery
