/-
This file proves that the pattern of a lowered node shape selects the nodes of a graph that conform
to the shape. The parts of a property shape are decided in one scope; different property shapes, the
target classes and the chains of blank nodes have different variables. A resource that is only a
predicate of the graph may conform without being found.
-/
import ShapeQuery.Proofs.Shape.Deciding

namespace ShapeQuery

open Sparql (Path Group Engine Valuation Unknown AllPositive)
open Shape (Slot Scope)
open Success (bind_ok)

namespace Lowering

variable (engine : Engine) {graph : Rdf.Graph} {lowering : Lowering} {resource : Iri}

/-! ### Property shapes -/

/-- The order of the paths of a property shape does not matter to what they ask for together. -/
theorem forall_longestFirst {paths : List ShapePath} {property : ShapePath → Prop} :
    (∀ path ∈ longestFirst paths, property path) ↔ ∀ path ∈ paths, property path :=
  forall_congr' fun _ => imp_congr_left List.mem_mergeSort

/-- A property shape with values is decided by its parts. -/
theorem together_decides (about : lowering.About graph resource) (scope : Scope)
    {shape : PropertyShape} (regular : shape.Regular) :
    Fragment.Decides engine graph scope (lowering.conditions scope shape).2
      (lowering.together scope shape)
      ((∀ path ∈ shape.paths, path.Reaches graph resource []) ∧
        (∀ path, shape.decisive? = some path → path.Reaches graph resource shape.classes) ∧
        (shape.choices = [] ∨ ∃ choice ∈ shape.choices,
          choice.Reaches graph resource (if shape.decisive?.isNone then shape.classes else [])) ∧
        ∀ constraint ∈ shape.filters, constraint.Holds graph resource) := by
  have steps : ∀ path ∈ longestFirst shape.paths, path.path.hops ≠ 0 := fun path member =>
    regular.paths path (List.mem_mergeSort.1 member)
  have required := paths_decides engine about shape.classes true scope steps
  have terminal := isNone_paths_terminal about shape.classes true scope steps
  have chosen := choices_decides engine about shape.classes
    (lowering.required scope shape).1.terminal.isNone (lowering.required scope shape).2
    regular.choices
  have conditions := filters_decides engine about (lowering.chosen scope shape).2 regular.values
  refine ((required.append chosen).append conditions).congr ?_
  have undecided : (lowering.required scope shape).1.terminal.isNone = shape.decisive?.isNone :=
    terminal
  rw [undecided, forall_longestFirst]
  simp only [true_implies, and_assoc]
  rfl

/-- An optional fragment is met by every resource. -/
theorem madeOptional_decides {before after : Scope} {fragment : Fragment} {condition : Prop}
    (decides : Fragment.Decides engine graph before after fragment condition) :
    Fragment.Decides engine graph before after (madeOptional fragment) True where
  precedes := decides.precedes
  owned unknown member := by
    refine decides.owned unknown ?_
    unfold madeOptional at member
    rw [Group.unknowns, Sparql.groupAtoms, Sparql.groupAtoms, List.append_nil,
      Sparql.Element.atoms] at member
    exact member
  solvable := iff_true_intro (Group.solvable_optional engine graph fragment.pattern)

/-- A property shape is decided by whether the focus satisfies it. -/
theorem property_decides (about : lowering.About graph resource) {scope next : Scope}
    {shape : PropertyShape} (regular : shape.Regular) {fragment : Fragment}
    (lowered : lowering.property scope shape = .ok (fragment, next)) :
    Fragment.Decides engine graph scope next fragment (shape.Satisfied graph resource) := by
  unfold PropertyShape.Satisfied
  by_cases values : shape.maxCount = some 0
  · rw [Lowering.property, if_pos values] at lowered
    rw [if_pos values]
    exact exclusion_decides engine about lowered
  · rw [lowering.property_of_values scope values] at lowered
    obtain ⟨rfl, rfl⟩ := Prod.mk.inj (Except.ok.inj lowered)
    rw [if_neg values]
    have together := together_decides engine about scope regular
    by_cases absent : shape.minCount = some 0
    · rw [if_pos absent]
      exact (madeOptional_decides engine together).congr (iff_of_true trivial (.inl absent))
    · rw [if_neg absent]
      exact together.congr (or_iff_right absent).symm

/-! ### Different property shapes -/

theorem profile_stem_inj {first second : Slot} {index other : Nat}
    (same : first.toVariable (ShapeKind.profile.stem index) =
      second.toVariable (ShapeKind.profile.stem other)) : index = other := by
  have names : "prof_" ++ toString (index + 1) ++ "_" ++ first.family =
      "prof_" ++ toString (other + 1) ++ "_" ++ second.family :=
    (Shape.numbered_inj (Sparql.Variable.mk.inj same)).1
  simp only [String.append_assoc, String.append_right_inj] at names
  rw [← String.append_assoc, ← String.append_assoc] at names
  exact Nat.succ.inj (Shape.numeral_append_inj names).1

/-- Whether an unknown belongs to a property shape from an index on. -/
def OfShapes (kind : ShapeKind) (index : Nat) (unknown : Unknown) : Prop :=
  ∃ later, index ≤ later ∧ ∃ slot : Slot, unknown = .var (slot.toVariable (kind.stem later))

/-- The property shapes of an endpoint are decided in one scope. -/
theorem properties_of_endpoint (about : lowering.About graph resource)
    (endpoint : lowering.kind = .endpoint) {shapes : List PropertyShape}
    (regular : ∀ shape ∈ shapes, shape.Regular) {index : Nat} {shared : Scope}
    {fragment : Fragment} (lowered : lowering.properties index shared shapes = .ok fragment) :
    ∃ next, Fragment.Decides engine graph shared next fragment
      (∀ shape ∈ shapes, shape.Satisfied graph resource) := by
  induction shapes generalizing index shared fragment with
  | nil =>
    cases lowered
    exact ⟨shared, (Fragment.Decides.empty shared).congr (iff_of_true trivial nofun)⟩
  | cons shape rest inductionHypothesis =>
    rw [List.forall_mem_cons] at regular
    obtain ⟨⟨first, middle⟩, one, further⟩ := bind_ok.1 lowered
    obtain ⟨others, restLowered, total⟩ := bind_ok.1 further
    cases total
    rw [if_pos endpoint] at one
    obtain ⟨next, decides⟩ := inductionHypothesis regular.2 restLowered
    refine ⟨next, ((property_decides engine about regular.1 one).append decides).congr ?_⟩
    rw [List.forall_mem_cons]

/-- The property shapes of a profile are decided in scopes of their own. -/
theorem properties_of_profile (about : lowering.About graph resource)
    (profile : lowering.kind = .profile) {shapes : List PropertyShape}
    (regular : ∀ shape ∈ shapes, shape.Regular) {index : Nat} {shared : Scope}
    {fragment : Fragment} (lowered : lowering.properties index shared shapes = .ok fragment) :
    (∀ unknown ∈ fragment.pattern.unknowns, OfShapes .profile index unknown) ∧
      (fragment.pattern.Solvable engine graph ↔
        ∀ shape ∈ shapes, shape.Satisfied graph resource) := by
  induction shapes generalizing index shared fragment with
  | nil =>
    cases lowered
    exact ⟨nofun, iff_of_true (Group.solvable_nil engine graph) nofun⟩
  | cons shape rest inductionHypothesis =>
    rw [List.forall_mem_cons] at regular
    obtain ⟨⟨first, middle⟩, one, further⟩ := bind_ok.1 lowered
    obtain ⟨others, restLowered, total⟩ := bind_ok.1 further
    cases total
    rw [profile, if_neg (by decide)] at one
    have decides := property_decides engine about regular.1 one
    obtain ⟨othersOwned, othersSolvable⟩ := inductionHypothesis regular.2 restLowered
    have owned : ∀ unknown ∈ first.pattern.unknowns, ∃ slot : Slot,
        unknown = .var (slot.toVariable (ShapeKind.profile.stem index)) := by
      intro unknown member
      obtain ⟨slot, -, same⟩ := decides.owned unknown member
      exact ⟨slot, same⟩
    have apart : first.pattern.Apart others.pattern := by
      intro unknown inFirst inOthers
      obtain ⟨slot, rfl⟩ := owned unknown inFirst
      obtain ⟨later, after, other, same⟩ := othersOwned _ inOthers
      exact absurd (profile_stem_inj (Unknown.var.inj same)) (Nat.ne_of_lt after)
    refine ⟨fun unknown member => ?_, ?_⟩
    · have split : unknown ∈ first.pattern.unknowns ++ others.pattern.unknowns := by
        rw [← Group.unknowns_append]
        exact member
      rcases List.mem_append.1 split with inFirst | inOthers
      · obtain ⟨slot, rfl⟩ := owned unknown inFirst
        exact ⟨index, Nat.le_refl _, slot, rfl⟩
      · obtain ⟨later, after, slot, rfl⟩ := othersOwned unknown inOthers
        exact ⟨later, Nat.le_of_succ_le after, slot, rfl⟩
    · have both := Group.solvable_append engine graph apart
      rw [decides.solvable, othersSolvable] at both
      rw [List.forall_mem_cons]
      exact both

/-! ### Initial letters -/

/-- The first letter of the name of an unknown. -/
def initial? : Unknown → Option Char
  | .var name => name.name.toList.head?
  | .blank _ => none

theorem initial?_slot (kind : ShapeKind) (index : Nat) (slot : Slot) :
    initial? (.var (slot.toVariable (kind.stem index))) = some 'p' := by
  have front : ∃ rest, (kind.stem index).toList = 'p' :: rest := by
    cases kind with
    | endpoint => exact ⟨"ath".toList, by simp [ShapeKind.stem]⟩
    | profile => exact ⟨"rof_".toList ++ (toString (index + 1)).toList, by simp [ShapeKind.stem]⟩
    | search => exact ⟨"rof_".toList ++ (toString (index + 1)).toList, by simp [ShapeKind.stem]⟩
  obtain ⟨rest, same⟩ := front
  simp only [initial?, Slot.toVariable, String.toList_append, same, List.cons_append,
    List.head?_cons]

/-- Groups whose variables start with different letters have no common unknowns. -/
theorem apart_of_initial {first second : Group} {letter other : Char} (different : letter ≠ other)
    (inFirst : ∀ unknown ∈ first.unknowns, initial? unknown = some letter)
    (inSecond : ∀ unknown ∈ second.unknowns, initial? unknown = some other) :
    first.Apart second := fun unknown one two =>
  different (Option.some.inj ((inFirst unknown one).symm.trans (inSecond unknown two)))

theorem properties_solvable (about : lowering.About graph resource)
    {shapes : List PropertyShape} (regular : ∀ shape ∈ shapes, shape.Regular)
    {fragment : Fragment}
    (lowered : lowering.properties 0 (Scope.start (lowering.kind.stem 0)) shapes =
      .ok fragment) :
    (∀ unknown ∈ fragment.pattern.unknowns, initial? unknown = some 'p') ∧
      (fragment.pattern.Solvable engine graph ↔
        ∀ shape ∈ shapes, shape.Satisfied graph resource) := by
  by_cases endpoint : lowering.kind = .endpoint
  · obtain ⟨next, decides⟩ := properties_of_endpoint engine about endpoint regular lowered
    refine ⟨fun unknown member => ?_, decides.solvable⟩
    obtain ⟨slot, -, rfl⟩ := decides.owned unknown member
    exact initial?_slot lowering.kind 0 slot
  · have profile : lowering.kind = .profile := by
      cases kind : lowering.kind with
      | endpoint => exact absurd kind endpoint
      | profile => rfl
      | search => exact absurd kind about.plain.notSearch
    obtain ⟨owned, solvable⟩ := properties_of_profile engine about profile regular lowered
    refine ⟨fun unknown member => ?_, solvable⟩
    obtain ⟨later, -, slot, rfl⟩ := owned unknown member
    exact initial?_slot .profile later slot

/-! ### Target classes and blank nodes -/

theorem targetClasses_solvable (about : lowering.About graph resource) {classes : List Iri}
    (nonempty : classes ≠ []) :
    (∀ unknown ∈ (lowering.targetClasses classes).pattern.unknowns,
        initial? unknown = some 'f') ∧
      ((lowering.targetClasses classes).pattern.Solvable engine graph ↔
        classes = [Vocabulary.rdfsResource] ∨ graph.HasClass (.iri resource) classes) := by
  have focusValue (valuation : Valuation) : valuation.term lowering.focus = .iri resource := by
    rw [about.focus]
    rfl
  unfold targetClasses
  split
  · rename_i every
    exact ⟨nofun, iff_of_true (Group.solvable_nil engine graph) (.inl every)⟩
  · rename_i restricted
    refine ⟨fun unknown member => ?_, ?_⟩
    · rcases Fragment.mem_unknowns_classified member with inFocus | rfl
      · rw [about.focus] at inFocus
        cases inFocus
      · rfl
    · rw [Group.solvable_iff_met engine (Fragment.positive_classified _ _ _),
        or_iff_right restricted]
      constructor
      · rintro ⟨valuation, met⟩
        have typed := (Fragment.hasClass_of_met met).resolve_left nonempty
        rwa [focusValue] at typed
      · rintro ⟨name, among, found⟩
        refine ⟨fun _ => .iri name, Fragment.met_classified rfl (.inr ⟨among, ?_⟩)⟩
        rw [focusValue]
        exact found

theorem mem_unknowns_triples {triples : List Sparql.TriplePattern} {unknown : Unknown}
    (member : unknown ∈ Group.unknowns (triples.map .triple)) :
    ∃ triple ∈ triples, unknown ∈ Group.unknowns [.triple triple] := by
  induction triples with
  | nil => cases member
  | cons first rest inductionHypothesis =>
    rw [List.map_cons, ← List.singleton_append, Group.unknowns_append] at member
    rcases List.mem_append.1 member with one | others
    · exact ⟨first, List.mem_cons_self, one⟩
    · obtain ⟨triple, found, within⟩ := inductionHypothesis others
      exact ⟨triple, List.mem_cons_of_mem _ found, within⟩

theorem initial?_blank (depth : Nat) :
    initial? (.var (Shape.blankPredicate depth)) = some 'b' ∧
      initial? (.var (Shape.blankObject depth)) = some 'b' := by
  simp [initial?, Shape.blankPredicate, Shape.blankObject]

theorem initial?_blankStep {subject : Sparql.Term} {depth : Nat} {unknown : Unknown}
    (ofSubject : ∀ unknown, subject.unknown? = some unknown → initial? unknown = some 'b')
    (member : unknown ∈ Group.unknowns [.triple (Shape.blankStep subject depth)]) :
    initial? unknown = some 'b' := by
  rcases mem_unknowns_triple member with inSubject | ⟨name, verb, rfl⟩ | inObject
  · exact ofSubject unknown inSubject
  · cases verb
    exact (initial?_blank depth).1
  · cases inObject
    exact (initial?_blank depth).2

theorem initial?_blankLevels {start : List Sparql.TriplePattern} {depth remaining : Nat}
    (ofStart : ∀ triple ∈ start, ∀ unknown ∈ Group.unknowns [.triple triple],
      initial? unknown = some 'b') :
    ∀ unknown ∈ (Shape.blankLevels start depth remaining).pattern.unknowns,
      initial? unknown = some 'b' := by
  induction remaining generalizing start depth with
  | zero => exact nofun
  | succ remaining inductionHypothesis =>
    intro unknown member
    rw [Shape.blankLevels, Group.unknowns, Sparql.groupAtoms, Sparql.groupAtoms, List.append_nil,
      Sparql.Element.atoms, Sparql.groupAtoms_append, Sparql.groupAtoms_append,
      Sparql.Atom.unknowns_append, Sparql.Atom.unknowns_append] at member
    have ofNode : ∀ unknown, (Sparql.Term.var (Shape.blankObject depth)).unknown? = some unknown →
        initial? unknown = some 'b' := by
      intro unknown named
      cases named
      exact (initial?_blank depth).2
    rcases List.mem_append.1 member with earlier | deeper
    · rcases List.mem_append.1 earlier with steps | filtered
      · obtain ⟨triple, found, within⟩ := mem_unknowns_triples steps
        rcases List.mem_append.1 found with inStart | last
        · exact ofStart triple inStart unknown within
        · rw [List.mem_singleton.1 last] at within
          exact initial?_blankStep ofNode within
      · rw [List.mem_singleton.1 filtered]
        exact (initial?_blank depth).2
    · exact inductionHypothesis (fun _ none => absurd none List.not_mem_nil) unknown deeper

theorem blankChain_solvable (about : lowering.About graph resource) (depth : Nat) :
    (∀ unknown ∈ (Shape.blankChain lowering.focus depth).pattern.unknowns,
        initial? unknown = some 'b') ∧
      (Shape.blankChain lowering.focus depth).pattern.Solvable engine graph := by
  constructor
  · refine initial?_blankLevels fun triple member unknown within => ?_
    rw [List.mem_singleton.1 member] at within
    refine initial?_blankStep (fun unknown named => ?_) within
    rw [about.focus] at named
    cases named
  · cases depth with
    | zero => exact Group.solvable_nil engine graph
    | succ remaining => exact Group.solvable_optional engine graph _

/-! ### Node shapes -/

/-- The pattern of a lowered node shape that was read from a graph has a solution exactly if its
focus, a node of the graph that is queried, conforms to the shape. -/
theorem nodeShape_solvable {shapes : Rdf.Graph} {name : Iri} {shape : NodeShape}
    (read : shapes.nodeShape name = .ok shape) {kind : ShapeKind} (selects : kind ≠ .search)
    (node : .iri resource ∈ graph.nodes) {fragment : Fragment}
    (lowered : Lowering.nodeShape ⟨kind, .iri resource, []⟩ shape = .ok fragment) :
    fragment.pattern.Solvable engine graph ↔ shape.Conforms graph resource := by
  have about : About graph resource ⟨kind, .iri resource, []⟩ := ⟨⟨selects, rfl⟩, rfl, node⟩
  unfold Lowering.nodeShape at lowered
  split at lowered
  · cases lowered
  · split at lowered
    · cases lowered
    · rename_i targeted
      obtain ⟨properties, propertiesLowered, total⟩ := bind_ok.1 lowered
      cases total
      have nonempty : shape.classes ≠ [] := fun none => targeted (List.isEmpty_iff.2 none)
      obtain ⟨classLetters, classes⟩ := targetClasses_solvable engine about nonempty
      obtain ⟨propertyLetters, satisfied⟩ := properties_solvable engine about
        (Rdf.Graph.regular_of_nodeShape read) propertiesLowered
      obtain ⟨blankLetters, chain⟩ :=
        blankChain_solvable engine about (shape.blankDepth.getD 0)
      have chainApart : (Group.Apart
          ((Lowering.targetClasses ⟨kind, .iri resource, []⟩ shape.classes).pattern ++
            properties.pattern)
          (Shape.blankChain (.iri resource) (shape.blankDepth.getD 0)).pattern) := by
        intro unknown member inChain
        rw [Group.unknowns_append] at member
        have letter := blankLetters unknown inChain
        rcases List.mem_append.1 member with inClasses | inProperties
        · rw [classLetters unknown inClasses] at letter
          cases letter
        · rw [propertyLetters unknown inProperties] at letter
          cases letter
      have whole := Group.solvable_append engine graph chainApart
      rw [Group.solvable_append engine graph
        (apart_of_initial (by decide) classLetters propertyLetters), classes, satisfied] at whole
      exact whole.trans (and_iff_left chain)

/-- A graph with the profile of the things that have a name. -/
def nameProfile : Rdf.Graph :=
  .ofList [
    ⟨.iri ⟨"http://example.org/shape"⟩, Vocabulary.shTargetClass,
      .iri ⟨"http://example.org/Thing"⟩⟩,
    ⟨.iri ⟨"http://example.org/shape"⟩, Vocabulary.shProperty, .blank "property"⟩,
    ⟨.blank "property", Vocabulary.shPath, .iri Vocabulary.schemaName⟩]

/-- The profile as it is read. -/
def nameShape : NodeShape :=
  { id := "<http://example.org/shape>", classes := [⟨"http://example.org/Thing"⟩],
    properties := [{
      id := "_:property", paths := [⟨.predicate Vocabulary.schemaName, none⟩], choices := [],
      classes := [], minCount := none, maxCount := none, filters := [] }],
    blankDepth := none, level := none }

/-- A thing with a name. -/
def typedThing : Rdf.Graph :=
  .ofList [
    ⟨.iri ⟨"http://example.org/thing"⟩, Vocabulary.rdfType, .iri ⟨"http://example.org/Thing"⟩⟩,
    ⟨.iri ⟨"http://example.org/thing"⟩, Vocabulary.schemaName, .literal (.plain "name")⟩]

theorem nameShape_conforms : nameShape.Conforms typedThing ⟨"http://example.org/thing"⟩ := by
  have typed : (.iri ⟨"http://example.org/thing"⟩, .iri ⟨"http://example.org/Thing"⟩) ∈
      typedThing.edges Vocabulary.rdfType := by decide
  have named : (.iri ⟨"http://example.org/thing"⟩, .literal (.plain "name")) ∈
      typedThing.edges Vocabulary.schemaName := by decide
  refine ⟨.inr ⟨_, List.mem_singleton_self _, typed⟩, List.forall_mem_singleton.2 ?_⟩
  refine PropertyShape.satisfied_of_reaches ?_
  rw [ShapePath.Reaches, if_neg (by decide)]
  exact ⟨_, named, .inl rfl⟩

/-- The thing conforms to the profile, and is found. -/
theorem nodeShape_solvable_name :
    nameProfile.nodeShape ⟨"http://example.org/shape"⟩ = .ok nameShape ∧
      ShapeKind.profile ≠ .search ∧
      .iri ⟨"http://example.org/thing"⟩ ∈ typedThing.nodes ∧
      nameShape.Conforms typedThing ⟨"http://example.org/thing"⟩ ∧
      ∃ fragment,
        Lowering.nodeShape ⟨.profile, .iri ⟨"http://example.org/thing"⟩, []⟩ nameShape =
          .ok fragment ∧
        fragment.pattern.Solvable Engine.plain typedThing := by
  have read : nameProfile.nodeShape ⟨"http://example.org/shape"⟩ = .ok nameShape := by
    with_unfolding_all rfl
  have selects : ShapeKind.profile ≠ .search := by decide
  have node : .iri ⟨"http://example.org/thing"⟩ ∈ typedThing.nodes := by decide
  have succeeds : (Lowering.nodeShape ⟨.profile, .iri ⟨"http://example.org/thing"⟩, []⟩
      nameShape).isOk = true := by decide +kernel
  obtain ⟨fragment, lowered⟩ := Success.exists_ok succeeds
  have found := (nodeShape_solvable Engine.plain read selects node lowered).2 nameShape_conforms
  exact ⟨read, selects, node, nameShape_conforms, fragment, lowered, found⟩

/-- A graph with the profile of what leads along any number of parts, and then along any number of
links. -/
def trailProfile : Rdf.Graph :=
  .ofList [
    ⟨.iri ⟨"http://example.org/shape"⟩, Vocabulary.shTargetClass, .iri Vocabulary.rdfsResource⟩,
    ⟨.iri ⟨"http://example.org/shape"⟩, Vocabulary.shProperty, .blank "property"⟩,
    ⟨.blank "property", Vocabulary.shPath, .blank "path"⟩,
    ⟨.blank "path", Vocabulary.rdfFirst, .blank "parts"⟩,
    ⟨.blank "path", Vocabulary.rdfRest, .blank "rest"⟩,
    ⟨.blank "rest", Vocabulary.rdfFirst, .blank "links"⟩,
    ⟨.blank "rest", Vocabulary.rdfRest, .iri Vocabulary.rdfNil⟩,
    ⟨.blank "parts", Vocabulary.shZeroOrMorePath, .iri ⟨"http://example.org/part"⟩⟩,
    ⟨.blank "links", Vocabulary.shZeroOrMorePath, .iri ⟨"http://example.org/link"⟩⟩]

/-- Any number of parts. -/
def anyParts : Path :=
  .zeroOrMore (.predicate ⟨"http://example.org/part"⟩)

/-- Any number of links. -/
def anyLinks : Path :=
  .zeroOrMore (.predicate ⟨"http://example.org/link"⟩)

/-- The profile as it is read. -/
def trailShape : NodeShape :=
  { id := "<http://example.org/shape>", classes := [Vocabulary.rdfsResource],
    properties := [{
      id := "_:property", paths := [⟨.sequence [anyParts, anyLinks], none⟩], choices := [],
      classes := [], minCount := none, maxCount := none, filters := [] }],
    blankDepth := none, level := none }

/-- A resource that is only a predicate of the graph conforms to the profile, since it leads to
itself, but is not found. -/
theorem nodeShape_unsolvable_predicate :
    trailProfile.nodeShape ⟨"http://example.org/shape"⟩ = .ok trailShape ∧
      (∃ triple ∈ typedThing.triples, triple.predicate = Vocabulary.schemaName) ∧
      trailShape.Conforms typedThing Vocabulary.schemaName ∧
      ∃ fragment,
        Lowering.nodeShape ⟨.profile, .iri Vocabulary.schemaName, []⟩ trailShape = .ok fragment ∧
        ¬ fragment.pattern.Solvable Engine.plain typedThing := by
  have read : trailProfile.nodeShape ⟨"http://example.org/shape"⟩ = .ok trailShape := by
    with_unfolding_all rfl
  have conforms : trailShape.Conforms typedThing Vocabulary.schemaName := by
    refine ⟨.inl rfl, List.forall_mem_singleton.2 (PropertyShape.satisfied_of_reaches ?_)⟩
    rw [ShapePath.Reaches, if_neg (by decide)]
    exact ⟨_, ⟨_, .refl, _, .refl, rfl⟩, .inl rfl⟩
  have lowered : Lowering.nodeShape ⟨.profile, .iri Vocabulary.schemaName, []⟩ trailShape =
      .ok (Path.walk (.iri Vocabulary.schemaName)
        [(anyParts, .var ((Slot.node 1).toVariable "prof_1")),
          (anyLinks, .var ((Slot.node 2).toVariable "prof_1"))]) := by
    with_unfolding_all rfl
  have outside : .iri Vocabulary.schemaName ∉ typedThing.nodes := by decide
  exact ⟨read, by decide, conforms, _, lowered,
    not_solvable_walk Engine.plain outside rfl rfl⟩

end Lowering

end ShapeQuery
