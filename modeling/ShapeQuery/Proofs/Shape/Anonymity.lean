/-
This file proves that lowering does not depend on the labels of blank nodes, nor on the order of the
triples, where these decide nothing that the shape leaves open. Two graphs that differ in them
describe the same shape but for the names of its property shapes, and lowering writes those names
into its errors only. Several properties of one condition, however, are read in the order of the
graph.
-/
import Mathlib.Data.Set.Operations
import ShapeQuery.Proofs.Shape.Relabelling
import ShapeQuery.Shape.Lowering

namespace ShapeQuery

open Success (bind_ok mapError_bind mapError_mapM)

/-! ### Names in errors -/

namespace Shape.Error

/-- An error without the nodes that it names. -/
def unnamed : Error → Error
  | .missingPath _ => .missingPath ""
  | .missingTargetClass _ => .missingTargetClass ""
  | .missingHierarchyLevel _ => .missingHierarchyLevel ""
  | .malformedCollection _ fault => .malformedCollection (.blank "") fault
  | .unsupportedPath _ fault => .unsupportedPath "" fault
  | .ambiguousClass _ fault => .ambiguousClass "" fault
  | .invalidValue _ predicate _ => .invalidValue (.blank "") predicate (.blank "")
  | .missingFilterValue _ => .missingFilterValue (.blank "")
  | .notFound _ => .notFound ""
  | .syntaxFault => .syntaxFault

end Shape.Error

theorem PropertyShape.eq_of_content {first second : PropertyShape}
    (same : first.content = second.content) : second = { first with id := second.id } := by
  cases first
  cases second
  simpa [content, eq_comm] using same

namespace Lowering

variable (lowering : Lowering)

open Shape.Error (unnamed)

theorem exclusion_unnamed (scope : Shape.Scope) (shape : PropertyShape) (id : String) :
    (lowering.exclusion scope { shape with id }).mapError unnamed =
      (lowering.exclusion scope shape).mapError unnamed := by
  unfold exclusion
  rw [mapError_bind, mapError_bind, mapError_mapM, mapError_mapM]
  congr 2
  funext path
  cases path.path.predicate? <;> rfl

theorem property_unnamed (scope : Shape.Scope) {first second : PropertyShape}
    (same : first.content = second.content) :
    (lowering.property scope second).mapError unnamed =
      (lowering.property scope first).mapError unnamed := by
  rw [PropertyShape.eq_of_content same]
  unfold property
  split
  · exact lowering.exclusion_unnamed scope first second.id
  · rfl

theorem properties_unnamed {shapes others : List PropertyShape}
    (same : others.map PropertyShape.content = shapes.map PropertyShape.content) (index : Nat)
    (shared : Shape.Scope) :
    (lowering.properties index shared others).mapError unnamed =
      (lowering.properties index shared shapes).mapError unnamed := by
  induction shapes generalizing others index shared with
  | nil =>
    rw [List.map_eq_nil_iff.1 same]
  | cons shape rest inductionHypothesis =>
    obtain ⟨other, later, rfl, sameFirst, sameRest⟩ := List.map_eq_cons_iff.1 same
    simp only [properties, mapError_bind, lowering.property_unnamed _ sameFirst.symm,
      inductionHypothesis sameRest]

/-- The names of property shapes do not matter to what a node shape is lowered to. -/
theorem nodeShape_unnamed (shape : NodeShape) {properties : List PropertyShape}
    (same : properties.map PropertyShape.content = shape.properties.map PropertyShape.content) :
    (lowering.nodeShape { shape with properties }).mapError unnamed =
      (lowering.nodeShape shape).mapError unnamed := by
  unfold nodeShape
  split
  · rfl
  · split
    · rfl
    · simp only [mapError_bind, lowering.properties_unnamed same]

end Lowering

namespace Rdf

/-! ### Labels -/

/-- The label of a blank node. -/
def Term.label? : Term → Option String
  | .blank label => some label
  | _ => none

/-- The labels of the blank nodes of a triple. -/
def Triple.labels (triple : Triple) : List String :=
  [triple.subject.term, triple.object].filterMap Term.label?

/-- The labels of the blank nodes of a graph. -/
def Graph.labels (graph : Graph) : List String :=
  graph.triples.flatMap Triple.labels

theorem Triple.relabelled_congr {rename other : String → String} {triple : Triple}
    (alike : ∀ label ∈ triple.labels, rename label = other label) :
    triple.relabelled rename = triple.relabelled other := by
  obtain ⟨subject, predicate, object⟩ := triple
  cases subject <;> cases object <;>
    simp_all [relabelled, labels, Node.relabelled, Term.relabelled, Node.term, Term.label?]

/-- A renaming of some labels. Any other label gets a longer text, behind all the new labels. -/
def extended (rename : String → String) (labels : List String) (label : String) : String :=
  if label ∈ labels then rename label
  else String.ofList (labels.flatMap fun label => (rename label).toList) ++ "b" ++ label

theorem extended_of_mem {rename : String → String} {labels : List String} {label : String}
    (member : label ∈ labels) : extended rename labels label = rename label :=
  if_pos member

theorem length_lt_extended {rename : String → String} {labels : List String} {first second : String}
    (inside : first ∈ labels) (outside : second ∉ labels) :
    (rename first).length < (extended rename labels second).length := by
  have part : (rename first).toList.Sublist
      (labels.flatMap fun label => (rename label).toList) := by
    rw [List.flatMap_def]
    exact List.sublist_flatten_of_mem (List.mem_map_of_mem inside)
  have shorter := part.length_le
  rw [extended, if_neg outside, String.length_append, String.length_append, String.length_ofList]
  rw [String.length_toList] at shorter
  have : "b".length = 1 := rfl
  omega

theorem extended_injective {rename : String → String} {labels : List String}
    (injective : Set.InjOn rename {label | label ∈ labels}) :
    Function.Injective (extended rename labels) := by
  have apart {first second : String} (inside : first ∈ labels) (outside : second ∉ labels) :
      extended rename labels first ≠ extended rename labels second := by
    rw [extended_of_mem inside]
    exact fun same => Nat.ne_of_lt (length_lt_extended inside outside) (congrArg String.length same)
  intro first second same
  by_cases inFirst : first ∈ labels <;> by_cases inSecond : second ∈ labels
  · rw [extended_of_mem inFirst, extended_of_mem inSecond] at same
    exact injective inFirst inSecond same
  · exact absurd same (apart inFirst inSecond)
  · exact absurd same.symm (apart inSecond inFirst)
  · rw [extended, extended, if_neg inFirst, if_neg inSecond] at same
    exact String.append_right_inj _ |>.1 same

namespace Graph

/-- What relabels a graph may rename other labels than its own at will. -/
theorem relabels_of_injOn {graph other : Graph} {rename : String → String}
    (injective : Set.InjOn rename {label | label ∈ graph.labels})
    (triples : other.triples.Perm (graph.triples.map (Triple.relabelled rename))) :
    Relabels (extended rename graph.labels) graph other := by
  refine ⟨extended_injective injective, triples.trans (.of_eq (List.map_congr_left ?_))⟩
  intro triple member
  refine Triple.relabelled_congr fun label among => (extended_of_mem ?_).symm
  exact List.mem_flatMap.2 ⟨triple, member, among⟩

/-! ### Shapes without an order -/

/-- Whether the order of the triples decides nothing about a shape. -/
structure Orderless (graph : Graph) (name : Iri) : Prop where
  /-- What is looked up as one value has one at most. -/
  functional : ∀ predicate ∈ singleValued, graph.Functional predicate
  /-- Every property shape has one union and one filter shape at most. -/
  properties : ∀ property ∈ nodesOf (graph.objects (.iri name) Vocabulary.shProperty),
    graph.Definite property
  /-- No property of a filter shape has several properties of its own. -/
  undivided : ∀ property ∈ nodesOf (graph.objects (.iri name) Vocabulary.shProperty),
    graph.Undivided property

instance (graph : Graph) (name : Iri) : Decidable (graph.Orderless name) :=
  decidable_of_iff (_ ∧ _ ∧ _)
    ⟨fun ⟨functional, properties, undivided⟩ => ⟨functional, properties, undivided⟩,
      fun orderless => ⟨orderless.functional, orderless.properties, orderless.undivided⟩⟩

/-- A shape that is read from a graph is read from the graph with other labels and its triples in
another order, and lowered to the same pattern and template, or not lowered for the same reason. -/
theorem nodeShape_relabelled {graph other : Graph} {rename : String → String} {name : Iri}
    (orderless : graph.Orderless name)
    (injective : Set.InjOn rename {label | label ∈ graph.labels})
    (triples : other.triples.Perm (graph.triples.map (Triple.relabelled rename)))
    {shape : NodeShape} (read : graph.nodeShape name = .ok shape) :
    ∃ again, other.nodeShape name = .ok again ∧ ∀ lowering : Lowering,
      (lowering.nodeShape again).mapError Shape.Error.unnamed =
        (lowering.nodeShape shape).mapError Shape.Error.unnamed := by
  have definite : ∀ property ∈ nodesOf (graph.objects (.iri name) Vocabulary.shProperty),
      graph.Definite property ∧ graph.Undivided property := fun property member =>
    ⟨orderless.properties property member, orderless.undivided property member⟩
  obtain ⟨properties, againRead, same⟩ := (relabels_of_injOn injective triples).nodeShape
    orderless.functional definite read
  exact ⟨_, againRead, fun lowering => lowering.nodeShape_unnamed shape same⟩

/-- The shape of the wholes of something, if their name is known. -/
def knownWholes : Graph :=
  .ofList [
    ⟨.iri ⟨"http://example.org/shape"⟩, Vocabulary.shTargetClass,
      .iri ⟨"http://example.org/Thing"⟩⟩,
    ⟨.iri ⟨"http://example.org/shape"⟩, Vocabulary.shProperty, .blank "property"⟩,
    ⟨.blank "property", Vocabulary.shPath, .blank "path"⟩,
    ⟨.blank "path", Vocabulary.shInversePath, .iri ⟨"http://example.org/part"⟩⟩,
    ⟨.blank "property", Vocabulary.shFilterShape, .blank "filter"⟩,
    ⟨.blank "filter", Vocabulary.shProperty, .blank "condition"⟩,
    ⟨.blank "condition", Vocabulary.shPath, .iri Vocabulary.schemaName⟩,
    ⟨.blank "condition", Vocabulary.shHasValue, .literal (.plain "whole")⟩]

/-- The same shape, where two of the blank nodes have each other's label. -/
def exchangedWholes : Graph :=
  .ofList [
    ⟨.blank "property", Vocabulary.shHasValue, .literal (.plain "whole")⟩,
    ⟨.blank "property", Vocabulary.shPath, .iri Vocabulary.schemaName⟩,
    ⟨.blank "filter", Vocabulary.shProperty, .blank "property"⟩,
    ⟨.blank "condition", Vocabulary.shFilterShape, .blank "filter"⟩,
    ⟨.blank "condition", Vocabulary.shPath, .blank "path"⟩,
    ⟨.blank "path", Vocabulary.shInversePath, .iri ⟨"http://example.org/part"⟩⟩,
    ⟨.iri ⟨"http://example.org/shape"⟩, Vocabulary.shProperty, .blank "condition"⟩,
    ⟨.iri ⟨"http://example.org/shape"⟩, Vocabulary.shTargetClass,
      .iri ⟨"http://example.org/Thing"⟩⟩]

/-- Exchanges two labels. -/
def exchanged (first second label : String) : String :=
  if label = first then second else if label = second then first else label

theorem nodeShape_relabelled_exchanged :
    knownWholes.Orderless ⟨"http://example.org/shape"⟩ ∧
      Set.InjOn (exchanged "property" "condition") {label | label ∈ knownWholes.labels} ∧
      exchangedWholes.triples.Perm
        (knownWholes.triples.map (Triple.relabelled (exchanged "property" "condition"))) ∧
      ∃ shape, knownWholes.nodeShape ⟨"http://example.org/shape"⟩ = .ok shape ∧
        ∃ again, exchangedWholes.nodeShape ⟨"http://example.org/shape"⟩ = .ok again ∧
          ∀ lowering : Lowering,
            (lowering.nodeShape again).mapError Shape.Error.unnamed =
              (lowering.nodeShape shape).mapError Shape.Error.unnamed := by
  have orderless : knownWholes.Orderless ⟨"http://example.org/shape"⟩ := by decide +kernel
  have injective : ∀ first ∈ knownWholes.labels, ∀ second ∈ knownWholes.labels,
      exchanged "property" "condition" first = exchanged "property" "condition" second →
        first = second := by decide +kernel
  have triples : exchangedWholes.triples.Perm
      (knownWholes.triples.map (Triple.relabelled (exchanged "property" "condition"))) := by
    decide +kernel
  have succeeds : (knownWholes.nodeShape ⟨"http://example.org/shape"⟩).isOk = true := by
    decide +kernel
  obtain ⟨shape, read⟩ := Success.exists_ok succeeds
  exact ⟨orderless, injective, triples, shape, read,
    nodeShape_relabelled orderless injective triples read⟩

theorem exists_template {graph : Graph} {name : Iri} {lowering : Lowering}
    {template : List Sparql.TemplateTriple}
    (computed : (do return (← lowering.nodeShape (← graph.nodeShape name)).template) =
      Except.ok template) :
    ∃ shape, graph.nodeShape name = .ok shape ∧
      ∃ fragment, lowering.nodeShape shape = .ok fragment ∧ fragment.template = template := by
  obtain ⟨shape, read, further⟩ := bind_ok.1 computed
  obtain ⟨fragment, lowered, made⟩ := bind_ok.1 further
  exact ⟨shape, read, fragment, lowered, Except.ok.inj made⟩

/-- The shape of something with one of two names and one of two titles. The condition on it has a
property for the names and one for the titles, on nodes with the given labels. -/
def knownNames (names titles : String) : Graph :=
  .ofList [
    ⟨.iri ⟨"http://example.org/shape"⟩, Vocabulary.shTargetClass,
      .iri ⟨"http://example.org/Thing"⟩⟩,
    ⟨.iri ⟨"http://example.org/shape"⟩, Vocabulary.shProperty, .blank "property"⟩,
    ⟨.blank "property", Vocabulary.shPath, .iri ⟨"http://example.org/part"⟩⟩,
    ⟨.blank "property", Vocabulary.shFilterShape, .blank "filter"⟩,
    ⟨.blank "filter", Vocabulary.shProperty, .blank "condition"⟩,
    ⟨.blank "condition", Vocabulary.shProperty, .blank "second"⟩,
    ⟨.blank "condition", Vocabulary.shProperty, .blank "first"⟩,
    ⟨.blank names, Vocabulary.shPath, .iri Vocabulary.schemaName⟩,
    ⟨.blank names, Vocabulary.shIn, .blank "name"⟩,
    ⟨.blank "name", Vocabulary.rdfFirst, .literal (.plain "whole")⟩,
    ⟨.blank "name", Vocabulary.rdfRest, .blank "names"⟩,
    ⟨.blank "names", Vocabulary.rdfFirst, .literal (.plain "sum")⟩,
    ⟨.blank "names", Vocabulary.rdfRest, .iri Vocabulary.rdfNil⟩,
    ⟨.blank titles, Vocabulary.shPath, .iri Vocabulary.dctermsTitle⟩,
    ⟨.blank titles, Vocabulary.shIn, .blank "title"⟩,
    ⟨.blank "title", Vocabulary.rdfFirst, .literal (.plain "Dr")⟩,
    ⟨.blank "title", Vocabulary.rdfRest, .blank "titles"⟩,
    ⟨.blank "titles", Vocabulary.rdfFirst, .literal (.plain "Prof")⟩,
    ⟨.blank "titles", Vocabulary.rdfRest, .iri Vocabulary.rdfNil⟩]

/-- The template of that shape, where the properties are read in some order. -/
def knownTemplate (first second : Iri) : List Sparql.TemplateTriple :=
  [⟨.iri ⟨"http://example.org/thing"⟩, .iri Vocabulary.rdfType,
      .iri ⟨"http://example.org/Thing"⟩⟩,
    ⟨.iri ⟨"http://example.org/thing"⟩, .iri ⟨"http://example.org/part"⟩, .var ⟨"prof_1_node_1"⟩⟩,
    ⟨.iri ⟨"http://example.org/thing"⟩, .iri first, .var ⟨"prof_1_filter_1"⟩⟩,
    ⟨.iri ⟨"http://example.org/thing"⟩, .iri second, .var ⟨"prof_1_filter_2"⟩⟩]

/-- Where a condition has two properties, their labels decide which of them is numbered first. -/
theorem nodeShape_relabelled_divided :
    (∀ predicate ∈ singleValued, (knownNames "first" "second").Functional predicate) ∧
      (∀ property ∈ nodesOf ((knownNames "first" "second").objects
          (.iri ⟨"http://example.org/shape"⟩) Vocabulary.shProperty),
        (knownNames "first" "second").Definite property) ∧
      Set.InjOn (exchanged "first" "second")
        {label | label ∈ (knownNames "first" "second").labels} ∧
      (knownNames "second" "first").triples.Perm ((knownNames "first" "second").triples.map
        (Triple.relabelled (exchanged "first" "second"))) ∧
      ∃ shape, (knownNames "first" "second").nodeShape ⟨"http://example.org/shape"⟩ = .ok shape ∧
        ∃ again, (knownNames "second" "first").nodeShape ⟨"http://example.org/shape"⟩ = .ok again ∧
          ∃ first second,
            Lowering.nodeShape ⟨.profile, .iri ⟨"http://example.org/thing"⟩, []⟩ shape =
              .ok first ∧
            Lowering.nodeShape ⟨.profile, .iri ⟨"http://example.org/thing"⟩, []⟩ again =
              .ok second ∧
            first.template ≠ second.template := by
  have functional : ∀ predicate ∈ singleValued,
      (knownNames "first" "second").Functional predicate := by decide +kernel
  have definite : ∀ property ∈ nodesOf ((knownNames "first" "second").objects
      (.iri ⟨"http://example.org/shape"⟩) Vocabulary.shProperty),
      (knownNames "first" "second").Definite property := by decide +kernel
  have injective : ∀ first ∈ (knownNames "first" "second").labels,
      ∀ second ∈ (knownNames "first" "second").labels,
        exchanged "first" "second" first = exchanged "first" "second" second →
          first = second := by decide +kernel
  have triples : (knownNames "second" "first").triples.Perm
      ((knownNames "first" "second").triples.map
        (Triple.relabelled (exchanged "first" "second"))) := by decide +kernel
  obtain ⟨shape, read, first, lowered, firstTemplate⟩ :=
    @exists_template (knownNames "first" "second") ⟨"http://example.org/shape"⟩
      ⟨.profile, .iri ⟨"http://example.org/thing"⟩, []⟩
      (knownTemplate Vocabulary.schemaName Vocabulary.dctermsTitle) (by with_unfolding_all rfl)
  obtain ⟨again, readAgain, second, loweredAgain, secondTemplate⟩ :=
    @exists_template (knownNames "second" "first") ⟨"http://example.org/shape"⟩
      ⟨.profile, .iri ⟨"http://example.org/thing"⟩, []⟩
      (knownTemplate Vocabulary.dctermsTitle Vocabulary.schemaName) (by with_unfolding_all rfl)
  have different : first.template ≠ second.template := by
    rw [firstTemplate, secondTemplate]
    decide
  exact ⟨functional, definite, injective, triples, shape, read, again, readAgain, first, second,
    lowered, loweredAgain, different⟩

end Graph

end Rdf

end ShapeQuery
