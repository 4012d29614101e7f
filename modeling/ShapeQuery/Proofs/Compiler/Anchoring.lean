/-
This file tells which requests select resources at all, in the sense that every solution of their
selection has one. The type of a resource is asked for only if a request restricts nothing, so that
a request with nothing but filter patterns, such as a span of time alone, selects no resource.
-/
import ShapeQuery.Proofs.Compiler.Scoping
import ShapeQuery.Proofs.Filter.Anchoring

namespace ShapeQuery

open Sparql (Engine Group Solution groupBinds groupBinds_append groupBinds_single)
open Success (bind_ok map_ok mapError_ok)

/-- Whether a request restricts its resources by something that they must have. -/
def Request.Anchors (compiler : Compiler) (request : Request) : Prop :=
  (∃ shape ∈ request.endpoint, shape.Anchors) ∨
  (∃ document ∈ request.filter, ∀ filter, Filter.Expression.ofJson document = .ok filter →
    filter.Anchors compiler.translator) ∨
  request.parameters.box ≠ []

namespace Compiler

variable {compiler : Compiler} {request : Request} {selection : Group}

theorem binds_typed : groupBinds Shape.focusNode [Listing.typed] :=
  Filter.binds_of_subject

theorem binds_ofEndpoint {shape : NodeShape} (read : shape.IsRead) (anchors : shape.Anchors)
    {group : Group} (lowered : ofEndpoint shape = .ok group) :
    groupBinds Shape.focusNode group := by
  obtain ⟨fragment, succeeds, rfl⟩ := ofEndpoint_ok lowered
  obtain ⟨graph, name, readFrom⟩ := read
  exact Lowering.binds_nodeShape Filter.names_focus (Rdf.Graph.regular_of_nodeShape readFrom)
    anchors succeeds

theorem binds_ofFilter (queryables : ∀ entry ∈ compiler.queryables, entry.2.IsRead)
    {document : Json} (anchors : ∀ filter, Filter.Expression.ofJson document = .ok filter →
      filter.Anchors compiler.translator) {group : Group}
    (lowered : compiler.ofFilter document = .ok group) : groupBinds Shape.focusNode group := by
  obtain ⟨filter, read, translated⟩ := ofFilter_ok lowered
  refine Filter.Translator.binds_translate (fun entry member => ?_) (anchors filter read) translated
  obtain ⟨graph, node, readFrom⟩ := queryables entry member
  exact Rdf.Graph.regular_of_propertyShape readFrom

theorem binds_ofBox (box : request.parameters.box ≠ []) {group : Group}
    (lowered : compiler.ofBox request.parameters = .ok group) :
    groupBinds Shape.focusNode group := by
  unfold ofBox at lowered
  rw [if_neg fun empty => box (List.isEmpty_iff.1 empty)] at lowered
  obtain ⟨geometry, -, related⟩ := bind_ok.1 (mapError_ok.1 lowered)
  exact Filter.SpatialFilter.binds_lower rfl related

/-- The selection of a request binds the focus if the request restricts nothing, or if one of its
restrictions asks for something that the focus must have. -/
theorem binds_resources (queryables : ∀ entry ∈ compiler.queryables, entry.2.IsRead)
    (endpoint : ∀ shape ∈ request.endpoint, shape.IsRead)
    (selected : compiler.selection request = .ok selection)
    (anchored : selection = [] ∨ request.Anchors compiler) :
    groupBinds Shape.focusNode (Listing.resources selection) := by
  obtain ⟨shaped, shapedLowered, further⟩ := bind_ok.1 selected
  obtain ⟨filtered, filteredLowered, further⟩ := bind_ok.1 further
  obtain ⟨placed, placedLowered, further⟩ := bind_ok.1 further
  obtain ⟨timed, timedLowered, total⟩ := bind_ok.1 further
  unfold Listing.resources
  split
  · exact binds_typed
  · rename_i restricted
    cases total
    refine groupBinds_append.2 (.inl ?_)
    rcases anchored.resolve_left fun empty => restricted (List.isEmpty_iff.2 empty) with
      ⟨shape, given, anchors⟩ | ⟨document, given, anchors⟩ | box
    · rw [Option.mem_def.1 given] at shapedLowered
      exact groupBinds_append.2 (.inl (groupBinds_append.2
        (.inl (binds_ofEndpoint (endpoint shape given) anchors shapedLowered))))
    · rw [Option.mem_def.1 given] at filteredLowered
      exact groupBinds_append.2 (.inl (groupBinds_append.2
        (.inr (binds_ofFilter queryables anchors filteredLowered))))
    · exact groupBinds_append.2 (.inr (binds_ofBox box placedLowered))

/-! ### Solutions -/

/-- Every solution of a selection has a resource, unless the request has nothing but restrictions
that ask for nothing the resource must have. -/
theorem selection_binds_focus {engine : Engine} (serves : engine.Serves) (graph : Rdf.Graph)
    (queryables : ∀ entry ∈ compiler.queryables, entry.2.IsRead)
    (endpoint : ∀ shape ∈ request.endpoint, shape.IsRead)
    (selected : compiler.selection request = .ok selection)
    (anchored : selection = [] ∨ request.Anchors compiler) :
    ∀ solution ∈ (Listing.resources selection).solutions engine graph,
      solution.Binds Shape.focusNode :=
  Group.binds_of_solution serves (binds_resources queryables endpoint selected anchored)

/-- An author called Ann. -/
def author : List Json :=
  [.string "http://example.org/author", .string "http://example.org/ann"]

/-- A request for what Ann is the author of. -/
def credited : Request :=
  ⟨none, some (.object [("op", .string "qualifiedAttribution"), ("args", .array author)]),
    Listing.Parameters.standard, none⟩

/-- A book that Ann is the author of. -/
def creditedBook : Rdf.Graph :=
  .ofList [
    ⟨.iri ⟨"http://example.org/book"⟩, Vocabulary.provQualifiedAttribution,
      .blank "attribution"⟩,
    ⟨.blank "attribution", Vocabulary.provHadRole, .iri ⟨"http://example.org/author"⟩⟩,
    ⟨.blank "attribution", Vocabulary.provAgent, .iri ⟨"http://example.org/ann"⟩⟩]

/-- The selection of the request. -/
def creditedSelection : Group :=
  [.ofTriple Listing.focus (.predicate Vocabulary.provQualifiedAttribution) (.var ⟨"qa_bn_var_1"⟩),
    .ofTriple (.var ⟨"qa_bn_var_1"⟩) (.predicate Vocabulary.provHadRole) (.var ⟨"role_var_1"⟩),
    .ofTriple (.var ⟨"qa_bn_var_1"⟩) (.predicate Vocabulary.provAgent) (.var ⟨"agent_var_1"⟩),
    .column ⟨"role_var_1"⟩ [.iri ⟨"http://example.org/author"⟩],
    .column ⟨"agent_var_1"⟩ [.iri ⟨"http://example.org/ann"⟩]]

/-- What the variables of the selection stand for. -/
def creditedValues : Sparql.Valuation
  | .var ⟨"focus_node"⟩ => .iri ⟨"http://example.org/book"⟩
  | .var ⟨"role_var_1"⟩ => .iri ⟨"http://example.org/author"⟩
  | .var ⟨"agent_var_1"⟩ => .iri ⟨"http://example.org/ann"⟩
  | _ => .blank "attribution"

/-- The book is found, and every solution has a resource. -/
theorem selection_binds_focus_credited :
    (ofConfiguration .standard).selection credited = .ok creditedSelection ∧
      credited.Anchors (ofConfiguration .standard) ∧
      (Listing.resources creditedSelection).Solvable Engine.plain creditedBook ∧
      ∀ solution ∈ (Listing.resources creditedSelection).solutions Engine.plain creditedBook,
        solution.Binds Shape.focusNode := by
  have selected : (ofConfiguration .standard).selection credited = .ok creditedSelection := by
    with_unfolding_all rfl
  have read : Filter.Expression.ofJson (.object [("op", .string "qualifiedAttribution"),
      ("args", .array author)]) = .ok (.leaf (.function "qualifiedAttribution" author)) := by
    with_unfolding_all rfl
  have anchors : credited.Anchors (ofConfiguration .standard) := by
    refine .inr (.inl ⟨_, rfl, fun filter again => ?_⟩)
    cases read.symm.trans again
    exact Filter.Leaf.anchors_function rfl _ author
  have positive : Sparql.AllPositive (Listing.resources creditedSelection) :=
    ⟨trivial, trivial, trivial, trivial, trivial, trivial⟩
  have listed {target : Sparql.Variable} {name : Iri}
      (same : creditedValues (.var target) = .iri name) :
      (Sparql.Element.column target [.iri name]).Met creditedBook creditedValues := by
    refine Sparql.met_column.2 ⟨_, List.mem_singleton_self _, fun term known => ?_⟩
    rw [same]
    exact Option.some.inj known
  have attributed : (creditedValues (.var Shape.focusNode),
      creditedValues (.var ⟨"qa_bn_var_1"⟩)) ∈
        creditedBook.edges Vocabulary.provQualifiedAttribution := by decide
  have role : (creditedValues (.var ⟨"qa_bn_var_1"⟩), creditedValues (.var ⟨"role_var_1"⟩)) ∈
      creditedBook.edges Vocabulary.provHadRole := by decide
  have agent : (creditedValues (.var ⟨"qa_bn_var_1"⟩), creditedValues (.var ⟨"agent_var_1"⟩)) ∈
      creditedBook.edges Vocabulary.provAgent := by decide
  have found : (Listing.resources creditedSelection).Solvable Engine.plain creditedBook :=
    (Group.solvable_iff_met Engine.plain positive).2
      ⟨creditedValues, attributed, role, agent, listed rfl, listed rfl, trivial⟩
  exact ⟨selected, anchors, found, selection_binds_focus Engine.plain_serves creditedBook
    (fun _ member => absurd member List.not_mem_nil) (fun _ member => by cases member) selected
    (.inr anchors)⟩

/-- A span of time by itself selects no resource. -/
theorem unbound_of_time {text : String} (unshaped : request.endpoint = none)
    (unfiltered : request.filter = none) (everywhere : request.parameters.box = [])
    (given : request.parameters.datetime = some text)
    (selected : compiler.selection request = .ok selection) (engine : Engine) (graph : Rdf.Graph) :
    ∀ solution ∈ (Listing.resources selection).solutions engine graph,
      ¬ solution.Binds Shape.focusNode := by
  obtain ⟨shaped, shapedLowered, further⟩ := bind_ok.1 selected
  obtain ⟨filtered, filteredLowered, further⟩ := bind_ok.1 further
  obtain ⟨placed, placedLowered, further⟩ := bind_ok.1 further
  obtain ⟨timed, timedLowered, total⟩ := bind_ok.1 further
  rw [unshaped] at shapedLowered
  rw [unfiltered] at filteredLowered
  rw [ofBox, everywhere] at placedLowered
  rw [given] at timedLowered
  obtain ⟨span, -, made⟩ := bind_ok.1 timedLowered
  cases shapedLowered
  cases filteredLowered
  cases placedLowered
  cases made
  cases total
  intro solution member
  have filters : Listing.resources
      ([] ++ [] ++ [] ++ span.lower compiler.configuration.temporalPredicate Listing.focus) =
      [Sparql.Expression.exists _].map .filter := rfl
  rw [filters] at member
  rw [Group.eq_empty_of_filters solution member]
  exact Solution.not_binds_empty _

/-- The moment of a resource is in the span of a request, which selects no resource all the same. -/
theorem unbound_of_time_thing :
    ∃ (selection : Group) (solution : Solution),
      (ofConfiguration .standard).selection ⟨none, none,
        { Listing.Parameters.standard with datetime := some "2020-01-01T00:00:00Z" }, none⟩ =
          .ok selection ∧
      solution ∈ (Listing.resources selection).solutions Engine.plain
        (.ofList [⟨.iri ⟨"http://example.org/thing"⟩, Vocabulary.schemaTemporal,
          .literal (.typed "2020-01-01T00:00:00Z" Vocabulary.xsdDateTime)⟩]) ∧
      ¬ solution.Binds Shape.focusNode := by
  have selected : (ofConfiguration .standard).selection ⟨none, none,
      { Listing.Parameters.standard with datetime := some "2020-01-01T00:00:00Z" }, none⟩ =
        .ok ((Listing.TimeSpan.instant (.typed "2020-01-01T00:00:00Z"
          Vocabulary.xsdDateTime)).lower Vocabulary.schemaTemporal Listing.focus) := by
    rfl
  have edge : (Rdf.Term.iri ⟨"http://example.org/thing"⟩,
      Rdf.Term.literal (.typed "2020-01-01T00:00:00Z" Vocabulary.xsdDateTime)) ∈
        (Rdf.Graph.ofList [⟨.iri ⟨"http://example.org/thing"⟩, Vocabulary.schemaTemporal,
          .literal (.typed "2020-01-01T00:00:00Z" Vocabulary.xsdDateTime)⟩]).edges
            Vocabulary.schemaTemporal := by
    decide
  obtain ⟨inside, member, -, moment⟩ := Group.exists_solution_of_edge Engine.plain edge
    (by decide : Listing.TimeSpan.datetime ≠ Shape.focusNode)
  have condition (graph : Rdf.Graph) : Engine.plain.truth? (Sparql.Expression.value Engine.plain
      graph [] inside (.compare (.var Listing.TimeSpan.datetime) .equal (.literal
        (.typed "2020-01-01T00:00:00Z" Vocabulary.xsdDateTime)))) = some true := by
    simp [Sparql.Expression.value, moment, Engine.plain, Engine.truth?]
  obtain ⟨solution, found⟩ := (Group.solvable_exists Engine.plain _ _).2
    ((Group.solvable_append_filter Engine.plain _).2 ⟨inside, member, condition _⟩)
  exact ⟨_, solution, selected, found, unbound_of_time rfl rfl rfl rfl selected _ _ _ found⟩

end Compiler

end ShapeQuery
