/-
This file proves that queries construct what they have found. The triples that the query of a
resource or of a filter makes are triples of the graph, or are suggested by a path of the graph: an
alternative shows each of its members and a repetition what it repeats. Excepted are the triples of
a part that need not match, where they name too little to tell whether it did.
-/
import ShapeQuery.Proofs.Compiler.Scoping
import ShapeQuery.Proofs.Filter.Vouching

namespace ShapeQuery

open Sparql (Engine Query Valuation AllMet AllPositive groupTemplateTriples)
open Success (bind_ok mapError_ok)

namespace Compiler

/-- Every triple that the query of a resource constructs is supported by the graph, except for a
triple without variables that stands in an optional pattern. -/
theorem supported_object (engine : Engine) (graph : Rdf.Graph) {profile : NodeShape} {focus : Iri}
    {query : Query} (read : profile.IsRead)
    (literal : ∀ property ∈ profile.properties, property.Literal)
    (made : object profile focus = .ok query) :
    query.Supported engine graph profile.Matches fun shown =>
      ∃ inner, .optional inner ∈ query.pattern ∧ shown ∈ groupTemplateTriples inner ∧
        shown.names = [] := by
  obtain ⟨shapes, name, readFrom⟩ := read
  obtain ⟨fragment, lowered, total⟩ := bind_ok.1 made
  cases total
  have filled : ∀ property ∈ profile.properties, property.Filled := by
    intro property member
    obtain ⟨node, propertyRead⟩ := Rdf.Graph.propertyShape_of_nodeShape readFrom property member
    exact Rdf.Graph.filled_of_propertyShape propertyRead
  have plain : Lowering.Plain ⟨.profile, .iri focus, []⟩ := ⟨nofun, rfl⟩
  exact Query.supported_of_upholds engine fun shown member =>
    Lowering.upheld_nodeShape plain rfl rfl (Rdf.Graph.regular_of_nodeShape readFrom) filled
      (fun _ matched => matched) (fun _ => literal) (mapError_ok.1 lowered)
      (.inr ⟨trivial, List.mem_eraseDups.1 member⟩)

/-- Every triple that the query of a filter constructs is supported by the graph, unless it is
exposed. -/
theorem supported_filter (engine : Engine) (graph : Rdf.Graph) {compiler : Compiler}
    {document : Json} {query : Query} (read : compiler.IsRead)
    (made : compiler.filter document = .ok query) :
    query.Supported engine graph compiler.translator.Matches
      (query.pattern.Exposes [Shape.focusNode]) := by
  obtain ⟨filter, -, translated⟩ := bind_ok.1 (mapError_ok.1 made)
  exact Filter.Translator.supported_query engine graph (followable_translator read) translated

/-- What queries construct is supported by the graph: each triple that the query of a resource or of
a filter makes of a solution is a triple of the graph or suggested by a path that is matched there,
unless its part of the pattern may be left out and it names too little to tell. -/
theorem constructed_supported (engine : Engine) (graph : Rdf.Graph) :
    (∀ {profile : NodeShape} {focus : Iri} {query : Query}, profile.IsRead →
      (∀ property ∈ profile.properties, property.Literal) → object profile focus = .ok query →
        query.Supported engine graph profile.Matches fun shown =>
          ∃ inner, .optional inner ∈ query.pattern ∧ shown ∈ groupTemplateTriples inner ∧
            shown.names = []) ∧
    ∀ {compiler : Compiler} {document : Json} {query : Query}, compiler.IsRead →
      compiler.filter document = .ok query →
        query.Supported engine graph compiler.translator.Matches
          (query.pattern.Exposes [Shape.focusNode]) :=
  ⟨supported_object engine graph, supported_filter engine graph⟩

/-- A shape for what is reached by any number of titles and then a name. -/
def titledShapes : Rdf.Graph := .ofList [
  ⟨.iri ⟨"http://example.org/shape"⟩, Vocabulary.shTargetClass, .iri Vocabulary.rdfsResource⟩,
  ⟨.iri ⟨"http://example.org/shape"⟩, Vocabulary.shProperty, .blank "property"⟩,
  ⟨.blank "property", Vocabulary.shPath, .blank "steps"⟩,
  ⟨.blank "steps", Vocabulary.rdfFirst, .blank "titles"⟩,
  ⟨.blank "steps", Vocabulary.rdfRest, .blank "last"⟩,
  ⟨.blank "last", Vocabulary.rdfFirst, .iri Vocabulary.schemaName⟩,
  ⟨.blank "last", Vocabulary.rdfRest, .iri Vocabulary.rdfNil⟩,
  ⟨.blank "titles", Vocabulary.shZeroOrMorePath, .iri Vocabulary.dctermsTitle⟩]

/-- The profile of that shape. -/
def titledProfile : NodeShape :=
  ⟨"<http://example.org/shape>", [Vocabulary.rdfsResource],
    [⟨"_:property", [⟨.sequence [.zeroOrMore (.predicate Vocabulary.dctermsTitle),
      .predicate Vocabulary.schemaName], none⟩], [], [], none, none, []⟩], none, none⟩

theorem titledProfile_isRead : titledProfile.IsRead :=
  ⟨titledShapes, ⟨"http://example.org/shape"⟩, by with_unfolding_all rfl⟩

theorem titledProfile_literal : ∀ property ∈ titledProfile.properties, property.Literal :=
  List.forall_mem_singleton.2 (List.forall_mem_singleton.2 rfl)

/-- A thing with a name and without titles. -/
def namedThing : Rdf.Graph :=
  .ofList [⟨.iri ⟨"http://example.org/thing"⟩, Vocabulary.schemaName, .literal (.plain "name")⟩]

/-- The query of that thing. -/
def titledQuery : Query where
  template := [
    ⟨.iri ⟨"http://example.org/thing"⟩, .iri Vocabulary.dctermsTitle, .var ⟨"prof_1_node_1"⟩⟩,
    ⟨.var ⟨"prof_1_node_1"⟩, .iri Vocabulary.schemaName, .var ⟨"prof_1_node_2"⟩⟩]
  pattern := [
    .ofTriple (.iri ⟨"http://example.org/thing"⟩)
      (.path (.zeroOrMore (.predicate Vocabulary.dctermsTitle))) (.var ⟨"prof_1_node_1"⟩),
    .ofTriple (.var ⟨"prof_1_node_1"⟩) (.predicate Vocabulary.schemaName) (.var ⟨"prof_1_node_2"⟩)]
  modifier := .empty

theorem object_titledProfile :
    object titledProfile ⟨"http://example.org/thing"⟩ = .ok titledQuery := by
  with_unfolding_all rfl

/-- What is constructed for a profile and for a filter by name. -/
theorem constructed_supported_titled :
    titledProfile.IsRead ∧ (∀ property ∈ titledProfile.properties, property.Literal) ∧
    object titledProfile ⟨"http://example.org/thing"⟩ = .ok titledQuery ∧
    (titledQuery.Supported Engine.plain namedThing titledProfile.Matches fun shown =>
      ∃ inner, .optional inner ∈ titledQuery.pattern ∧ shown ∈ groupTemplateTriples inner ∧
        shown.names = []) ∧
    (ofConfiguration .standard).IsRead ∧
    ∃ query, (ofConfiguration .standard).filter (.object [("op", .string "="),
        ("args", .array [.object [("property", .string "https://schema.org/name")],
          .string "name"])]) = .ok query ∧
      query.Supported Engine.plain namedThing (ofConfiguration .standard).translator.Matches
        (query.pattern.Exposes [Shape.focusNode]) := by
  have standard : (ofConfiguration .standard).IsRead :=
    ⟨rfl, fun _ member => absurd member List.not_mem_nil⟩
  have succeeds : ((ofConfiguration .standard).filter (.object [("op", .string "="),
      ("args", .array [.object [("property", .string "https://schema.org/name")],
        .string "name"])])).isOk = true := by decide +kernel
  obtain ⟨query, made⟩ := Success.exists_ok succeeds
  have constructed := constructed_supported Engine.plain namedThing
  exact ⟨titledProfile_isRead, titledProfile_literal, object_titledProfile,
    constructed.1 titledProfile_isRead titledProfile_literal object_titledProfile, standard, query,
    made, constructed.2 standard made⟩

/-- A step that is repeated is shown even where it is not made: a thing without titles is constructed
as its own title. -/
theorem unfound_title : titledProfile.IsRead ∧
    (∀ property ∈ titledProfile.properties, property.Literal) ∧
    object titledProfile ⟨"http://example.org/thing"⟩ = .ok titledQuery ∧
    ∃ solution ∈ titledQuery.pattern.solutions Engine.plain namedThing,
      ∃ shown ∈ titledQuery.template, ∃ made, shown.instance? solution = some made ∧
        made ∉ namedThing.triples := by
  refine ⟨titledProfile_isRead, titledProfile_literal, object_titledProfile, ?_⟩
  let valuation : Valuation := Function.update (fun _ => .iri ⟨"http://example.org/thing"⟩)
    (.var ⟨"prof_1_node_2"⟩) (.literal (.plain "name"))
  have start : valuation (.var ⟨"prof_1_node_1"⟩) = .iri ⟨"http://example.org/thing"⟩ :=
    Function.update_of_ne (by decide) _ _
  have finish : valuation (.var ⟨"prof_1_node_2"⟩) = .literal (.plain "name") :=
    Function.update_self _ _ _
  have node : .iri ⟨"http://example.org/thing"⟩ ∈ namedThing.nodes := by decide
  have named : (valuation (.var ⟨"prof_1_node_1"⟩), valuation (.var ⟨"prof_1_node_2"⟩)) ∈
      namedThing.edges Vocabulary.schemaName := by
    rw [start, finish]
    decide
  have met : AllMet namedThing valuation titledQuery.pattern :=
    ⟨(Sparql.Path.mem_pairs node).2 (start ▸ .refl), named, trivial⟩
  have positive : AllPositive titledQuery.pattern := ⟨trivial, trivial, trivial⟩
  obtain ⟨solution, member, fits⟩ := Sparql.Group.exists_solution Engine.plain positive met
  have binds : Sparql.groupBinds ⟨"prof_1_node_1"⟩ titledQuery.pattern :=
    Or.inl (List.mem_append_right _ List.mem_cons_self)
  obtain ⟨value, known⟩ :=
    Sparql.Group.binds_of_solution Engine.plain_serves binds solution member
  have same : value = .iri ⟨"http://example.org/thing"⟩ := (fits _ _ known).symm.trans start
  refine ⟨solution, member, _, List.mem_cons_self,
    ⟨.iri ⟨"http://example.org/thing"⟩, Vocabulary.dctermsTitle,
      .iri ⟨"http://example.org/thing"⟩⟩, ?_, by decide⟩
  simp [Sparql.TemplateTriple.instance?, Sparql.Term.shown, Sparql.Term.value, known, same,
    Rdf.Term.node?]

end Compiler

end ShapeQuery
