/-
This file proves that all queries keep to the rules of scopes: no value is bound to a variable that
is already in scope, templates show variables of the pattern only, and selections order and group by
what they project. The shapes have to be read from graphs, where paths always lead somewhere.
-/
import ShapeQuery.Proofs.Compiler.Inquiry
import ShapeQuery.Proofs.Listing.Scoping

namespace ShapeQuery

open ShapeQuery.Filter (Compound)
open Rdf (Graph)
open Sparql (Term Group Element Query)
open Success (bind_ok map_ok mapError_ok)

/-! ### Shapes that are read -/

/-- Whether a node shape is read from some graph. -/
def NodeShape.IsRead (shape : NodeShape) : Prop :=
  ∃ (graph : Graph) (name : Iri), graph.nodeShape name = .ok shape

/-- Whether a property shape is read from some graph. -/
def PropertyShape.IsRead (shape : PropertyShape) : Prop :=
  ∃ (graph : Graph) (node : Rdf.Node), graph.propertyShape node = .ok shape

/-- An inquiry whose shapes are read from graphs. -/
structure Inquiry.IsRead (inquiry : Inquiry) : Prop where
  nodeShapes : ∀ shape ∈ inquiry.nodeShapes, shape.IsRead
  propertyShapes : ∀ shape ∈ inquiry.propertyShapes, shape.IsRead

namespace Compiler

/-- A compiler with the standard functions, whose queryables are read from graphs. -/
structure IsRead (compiler : Compiler) : Prop where
  functions : compiler.functions = .standard
  queryables : ∀ entry ∈ compiler.queryables, entry.2.IsRead

/-! ### Parts -/

/-- What a shape that is read tells about its focus. -/
theorem scoped_fragment {kind : ShapeKind} (selects : kind ≠ .search) {focus : Term}
    (own : ∀ name ∈ focus.names, name = Shape.focusNode) {shape : NodeShape} (read : shape.IsRead)
    {fragment : Fragment} (lowered : Lowering.nodeShape ⟨kind, focus, []⟩ shape = .ok fragment) :
    fragment.Scoped Sparql.Variable.IsCompound := by
  obtain ⟨graph, name, readFrom⟩ := read
  have other (stem : String) (slot : Shape.Slot) : slot.toVariable stem ∉ focus.names :=
    fun member => slot.toVariable_ne_focusNode stem (own _ member)
  have filled : ∀ property ∈ shape.properties, property.Filled := by
    intro property member
    obtain ⟨node, propertyRead⟩ := Graph.propertyShape_of_nodeShape readFrom property member
    exact Graph.filled_of_propertyShape propertyRead
  have kept := Lowering.scoped_nodeShape ⟨selects, rfl⟩ other
    (Graph.regular_of_nodeShape readFrom) filled lowered
  refine kept.mono fun name covered => ?_
  rcases covered with named | compound
  · rw [own name named]
    decide
  · exact compound

theorem scoped_described {profile : NodeShape} {focus : Term} {fragment : Fragment}
    (own : ∀ name ∈ focus.names, name = Shape.focusNode) (read : profile.IsRead)
    (made : described profile focus = .ok fragment) :
    fragment.Scoped Sparql.Variable.IsCompound :=
  scoped_fragment (by decide) own read (mapError_ok.1 made)

/-- The focus of a listing is the focus node. -/
theorem names_focus : ∀ name ∈ Listing.focus.names, name = Shape.focusNode :=
  fun _ member => List.mem_singleton.1 member

variable {compiler : Compiler} (read : compiler.IsRead)

include read

theorem followable_translator : compiler.translator.Followable where
  functions := read.functions
  regular entry member := by
    obtain ⟨graph, node, readFrom⟩ := read.queryables entry member
    exact Graph.regular_of_propertyShape readFrom
  filled entry member := by
    obtain ⟨graph, node, readFrom⟩ := read.queryables entry member
    exact Graph.filled_of_propertyShape readFrom

/-- Whatever restricts the resources of a request names what selections may name. -/
theorem selecting_restricts {request : Request} {group : Group}
    (endpoint : ∀ shape ∈ request.endpoint, shape.IsRead)
    (restricts : Restricts compiler request group) : Listing.Selecting group := by
  cases restricts with
  | endpoint given lowered =>
    obtain ⟨fragment, succeeds, rfl⟩ := ofEndpoint_ok lowered
    have kept := scoped_fragment (by decide) names_focus (endpoint _ given) succeeds
    exact Listing.selecting_of_compound kept.pattern
  | filter given lowered =>
    obtain ⟨filter, -, translated⟩ := ofFilter_ok lowered
    exact Listing.selecting_of_compound
      (Filter.Translator.compound_translate (followable_translator read) translated)
  | box given lowered =>
    unfold ofBox at lowered
    split at lowered
    · cases lowered
      exact .nil
    · exact Listing.selecting_of_compound (Listing.compound_inBox lowered)
  | time given lowered =>
    obtain ⟨span, -, made⟩ := bind_ok.1 lowered
    cases made
    exact Listing.selecting_lower span _

theorem selecting_selection {request : Request} {selection : Group}
    (endpoint : ∀ shape ∈ request.endpoint, shape.IsRead)
    (selected : compiler.selection request = .ok selection) : Listing.Selecting selection := by
  obtain ⟨parts, rfl, restricted⟩ := restricts_of_selection selected
  have each : ∀ part ∈ parts, Listing.Selecting part := by
    intro part member
    rcases restricted part member with rfl | restricts
    · exact .nil
    · exact selecting_restricts read endpoint restricts
  exact .flatten each

omit read in
/-- A search comes without a selection of its own. -/
theorem selection_of_searched {term : String} {search : Listing.Search}
    (made : compiler.searched term = .ok search) : search.selection = [] := by
  unfold searched Listing.Search.ofTerm at made
  split at made
  · cases made
  · split at made
    · cases made
    · cases made
      rfl

/-! ### Queries -/

theorem wellScoped_listing {profile : NodeShape} {request : Request} {query : Query}
    (profileRead : profile.IsRead) (endpoint : ∀ shape ∈ request.endpoint, shape.IsRead)
    (made : compiler.listing profile request = .ok query) : query.WellScoped := by
  obtain ⟨fragment, describedMade, further⟩ := bind_ok.1 made
  obtain ⟨page, -, further⟩ := bind_ok.1 further
  obtain ⟨selection, selected, further⟩ := bind_ok.1 further
  obtain ⟨order, -, further⟩ := bind_ok.1 further
  obtain ⟨search, searched, assembled⟩ := bind_ok.1 further
  refine Listing.Assembly.wellScoped_query ⟨?_, ?_, ?_⟩ assembled
  · exact scoped_described names_focus profileRead describedMade
  · exact selecting_selection read endpoint selected
  · show ∀ found ∈ search, Listing.Selecting found.selection
    cases term : request.search with
    | none =>
      rw [term] at searched
      cases searched
      exact fun _ member => by cases member
    | some text =>
      rw [term] at searched
      obtain ⟨found, foundMade, total⟩ := bind_ok.1 searched
      cases total
      intro _ member
      rw [← Option.some.inj member, selection_of_searched foundMade]
      exact .nil

theorem wellScoped_filter {document : Json} {query : Query}
    (made : compiler.filter document = .ok query) : query.WellScoped := by
  obtain ⟨filter, -, further⟩ := bind_ok.1 (mapError_ok.1 made)
  obtain ⟨group, translated, total⟩ := bind_ok.1 further
  cases total
  have compound :=
    Filter.Translator.compound_translate (followable_translator read) translated
  exact Listing.wellScoped_ofTemplate (compound.settled.wellScoped [])
    fun triple member => Sparql.scope_groupTemplateTriples group triple (List.mem_eraseDups.1 member)

omit read in
theorem wellScoped_labels {resources : List Iri} {query : Query}
    (made : compiler.labels resources = some query) : query.WellScoped := by
  unfold labels at made
  split at made
  · cases made
  · cases made
    refine Listing.wellScoped_ofTemplate
      ⟨trivial, nofun, trivial, nofun, trivial, nofun, trivial⟩ ?_
    show ∀ triple ∈ [_], ∀ name ∈ Sparql.TemplateTriple.names triple,
      name ∈ [labelled, labelPredicate, labelled, labelPredicate, label]
    decide

/-- The query that answers an inquiry keeps to the rules of scopes: in no group is a value bound to a
variable that is in scope before it, no name of a column is in scope in what is selected from,
everything that the template shows is in scope, and every selection orders by what it projects and
groups by what stands next to an aggregate. -/
theorem wellScoped_answer {inquiry : Inquiry} (inquiryRead : inquiry.IsRead) {query : Query}
    (answered : compiler.answer? inquiry = some query) : query.WellScoped := by
  cases inquiry with
  | object profile focus =>
    obtain ⟨fragment, describedMade, total⟩ := bind_ok.1 (toOption_eq_some.1 answered)
    cases total
    have named : ∀ name ∈ (Term.iri focus).names, name = Shape.focusNode :=
      fun _ member => absurd member List.not_mem_nil
    have kept := scoped_described named (inquiryRead.nodeShapes profile List.mem_cons_self)
      describedMade
    exact Listing.wellScoped_ofTemplate (kept.pattern.settled.wellScoped []) kept.shown
  | listing profile request =>
    have shapes := List.forall_mem_cons.1 inquiryRead.nodeShapes
    exact wellScoped_listing read shapes.1 (fun shape given => shapes.2 shape
      (Option.mem_toList.2 given)) (toOption_eq_some.1 answered)
  | count request =>
    obtain ⟨selection, selected, total⟩ := bind_ok.1 (toOption_eq_some.1 answered)
    cases total
    exact Listing.Count.wellScoped_query (selecting_selection read (fun shape given =>
      inquiryRead.nodeShapes shape (Option.mem_toList.2 given)) selected)
  | facets shape request =>
    obtain ⟨selection, selected, made⟩ := bind_ok.1 (toOption_eq_some.1 answered)
    obtain ⟨graph, node, readFrom⟩ := inquiryRead.propertyShapes shape List.mem_cons_self
    have regular := Graph.regular_of_propertyShape readFrom
    have filled := Graph.filled_of_propertyShape readFrom
    exact Listing.Facet.wellScoped_query (List.forall_mem_append.2 ⟨regular.paths, regular.choices⟩)
      (List.forall_mem_append.2 ⟨filled.paths, filled.choices⟩)
      (selecting_selection read (fun shape given =>
        inquiryRead.nodeShapes shape (Option.mem_toList.2 given)) selected) made
  | search term parameters =>
    obtain ⟨page, -, further⟩ := bind_ok.1 (toOption_eq_some.1 answered)
    obtain ⟨search, searched, total⟩ := bind_ok.1 further
    cases total
    exact Listing.Search.wellScoped_query ((selection_of_searched searched).symm ▸ .nil) page
  | filter document => exact wellScoped_filter read (toOption_eq_some.1 answered)
  | labels resources => exact wellScoped_labels answered

omit read in
/-- A search in a listing that tells the names of rivers, the greatest weight first. -/
theorem wellScoped_answer_search :
    ∃ (profile : NodeShape) (query : Query),
      (ofConfiguration .standard).IsRead ∧
      (Inquiry.listing profile ⟨none, none, .standard, some "river"⟩).IsRead ∧
      (ofConfiguration .standard).answer?
        (.listing profile ⟨none, none, .standard, some "river"⟩) = some query ∧
      query.WellScoped := by
  have succeeds : (do
      let profile ← ((Graph.ofList [
        ⟨.iri ⟨"http://example.org/shape"⟩, Vocabulary.shTargetClass,
          .iri ⟨"http://example.org/River"⟩⟩,
        ⟨.iri ⟨"http://example.org/shape"⟩, Vocabulary.shProperty, .blank "property"⟩,
        ⟨.blank "property", Vocabulary.shPath, .iri Vocabulary.schemaName⟩]).nodeShape
          ⟨"http://example.org/shape"⟩).mapError Listing.BuildError.shape
      (ofConfiguration .standard).listing profile ⟨none, none, .standard, some "river"⟩).isOk =
        true := by decide +kernel
  obtain ⟨query, made⟩ := Success.exists_ok succeeds
  obtain ⟨profile, readFrom, made⟩ := bind_ok.1 made
  have read : (ofConfiguration .standard).IsRead :=
    ⟨rfl, fun _ member => absurd member List.not_mem_nil⟩
  have inquiryRead : (Inquiry.listing profile ⟨none, none, .standard, some "river"⟩).IsRead :=
    ⟨List.forall_mem_singleton.2 ⟨_, _, mapError_ok.1 readFrom⟩,
      fun _ member => absurd member List.not_mem_nil⟩
  have answered := toOption_eq_some.2 made
  exact ⟨profile, query, read, inquiryRead, answered,
    wellScoped_answer read inquiryRead answered⟩

end Compiler

end ShapeQuery
