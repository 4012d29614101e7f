/-
This file proves that every query that a compiler answers with can be written. What would keep a
tree from having a text was refused where it would have come in: by the reader of shapes, by the
reader of filters, or where a search or a facet was made.
-/
import ShapeQuery.Proofs.Compiler.Scoping
import ShapeQuery.Proofs.Listing.Completeness

namespace ShapeQuery

open Rdf (Graph)
open Sparql (Term Group Element Query Expression)
open Success (bind_ok map_ok mapError_ok)

theorem PropertyShape.IsRead.complete {shape : PropertyShape} (read : shape.IsRead) :
    shape.Complete := by
  obtain ⟨graph, node, readFrom⟩ := read
  exact Graph.complete_of_propertyShape readFrom

theorem NodeShape.IsRead.complete {shape : NodeShape} (read : shape.IsRead) :
    ∀ property ∈ shape.properties, property.Complete := by
  obtain ⟨graph, name, readFrom⟩ := read
  exact Graph.complete_of_nodeShape readFrom

namespace Compiler

/-! ### Selections -/

theorem complete_ofEndpoint {shape : NodeShape} {group : Group} (read : shape.IsRead)
    (lowered : ofEndpoint shape = .ok group) : group.Complete := by
  obtain ⟨fragment, succeeds, rfl⟩ := ofEndpoint_ok lowered
  exact (Lowering.complete_nodeShape read.complete succeeds).pattern

theorem complete_described {profile : NodeShape} {focus : Term} {fragment : Fragment}
    (read : profile.IsRead) (made : described profile focus = .ok fragment) : fragment.Complete :=
  Lowering.complete_nodeShape read.complete (mapError_ok.1 made)

variable {compiler : Compiler} (read : compiler.IsRead)

include read

theorem complete_translator : compiler.translator.Complete where
  functions := by
    have standard : compiler.translator.functions = .standard := read.functions
    rw [standard]
    exact Filter.Registry.standard_isComplete
  queryables entry member := (read.queryables entry member).complete

/-- Whatever restricts the resources of a request is complete. -/
theorem complete_restricts {request : Request} {group : Group}
    (endpoint : ∀ shape ∈ request.endpoint, shape.IsRead)
    (restricts : Restricts compiler request group) : group.Complete := by
  cases restricts with
  | endpoint given lowered => exact complete_ofEndpoint (endpoint _ given) lowered
  | filter given lowered =>
    obtain ⟨filter, filterRead, translated⟩ := ofFilter_ok lowered
    exact Filter.Translator.complete_translate (complete_translator read) filterRead translated
  | box given lowered =>
    unfold ofBox at lowered
    split at lowered
    · cases lowered
      exact Group.complete_nil
    · exact Listing.complete_inBox lowered
  | time given lowered =>
    obtain ⟨span, -, made⟩ := bind_ok.1 lowered
    cases made
    exact Listing.complete_lower _ _ _

theorem complete_selection {request : Request} {selection : Group}
    (endpoint : ∀ shape ∈ request.endpoint, shape.IsRead)
    (selected : compiler.selection request = .ok selection) : selection.Complete := by
  obtain ⟨parts, rfl, restricted⟩ := restricts_of_selection selected
  intro element member
  obtain ⟨part, partMember, inside⟩ := List.mem_flatten.1 member
  rcases restricted part partMember with rfl | restricts
  · exact absurd inside List.not_mem_nil
  · exact complete_restricts read endpoint restricts element inside

/-! ### Queries -/

theorem complete_listing {profile : NodeShape} {request : Request} {query : Query}
    (profileRead : profile.IsRead) (endpoint : ∀ shape ∈ request.endpoint, shape.IsRead)
    (made : compiler.listing profile request = .ok query) : query.Complete := by
  obtain ⟨fragment, describedMade, further⟩ := bind_ok.1 made
  obtain ⟨page, -, further⟩ := bind_ok.1 further
  obtain ⟨selection, selected, further⟩ := bind_ok.1 further
  obtain ⟨order, -, further⟩ := bind_ok.1 further
  obtain ⟨search, searched, assembled⟩ := bind_ok.1 further
  refine Listing.Assembly.complete_query ⟨complete_described profileRead describedMade,
    complete_selection read endpoint selected, ?_⟩ assembled
  show ∀ found ∈ search, Group.Complete found.selection
  cases term : request.search with
  | none =>
    rw [term] at searched
    cases searched
    exact fun _ member => by cases member
  | some text =>
    rw [term] at searched
    obtain ⟨found, foundMade, total⟩ := bind_ok.1 searched
    cases total
    intro _ member
    rw [← Option.some.inj member, selection_of_searched foundMade]
    exact Group.complete_nil

theorem complete_filter {document : Json} {query : Query}
    (made : compiler.filter document = .ok query) : query.Complete := by
  obtain ⟨filter, filterRead, further⟩ := bind_ok.1 (mapError_ok.1 made)
  obtain ⟨group, translated, total⟩ := bind_ok.1 further
  cases total
  refine Query.complete_ofTemplate (fun triple member => ?_)
    (Filter.Translator.complete_translate (complete_translator read) filterRead translated)
  exact Sparql.complete_groupTemplateTriples group triple (List.mem_eraseDups.1 member)

omit read in
theorem complete_labels {resources : List Iri} {query : Query}
    (made : compiler.labels resources = some query) : query.Complete := by
  unfold labels at made
  split at made
  · cases made
  · cases made
    exact Query.complete_ofTemplate
      (List.forall_mem_singleton.2 (Sparql.TemplateTriple.complete_iri _ _ _)) (by simp)

theorem complete_answer? {inquiry : Inquiry} (inquiryRead : inquiry.IsRead) {query : Query}
    (answered : compiler.answer? inquiry = some query) : query.Complete := by
  cases inquiry with
  | object profile focus =>
    obtain ⟨fragment, describedMade, total⟩ := bind_ok.1 (toOption_eq_some.1 answered)
    cases total
    have kept := complete_described (inquiryRead.nodeShapes profile List.mem_cons_self)
      describedMade
    exact Query.complete_ofTemplate kept.template kept.pattern
  | listing profile request =>
    have shapes := List.forall_mem_cons.1 inquiryRead.nodeShapes
    exact complete_listing read shapes.1 (fun shape given => shapes.2 shape
      (Option.mem_toList.2 given)) (toOption_eq_some.1 answered)
  | count request =>
    obtain ⟨selection, selected, total⟩ := bind_ok.1 (toOption_eq_some.1 answered)
    cases total
    exact Listing.Count.complete_query (complete_selection read (fun shape given =>
      inquiryRead.nodeShapes shape (Option.mem_toList.2 given)) selected)
  | facets shape request =>
    obtain ⟨selection, selected, made⟩ := bind_ok.1 (toOption_eq_some.1 answered)
    exact Listing.Facet.complete_query
      (inquiryRead.propertyShapes shape List.mem_cons_self).complete
      (complete_selection read (fun shape given =>
        inquiryRead.nodeShapes shape (Option.mem_toList.2 given)) selected) made
  | search term parameters =>
    obtain ⟨page, -, further⟩ := bind_ok.1 (toOption_eq_some.1 answered)
    obtain ⟨search, searched, total⟩ := bind_ok.1 further
    cases total
    exact Listing.Search.complete_query
      ((selection_of_searched searched).symm ▸ Group.complete_nil) page
  | filter document => exact complete_filter read (toOption_eq_some.1 answered)
  | labels resources => exact complete_labels answered

/-- Every query that answers an inquiry has a text, that of its lexemes: no path, conjunction,
disjunction, union, projection or head of a table in it is empty, every row fits its table, every
function takes its arguments and every predicate of the template is a variable or an IRI. -/
theorem render_answer {inquiry : Inquiry} (inquiryRead : inquiry.IsRead) {query : Query}
    (answered : compiler.answer? inquiry = some query) :
    query.render = .ok (Sparql.Lexeme.written query.lexemes) :=
  (complete_answer? read inquiryRead answered).render

omit read in
/-- The facets of a union of a predicate and an alternative. -/
theorem render_answer_facets :
    ∃ (shape : PropertyShape) (query : Query),
      (ofConfiguration .standard).IsRead ∧ (Inquiry.facets shape .all).IsRead ∧
      (ofConfiguration .standard).answer? (.facets shape .all) = some query ∧
      query.render = .ok (Sparql.Lexeme.written query.lexemes) := by
  have succeeds : (do
      let shape ← ((Graph.ofList [
        ⟨.blank "property", Vocabulary.shPath, .blank "union"⟩,
        ⟨.blank "union", Vocabulary.shUnion, .blank "first"⟩,
        ⟨.blank "first", Vocabulary.rdfFirst, .iri Vocabulary.schemaName⟩,
        ⟨.blank "first", Vocabulary.rdfRest, .blank "second"⟩,
        ⟨.blank "second", Vocabulary.rdfFirst, .blank "path"⟩,
        ⟨.blank "second", Vocabulary.rdfRest, .iri Vocabulary.rdfNil⟩,
        ⟨.blank "path", Vocabulary.shAlternativePath, .blank "member"⟩,
        ⟨.blank "member", Vocabulary.rdfFirst, .iri Vocabulary.rdfsLabel⟩,
        ⟨.blank "member", Vocabulary.rdfRest, .iri Vocabulary.rdfNil⟩]).propertyShape
          (.blank "property")).mapError Listing.BuildError.shape
      (ofConfiguration .standard).facets shape .all).isOk = true := by decide +kernel
  obtain ⟨query, made⟩ := Success.exists_ok succeeds
  obtain ⟨shape, readFrom, made⟩ := bind_ok.1 made
  have read : (ofConfiguration .standard).IsRead :=
    ⟨rfl, fun _ member => absurd member List.not_mem_nil⟩
  have inquiryRead : (Inquiry.facets shape .all).IsRead :=
    ⟨fun _ member => absurd member List.not_mem_nil,
      List.forall_mem_singleton.2 ⟨_, _, mapError_ok.1 readFrom⟩⟩
  have answered := toOption_eq_some.2 made
  exact ⟨shape, query, read, inquiryRead, answered, render_answer read inquiryRead answered⟩

end Compiler

end ShapeQuery
