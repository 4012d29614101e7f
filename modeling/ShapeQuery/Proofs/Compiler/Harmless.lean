/-
This file proves that no input can change the structure of a query. Cutting the text of a query into
tokens finds the tokens of its tree. All of them but IRIs, strings and numbers are the program's own
or those of the shapes, so that the texts of a request stay inside of single tokens.
-/
import ShapeQuery.Proofs.Compiler.Inquiry
import ShapeQuery.Proofs.Listing.Harmless
import ShapeQuery.Proofs.Sparql.Tokens

namespace ShapeQuery

open Sparql (Term Group Element Query Token Lexeme TemplateTriple)
open Sparql.Lexer (Lexicon IsReference IsNumeral Fills stemFrames)
open Success (bind_ok map_ok mapError_ok)

/-! ### Tokens -/

namespace Sparql

/-- Whether a token is an IRI, a string or a number, or else one that is known beforehand. -/
def Token.IsKnown (lexicon : Lexicon) : Token → Prop
  | .iri name => IsReference name.text
  | .string _ => True
  | .number text => IsNumeral text
  | .var name => lexicon.names name.name
  | .blank label => lexicon.labels label
  | .language tag => lexicon.tags tag
  | .word text => text ∈ Lexer.keywords
  | .mark text => text ∈ Lexer.marks

theorem Lexeme.IsHarmless.isKnown {lexicon : Lexicon} {lexeme : Lexeme}
    (harmless : lexeme.IsHarmless lexicon) {token : Token} (visible : token ∈ lexeme.token?) :
    token.IsKnown lexicon := by
  cases lexeme with
  | space => cases visible
  | newLine => cases visible
  | _ =>
    cases visible
    exact harmless

theorem Query.Harmless.isKnown {lexicon : Lexicon} {query : Query}
    (harmless : query.Harmless lexicon) : ∀ token ∈ query.tokens, token.IsKnown lexicon := by
  intro token member
  obtain ⟨lexeme, inside, visible⟩ := List.mem_filterMap.1 member
  exact (harmless lexeme inside).isKnown visible

end Sparql

/-! ### Valid inputs -/

/-- A configuration with valid IRIs. -/
structure Configuration.IsValid (configuration : Configuration) : Prop where
  searchPredicates : ∀ iri ∈ configuration.searchPredicates, iri.IsValid
  labelPredicates : ∀ iri ∈ configuration.labelPredicates, iri.IsValid
  temporalPredicate : configuration.temporalPredicate.IsValid
  orderPredicate : ∀ iri ∈ configuration.orderPredicate, iri.IsValid

theorem Configuration.standard_isValid : Configuration.standard.IsValid where
  searchPredicates := by
    show ∀ iri ∈ _, Iri.ofText iri.text = .ok iri
    decide +kernel
  labelPredicates := by
    show ∀ iri ∈ _, Iri.ofText iri.text = .ok iri
    decide +kernel
  temporalPredicate := by
    show Iri.ofText _ = .ok _
    decide +kernel
  orderPredicate := fun _ member => by cases member

/-- An inquiry whose shapes and resources have valid IRIs. Nothing is asked of its texts. -/
structure Inquiry.IsValid (lexicon : Lexicon) (inquiry : Inquiry) : Prop where
  nodeShapes : ∀ shape ∈ inquiry.nodeShapes, shape.IsValid lexicon
  propertyShapes : ∀ shape ∈ inquiry.propertyShapes, shape.IsValid lexicon
  resources : ∀ iri ∈ inquiry.resources, iri.IsValid

namespace Compiler

/-- A compiler with the standard functions and with valid IRIs. -/
structure IsValid (lexicon : Lexicon) (compiler : Compiler) : Prop where
  configuration : compiler.configuration.IsValid
  functions : compiler.functions = .standard
  queryables : ∀ entry ∈ compiler.queryables, entry.2.IsValid lexicon

variable {lexicon : Lexicon} (own : Lexicon.own.Within lexicon)

include own

/-! ### Selections -/

theorem harmless_ofEndpoint {shape : NodeShape} {group : Group} (valid : shape.IsValid lexicon)
    (lowered : ofEndpoint shape = .ok group) : Group.Harmless lexicon group := by
  obtain ⟨fragment, succeeds, rfl⟩ := ofEndpoint_ok lowered
  have plain : Lowering.Plain ⟨.endpoint, Listing.focus, []⟩ := ⟨by decide, rfl⟩
  exact (Lowering.harmless_nodeShape own plain (Listing.harmless_focus own) valid succeeds).pattern

theorem harmless_described {profile : NodeShape} {focus : Term} {fragment : Fragment}
    (valid : profile.IsValid lexicon) (harmless : focus.Harmless lexicon)
    (made : described profile focus = .ok fragment) : fragment.Harmless lexicon := by
  have plain : Lowering.Plain ⟨.profile, focus, []⟩ := ⟨nofun, rfl⟩
  exact Lowering.harmless_nodeShape own plain harmless valid (mapError_ok.1 made)

variable {compiler : Compiler} (valid : compiler.IsValid lexicon)

include valid

theorem harmless_translator : compiler.translator.Harmless lexicon where
  functions := by
    have standard : compiler.translator.functions = .standard := valid.functions
    rw [standard]
    exact Filter.Registry.standard_harmless own
  queryables := valid.queryables

theorem harmless_ofFilter {document : Json} {group : Group}
    (lowered : compiler.ofFilter document = .ok group) : Group.Harmless lexicon group := by
  obtain ⟨filter, read, translated⟩ := ofFilter_ok lowered
  exact Filter.Translator.harmless_translate own (harmless_translator own valid) read translated

theorem harmless_ofTime {text : String} {group : Group}
    (lowered : compiler.ofTime text = .ok group) : Group.Harmless lexicon group := by
  obtain ⟨span, read, made⟩ := bind_ok.1 lowered
  cases made
  exact Listing.harmless_lower own valid.configuration.temporalPredicate.isReference
    (Listing.harmless_comparisons read)

/-- Whatever restricts the resources of a request is harmless. -/
theorem harmless_restricts {request : Request} {group : Group}
    (endpoint : ∀ shape ∈ request.endpoint, shape.IsValid lexicon)
    (restricts : Restricts compiler request group) : Group.Harmless lexicon group := by
  cases restricts with
  | endpoint given lowered => exact harmless_ofEndpoint own (endpoint _ given) lowered
  | filter given lowered => exact harmless_ofFilter own valid lowered
  | box given lowered =>
    unfold ofBox at lowered
    split at lowered
    · cases lowered
      exact Group.harmless_nil
    · exact Listing.harmless_inBox own lowered
  | time given lowered => exact harmless_ofTime own valid lowered

theorem harmless_selection {request : Request} {selection : Group}
    (endpoint : ∀ shape ∈ request.endpoint, shape.IsValid lexicon)
    (selected : compiler.selection request = .ok selection) :
    Group.Harmless lexicon selection := by
  obtain ⟨parts, rfl, restricted⟩ := restricts_of_selection selected
  intro element member
  obtain ⟨part, partMember, inside⟩ := List.mem_flatten.1 member
  rcases restricted part partMember with rfl | restricts
  · exact absurd inside List.not_mem_nil
  · exact harmless_restricts own valid endpoint restricts element inside

/-! ### Queries -/

omit own in
/-- A search looks for the values of the predicates of the configuration. -/
theorem isReference_of_searched {term : String} {search : Listing.Search}
    (made : compiler.searched term = .ok search) :
    search.selection = [] ∧ ∀ iri ∈ search.predicates, IsReference iri.text := by
  unfold searched Listing.Search.ofTerm at made
  split at made
  · cases made
  · split at made
    · cases made
    · cases made
      exact ⟨rfl, fun iri member => (valid.configuration.searchPredicates iri member).isReference⟩

theorem harmless_listing {profile : NodeShape} {request : Request} {query : Query}
    (profileValid : profile.IsValid lexicon)
    (endpoint : ∀ shape ∈ request.endpoint, shape.IsValid lexicon)
    (made : compiler.listing profile request = .ok query) : query.Harmless lexicon := by
  obtain ⟨fragment, describedMade, further⟩ := bind_ok.1 made
  obtain ⟨page, -, further⟩ := bind_ok.1 further
  obtain ⟨selection, selected, further⟩ := bind_ok.1 further
  obtain ⟨order, ordered, further⟩ := bind_ok.1 further
  obtain ⟨search, searched, assembled⟩ := bind_ok.1 further
  have usual : ∀ iri ∈ compiler.configuration.orderPredicate, IsReference iri.text :=
    fun iri member => (valid.configuration.orderPredicate iri member).isReference
  refine Listing.Assembly.harmless_query own ⟨?_, ?_, ?_, ?_⟩ assembled
  · exact harmless_described own profileValid (Listing.harmless_focus own) describedMade
  · exact harmless_selection own valid endpoint selected
  · cases term : request.search with
    | none =>
      rw [term] at searched
      cases searched
      exact fun _ member => by cases member
    | some text =>
      rw [term] at searched
      obtain ⟨found, foundMade, total⟩ := bind_ok.1 searched
      cases total
      obtain ⟨whole, predicates⟩ := isReference_of_searched valid foundMade
      exact fun _ member => Option.some.inj member ▸ ⟨whole ▸ Group.harmless_nil, predicates⟩
  · exact Listing.Parameters.isReference_of_order usual ordered

theorem harmless_search {term : String} {parameters : Listing.Parameters} {query : Query}
    (made : compiler.search term parameters = .ok query) : query.Harmless lexicon := by
  obtain ⟨page, -, further⟩ := bind_ok.1 made
  obtain ⟨search, searched, total⟩ := bind_ok.1 further
  cases total
  obtain ⟨whole, predicates⟩ := isReference_of_searched valid searched
  exact Listing.Search.harmless_query own (whole ▸ Group.harmless_nil) predicates

theorem harmless_filter {document : Json} {query : Query}
    (made : compiler.filter document = .ok query) : query.Harmless lexicon := by
  obtain ⟨filter, read, further⟩ := bind_ok.1 (mapError_ok.1 made)
  obtain ⟨group, translated, total⟩ := bind_ok.1 further
  cases total
  have harmless := Filter.Translator.harmless_translate own (harmless_translator own valid) read
    translated
  exact Query.harmless_ofTemplate (Sparql.Group.harmless_template harmless) harmless

theorem harmless_labels {resources : List Iri} {query : Query}
    (resourcesValid : ∀ iri ∈ resources, iri.IsValid)
    (made : compiler.labels resources = some query) : query.Harmless lexicon := by
  unfold labels at made
  split at made
  · cases made
  · cases made
    have column {name : Sparql.Variable} {iris : List Iri}
        (named : name.name ∈ Sparql.Lexer.filterFrames ++ Sparql.Lexer.listingFrames)
        (known : ∀ iri ∈ iris, iri.IsValid) : (Element.column name (iris.map .iri)).Harmless lexicon :=
      (Element.harmless_column _ _).2 ⟨Listing.names_known own named,
        List.forall_mem_map.2 fun iri member => (Term.harmless_iri iri).2 (known iri member).isReference⟩
    have subject : (Term.var labelled).Harmless lexicon :=
      Listing.harmless_known own (by decide +kernel)
    have object : (Term.var label).Harmless lexicon :=
      Listing.harmless_known own (by decide +kernel)
    have triple : (Element.ofTriple (.var labelled) (.var labelPredicate) (.var label)).Harmless
        lexicon :=
      Element.harmless_ofTriple subject
        (Listing.names_known own (by decide +kernel : labelPredicate.name ∈ _)) object
    refine Query.harmless_ofTemplate (List.forall_mem_singleton.2 (Listing.harmless_templateTriple
      subject (by decide +kernel : IsReference Vocabulary.prezLabel.text) object)) ?_
    exact List.forall_mem_cons.2 ⟨column (by decide +kernel) resourcesValid,
      List.forall_mem_cons.2 ⟨column (by decide +kernel) valid.configuration.labelPredicates,
        List.forall_mem_singleton.2 triple⟩⟩

/-- The query that answers an inquiry is harmless, whatever the texts of the inquiry are. -/
theorem harmless_answer? {inquiry : Inquiry} {query : Query}
    (inquiryValid : inquiry.IsValid lexicon) (answered : compiler.answer? inquiry = some query) :
    query.Harmless lexicon := by
  cases inquiry with
  | object profile focus =>
    obtain ⟨fragment, describedMade, total⟩ := bind_ok.1 (toOption_eq_some.1 answered)
    cases total
    have known := (inquiryValid.resources focus List.mem_cons_self).isReference
    have harmless := harmless_described own (inquiryValid.nodeShapes profile List.mem_cons_self)
      ((Term.harmless_iri focus).2 known) describedMade
    exact Query.harmless_ofTemplate harmless.template harmless.pattern
  | listing profile request =>
    have shapes := List.forall_mem_cons.1 inquiryValid.nodeShapes
    exact harmless_listing own valid shapes.1 (fun shape given => shapes.2 shape
      (Option.mem_toList.2 given)) (toOption_eq_some.1 answered)
  | count request =>
    obtain ⟨selection, selected, total⟩ := bind_ok.1 (toOption_eq_some.1 answered)
    cases total
    exact Listing.Count.harmless_query own (harmless_selection own valid (fun shape given =>
      inquiryValid.nodeShapes shape (Option.mem_toList.2 given)) selected)
  | facets shape request =>
    obtain ⟨selection, selected, made⟩ := bind_ok.1 (toOption_eq_some.1 answered)
    have harmless := harmless_selection own valid (fun shape given =>
      inquiryValid.nodeShapes shape (Option.mem_toList.2 given)) selected
    exact Listing.Facet.harmless_query own
      (inquiryValid.propertyShapes shape List.mem_cons_self) harmless made
  | search term parameters => exact harmless_search own valid (toOption_eq_some.1 answered)
  | filter document => exact harmless_filter own valid (toOption_eq_some.1 answered)
  | labels resources => exact harmless_labels own valid inquiryValid.resources answered

/-- Cutting the text of any query into tokens finds the tokens of the query and no others; whatever
a request brings along that is no IRI, string or number was known before. -/
theorem tokens_of_answer (readable : lexicon.Within .readable) {inquiry : Inquiry} {query : Query}
    (inquiryValid : inquiry.IsValid lexicon) (answered : compiler.answer? inquiry = some query)
    {text : String} (rendered : query.render = .ok text) :
    Sparql.Lexer.tokens? text.toList = some query.tokens ∧
      ∀ token ∈ query.tokens, token.IsKnown lexicon := by
  have harmless := harmless_answer? own valid inquiryValid answered
  refine ⟨Query.tokens?_text ?_ rendered, harmless.isKnown⟩
  exact fun lexeme member => (harmless lexeme member).mono readable

omit own valid in
/-- A search term with the characters that end strings, groups and lines stays a string. -/
theorem tokens_of_answer_search :
    ∃ query text, (ofConfiguration .standard).answer? (.search "\" . \x7d #" .standard) = some query ∧
      query.render = .ok text ∧ Sparql.Lexer.tokens? text.toList = some query.tokens ∧
      ∀ token ∈ query.tokens, token.IsKnown .own := by
  have own : Lexicon.own.Within .own :=
    ⟨fun _ known => known, fun _ known => known, fun _ known => known⟩
  have valid : (ofConfiguration .standard).IsValid .own :=
    ⟨Configuration.standard_isValid, rfl, fun _ member => absurd member List.not_mem_nil⟩
  have nothing : (Inquiry.search "\" . \x7d #" .standard).IsValid .own :=
    ⟨fun _ member => absurd member List.not_mem_nil, fun _ member => absurd member List.not_mem_nil,
      fun _ member => absurd member List.not_mem_nil⟩
  refine ⟨_, _, rfl, rfl, ?_⟩
  exact tokens_of_answer own valid Sparql.Lexer.own_within_readable nothing rfl rfl

end Compiler

end ShapeQuery
