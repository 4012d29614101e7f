/-
This file proves that listings are put together from harmless lexemes. What a request gives is a
number, the content of a literal, or a text that was checked as an IRI.
-/
import ShapeQuery.Listing.Assembly
import ShapeQuery.Listing.Count
import ShapeQuery.Listing.Facet
import ShapeQuery.Listing.Restriction
import ShapeQuery.Proofs.Filter.Translation

namespace ShapeQuery.Listing

open Sparql (Term Variable Group Element Expression Projection Modifier Query TemplateTriple
  TriplePattern)
open Sparql.Lexer (Lexicon IsReference isReference_ofList Fills labelFrames names_of_mem)
open Shape (Scope)
open Success (bind_ok mapError_ok)

variable {lexicon : Lexicon}

/-- A triple of a template with a vocabulary term as its predicate. -/
theorem harmless_templateTriple {subject object : Term} {predicate : Iri}
    (subjectHarmless : subject.Harmless lexicon) (known : IsReference predicate.text)
    (objectHarmless : object.Harmless lexicon) :
    TemplateTriple.Harmless lexicon ⟨subject, .iri predicate, object⟩ :=
  ⟨subjectHarmless, (Term.harmless_iri predicate).2 known, objectHarmless⟩

theorem harmless_solutions {columns : List Projection} {group : Group} {modifier : Modifier}
    (columnsHarmless : ∀ column ∈ columns, column.Harmless lexicon)
    (groupHarmless : Group.Harmless lexicon group) (harmless : modifier.Harmless lexicon) :
    (solutions columns group modifier).Harmless lexicon :=
  Element.harmless_select columnsHarmless groupHarmless harmless

theorem harmless_distinctly {columns : List Projection} {group : Group} {modifier : Modifier}
    (columnsHarmless : ∀ column ∈ columns, column.Harmless lexicon)
    (groupHarmless : Group.Harmless lexicon group) (harmless : modifier.Harmless lexicon) :
    (distinctly columns group modifier).Harmless lexicon :=
  Element.harmless_select columnsHarmless groupHarmless harmless

/-! ### Restrictions to a span of time -/

theorem harmless_moment {text : String} {literal : Literal}
    (read : TimeSpan.moment text = .ok literal) : literal.Harmless lexicon := by
  unfold TimeSpan.moment at read
  split at read
  · cases read
    exact (isReference_ofList (by decide) : IsReference Vocabulary.xsdDateTime.text)
  · cases read

theorem harmless_momentBound {text : String} {bound : Option Literal}
    (read : TimeSpan.bound text = .ok bound) : ∀ literal ∈ bound, literal.Harmless lexicon := by
  unfold TimeSpan.bound at read
  split at read
  · cases read
    exact fun _ member => by cases member
  · obtain ⟨moment, momentRead, rfl⟩ := Success.map_ok.1 read
    exact fun _ member => Option.some.inj member ▸ harmless_moment momentRead

/-- The moments of a span that is read from a text are harmless. -/
theorem harmless_comparisons {text : String} {span : TimeSpan}
    (read : TimeSpan.ofText text = .ok span) :
    ∀ comparison ∈ span.comparisons, comparison.2.Harmless lexicon := by
  unfold TimeSpan.ofText at read
  split at read
  · obtain ⟨moment, momentRead, made⟩ := bind_ok.1 read
    cases made
    exact List.forall_mem_singleton.2 (harmless_moment momentRead)
  · obtain ⟨start, startRead, further⟩ := bind_ok.1 read
    obtain ⟨finish, finishRead, made⟩ := bind_ok.1 further
    have opens : ∀ literal ∈ start, literal.Harmless lexicon := harmless_momentBound startRead
    have closes : ∀ literal ∈ finish, literal.Harmless lexicon := harmless_momentBound finishRead
    match start, finish with
    | some start, some finish =>
      cases made
      exact List.forall_mem_cons.2 ⟨opens start rfl, List.forall_mem_singleton.2 (closes finish rfl)⟩
    | some start, none =>
      cases made
      exact List.forall_mem_singleton.2 (opens start rfl)
    | none, some finish =>
      cases made
      exact List.forall_mem_singleton.2 (closes finish rfl)
    | none, none => cases made

section Own

variable (own : Lexicon.own.Within lexicon)

include own

theorem names_known {name : String}
    (known : name ∈ Sparql.Lexer.filterFrames ++ Sparql.Lexer.listingFrames) :
    lexicon.names name :=
  own.names _ (names_of_mem known)

theorem harmless_known {name : Variable}
    (known : name.name ∈ Sparql.Lexer.filterFrames ++ Sparql.Lexer.listingFrames) :
    (Term.var name).Harmless lexicon :=
  (Term.harmless_var name).2 (names_known own known)

theorem harmless_focus : focus.Harmless lexicon :=
  Filter.harmless_focus own

theorem harmless_lower {span : TimeSpan} {predicate : Iri} (known : IsReference predicate.text)
    (harmless : ∀ comparison ∈ span.comparisons, comparison.2.Harmless lexicon) :
    Group.Harmless lexicon (span.lower predicate focus) := by
  have named : lexicon.names TimeSpan.datetime.name := names_known own (by decide)
  have triple : (Element.ofTriple focus (.predicate predicate) (.var TimeSpan.datetime)).Harmless
      lexicon :=
    Filter.harmless_predicateTriple (harmless_focus own) known ((Term.harmless_var _).2 named)
  refine List.forall_mem_singleton.2 ((Element.harmless_filter _).2
    ((Expression.harmless_exists _).2 ((Group.harmless_cons _ _).2 ⟨triple, ?_⟩)))
  refine List.forall_mem_map.2 fun comparison member => ?_
  exact (Element.harmless_filter _).2 ((Expression.harmless_compare _ _ _).2
    ⟨(Expression.harmless_var _).2 named, Expression.harmless_literal (harmless _ member)⟩)

/-! ### Restrictions to a box -/

theorem harmless_inBox {values : List Number.Binary64} {system : String}
    {target : Filter.SpatialTarget} {group : Group}
    (lowered : inBox values system target focus = .ok group) : Group.Harmless lexicon group := by
  obtain ⟨geometry, -, related⟩ := bind_ok.1 (mapError_ok.1 lowered)
  have filter : Filter.SpatialFilter.Harmless lexicon
      ⟨.intersects, geometry, system, focus, "bbox"⟩ :=
    { subject := harmless_focus own
      node := names_known own (by decide : "geom_bnode_bbox" ∈ _)
      text := names_known own (by decide : "geom_var_bbox" ∈ _)
      input := names_known own (by decide : "wkt_input_bbox" ∈ _)
      label := own.labels _ (by decide : Fills labelFrames ("config_" ++ "bbox")) }
  exact filter.lower related

/-! ### Selections -/

theorem harmless_typed : typed.Harmless lexicon :=
  Filter.harmless_predicateTriple (harmless_focus own)
    (isReference_ofList (by decide) : IsReference Vocabulary.rdfType.text)
    (harmless_known own (by decide))

theorem harmless_resources {selection : Group} (harmless : Group.Harmless lexicon selection) :
    Group.Harmless lexicon (resources selection) := by
  unfold resources
  split
  · exact List.forall_mem_singleton.2 (harmless_typed own)
  · exact harmless

theorem harmless_resourceCount : resourceCount.Harmless lexicon :=
  (Expression.harmless_count _ _).2 ((Expression.harmless_var _).2 (names_focusNode own))

/-! ### Counts -/

theorem Count.harmless_query {selection : Group} (harmless : Group.Harmless lexicon selection) :
    (Count.query selection).Harmless lexicon := by
  have count : lexicon.names Count.count.name := names_known own (by decide)
  have label : lexicon.labels "count" := own.labels _ (by decide)
  refine Query.harmless_ofTemplate (List.forall_mem_singleton.2 ?_)
    (List.forall_mem_singleton.2 (harmless_solutions (List.forall_mem_singleton.2 ?_)
      (harmless_resources own harmless) Modifier.harmless_empty))
  · exact harmless_templateTriple ((Term.harmless_blank _).2 label)
      (isReference_ofList (by decide) : IsReference Vocabulary.prezCount.text)
      ((Term.harmless_var _).2 count)
  · exact (Projection.harmless_expression _ _).2 ⟨harmless_resourceCount own, count⟩

/-! ### Searches -/

namespace Search

theorem harmless_matching (regex : String) : (matching regex).Harmless lexicon := by
  have found : lexicon.names Search.found.name := names_known own (by decide)
  have text (value : String) : (Expression.literal (.plain value)).Harmless lexicon :=
    Expression.harmless_literal trivial
  have regexKnown : Sparql.Function.regex.lexeme.IsHarmless lexicon :=
    (by decide : "REGEX" ∈ Sparql.Lexer.keywords)
  refine (Expression.harmless_call _ _).2 ⟨regexKnown, ?_⟩
  exact List.forall_mem_cons.2 ⟨(Expression.harmless_var _).2 found,
    List.forall_mem_cons.2 ⟨text _, List.forall_mem_singleton.2 (text _)⟩⟩

theorem harmless_condition (term : String) (tier : Tier) :
    (condition term tier).Harmless lexicon := by
  have found : lexicon.names Search.found.name := names_known own (by decide)
  cases tier with
  | whole =>
    have lowercase : Sparql.Function.lowercase.lexeme.IsHarmless lexicon :=
      (by decide : "LCASE" ∈ Sparql.Lexer.keywords)
    exact (Expression.harmless_compare _ _ _).2 ⟨(Expression.harmless_call _ _).2
      ⟨lowercase, List.forall_mem_singleton.2 ((Expression.harmless_var _).2 found)⟩,
      Expression.harmless_literal trivial⟩
  | start => exact harmless_matching own _
  | part => exact harmless_matching own _

theorem harmless_branch (term : String) (tier : Tier) :
    Group.Harmless lexicon (branch term tier) := by
  have weight : (Literal.ofInt tier.weight).Harmless lexicon :=
    (isReference_ofList (by decide) : IsReference Vocabulary.xsdInteger.text)
  have triple : (Element.ofTriple focus (.var predicate) (.var found)).Harmless lexicon :=
    Element.harmless_ofTriple (harmless_focus own)
      (names_known own (by decide : predicate.name ∈ _))
      (harmless_known own (by decide : found.name ∈ _))
  refine List.forall_mem_cons.2 ⟨triple, List.forall_mem_cons.2 ⟨(Element.harmless_bind _ _).2
    ⟨Expression.harmless_literal weight, names_known own (by decide)⟩,
    List.forall_mem_singleton.2 ((Element.harmless_filter _).2 (harmless_condition own term tier))⟩⟩

theorem names_said : ∀ name ∈ said, lexicon.names name.name := by
  have known : ∀ name ∈ said, name.name ∈
      Sparql.Lexer.filterFrames ++ Sparql.Lexer.listingFrames := by decide
  exact fun name member => names_known own (known name member)

theorem harmless_hash : hash.Harmless lexicon := by
  have function (function : Sparql.Function)
      (known : function ∈ [Sparql.Function.uri, .concat, .sha256, .str]) :
      function.lexeme.IsHarmless lexicon := by
    simp only [List.mem_cons, List.not_mem_nil, or_false] at known
    rcases known with rfl | rfl | rfl | rfl <;>
      simp [Sparql.Function.lexeme, Sparql.Lexeme.IsHarmless, Sparql.Lexer.keywords]
  have texts : ∀ expression ∈ said.map (fun column => Expression.call .str [.var column]),
      expression.Harmless lexicon :=
    List.forall_mem_map.2 fun column member => (Expression.harmless_call _ _).2
      ⟨function .str (by simp), List.forall_mem_singleton.2
        ((Expression.harmless_var _).2 (names_said own column member))⟩
  have digest := (Expression.harmless_call _ _).2 ⟨function .sha256 (by simp),
    List.forall_mem_singleton.2 ((Expression.harmless_call _ _).2
      ⟨function .concat (by simp), texts⟩)⟩
  have beginning : (Expression.literal (.plain "urn:hash:")).Harmless lexicon :=
    Expression.harmless_literal trivial
  exact (Expression.harmless_call _ _).2 ⟨function .uri (by simp), List.forall_mem_singleton.2
    ((Expression.harmless_call _ _).2 ⟨function .concat (by simp),
      List.forall_mem_cons.2 ⟨beginning, List.forall_mem_singleton.2 digest⟩⟩)⟩

theorem harmless_columns : ∀ column ∈ columns, column.Harmless lexicon := by
  refine List.forall_mem_append.2 ⟨List.forall_mem_map.2 fun name member =>
    (Projection.harmless_var name).2 (names_said own name member), ?_⟩
  exact List.forall_mem_singleton.2 ((Projection.harmless_expression _ _).2
    ⟨harmless_hash own, names_known own (by decide)⟩)

theorem harmless_template : ∀ triple ∈ template, triple.Harmless lexicon := by
  have result : (Term.var name).Harmless lexicon := harmless_known own (by decide)
  have told {predicate : Iri} {value : Variable} (known : IsReference predicate.text)
      (member : value ∈ said) :
      TemplateTriple.Harmless lexicon ⟨.var name, .iri predicate, .var value⟩ :=
    harmless_templateTriple result known ((Term.harmless_var _).2 (names_said own value member))
  refine List.forall_mem_cons.2 ⟨told (by decide) (by decide), List.forall_mem_cons.2
    ⟨told (by decide) (by decide), List.forall_mem_cons.2
      ⟨told (by decide) (by decide), List.forall_mem_cons.2
        ⟨told (by decide) (by decide), List.forall_mem_singleton.2 ?_⟩⟩⟩⟩
  exact harmless_templateTriple result (by decide)
    ((Term.harmless_iri _).2 (by decide))

theorem harmless_pageModifier (page : Page) : (pageModifier page).Harmless lexicon := by
  refine ⟨fun _ member => absurd member List.not_mem_nil, List.forall_mem_singleton.2 ?_⟩
  exact (Expression.harmless_var _).2 (names_known own (by decide))

/-- A search for any term is harmless, as long as it searches for the values of harmless predicates
and within a harmless selection. -/
theorem harmless_matched {search : Search} (selection : Group.Harmless lexicon search.selection)
    (predicates : ∀ iri ∈ search.predicates, IsReference iri.text) :
    search.matched.Harmless lexicon := by
  have names : ∀ name ∈ [Shape.focusNode, predicate, found], lexicon.names name.name :=
    fun name member => names_said own name (List.mem_append_left [weight] member)
  have column : (Element.column predicate (search.predicates.map .iri)).Harmless lexicon :=
    (Element.harmless_column _ _).2 ⟨names_known own (by decide),
      List.forall_mem_map.2 fun iri member => (Term.harmless_iri iri).2 (predicates iri member)⟩
  have tiers : (Element.union (Tier.all.map (branch search.term))).Harmless lexicon :=
    (Element.harmless_union _).2 (List.forall_mem_map.2 fun tier _ => harmless_branch own _ tier)
  refine harmless_solutions ?_ ?_
    ⟨names, fun _ member => absurd member List.not_mem_nil⟩
  · have sum : (Expression.sum false (.var tierWeight)).Harmless lexicon :=
      (Expression.harmless_sum _ _).2
        ((Expression.harmless_var _).2 (names_known own (by decide)))
    refine List.forall_mem_append.2 ⟨List.forall_mem_map.2 fun name member =>
      (Projection.harmless_var name).2 (names name member), ?_⟩
    exact List.forall_mem_singleton.2 ((Projection.harmless_expression _ _).2
      ⟨sum, names_known own (by decide)⟩)
  · exact (Group.harmless_append _ _).2 ⟨selection, (Group.harmless_cons _ _).2
      ⟨column, List.forall_mem_singleton.2 tiers⟩⟩

theorem harmless_query {search : Search} {page : Page}
    (selection : Group.Harmless lexicon search.selection)
    (predicates : ∀ iri ∈ search.predicates, IsReference iri.text) :
    (search.query page).Harmless lexicon :=
  Query.harmless_ofTemplate (harmless_template own) (List.forall_mem_singleton.2
    (harmless_solutions (harmless_columns own)
      (List.forall_mem_singleton.2 (harmless_matched own selection predicates))
      (harmless_pageModifier own page)))

end Search

/-! ### Facets -/

namespace Facet

omit own in
theorem harmless_label {path : ShapePath} (valid : path.IsValid) {expression : Expression}
    (made : label path = .ok expression) : expression.Harmless lexicon := by
  unfold label at made
  split at made
  · rename_i synonym named
    cases made
    exact (Expression.harmless_iri _).2 (valid.synonym synonym named).isReference
  · rename_i predicate _ named
    cases made
    exact (Expression.harmless_iri _).2
      (valid.path predicate (Sparql.Path.mem_predicates_of_predicate? named)).isReference
  · split at made
    · cases made
      exact Expression.harmless_literal trivial
    · cases made

theorem harmless_branch {shape : String} {scope next : Scope} {path : ShapePath} {group : Group}
    (known : scope.Known lexicon) (valid : path.IsValid)
    (made : branch shape scope path = .ok (group, next)) :
    Group.Harmless lexicon group ∧ next.stem = scope.stem := by
  obtain ⟨⟨fragment, after⟩, lowered, further⟩ := bind_ok.1 made
  have single : (single shape path).IsValid lexicon :=
    { paths := List.forall_mem_singleton.2 valid
      choices := fun _ member => absurd member List.not_mem_nil
      classes := fun _ member => absurd member List.not_mem_nil
      filters := fun _ member => absurd member List.not_mem_nil }
  have plain : Lowering.Plain lowering := ⟨by decide, rfl⟩
  obtain ⟨harmless, stem⟩ := Lowering.harmless_property plain (harmless_focus own) known single
    (mapError_ok.1 lowered)
  dsimp only at further
  split at further
  · cases further
  · rename_i terminal found
    obtain ⟨node, ended, read⟩ := Option.bind_eq_some_iff.1 found
    obtain ⟨title, named, total⟩ := bind_ok.1 further
    cases total
    refine ⟨(Group.harmless_append _ _).2 ⟨harmless.pattern, List.forall_mem_cons.2
      ⟨(Element.harmless_bind _ _).2 ⟨harmless_label valid named,
        names_known own (by decide)⟩,
      List.forall_mem_singleton.2 ((Element.harmless_bind _ _).2
        ⟨Filter.harmless_expression? (harmless.terminal node ended) read,
          names_known own (by decide)⟩)⟩⟩, stem⟩

theorem harmless_branches {shape : String} {scope : Scope} {paths : List ShapePath}
    {groups : List Group} (known : scope.Known lexicon) (valid : ∀ path ∈ paths, path.IsValid)
    (made : branches shape scope paths = .ok groups) :
    ∀ group ∈ groups, Group.Harmless lexicon group := by
  induction paths generalizing scope groups with
  | nil =>
    cases made
    exact fun _ member => absurd member List.not_mem_nil
  | cons path rest inductionHypothesis =>
    rw [List.forall_mem_cons] at valid
    obtain ⟨⟨first, next⟩, firstMade, further⟩ := bind_ok.1 made
    obtain ⟨others, othersMade, total⟩ := bind_ok.1 further
    cases total
    obtain ⟨harmless, stem⟩ := harmless_branch own known valid.1 firstMade
    refine List.forall_mem_cons.2 ⟨harmless, ?_⟩
    exact inductionHypothesis (fun slot => stem ▸ known slot) valid.2 othersMade

omit own in
theorem harmless_alternatives {groups : List Group}
    (harmless : ∀ group ∈ groups, Group.Harmless lexicon group) :
    Group.Harmless lexicon (alternatives groups) := by
  unfold alternatives
  split
  · exact List.forall_mem_singleton.1 harmless
  · exact List.forall_mem_singleton.2 ((Element.harmless_union _).2 harmless)

theorem harmless_template : ∀ triple ∈ template, triple.Harmless lexicon := by
  have facet : (Term.blank "facet").Harmless lexicon :=
    (Term.harmless_blank _).2 (own.labels _ (by decide))
  have told {predicate : Iri} {value : Variable} (reference : IsReference predicate.text)
      (known : value.name ∈ Sparql.Lexer.filterFrames ++ Sparql.Lexer.listingFrames) :
      TemplateTriple.Harmless lexicon ⟨.blank "facet", .iri predicate, .var value⟩ :=
    harmless_templateTriple facet reference (harmless_known own known)
  refine List.forall_mem_cons.2 ⟨told (by decide) (by decide),
    List.forall_mem_cons.2 ⟨told (by decide) (by decide),
      List.forall_mem_singleton.2 (told (by decide) (by decide))⟩⟩

theorem harmless_query {shape : PropertyShape} {selection : Group} {query : Query}
    (valid : shape.IsValid lexicon) (harmless : Group.Harmless lexicon selection)
    (made : Facet.query shape selection = .ok query) : query.Harmless lexicon := by
  unfold Facet.query at made
  dsimp only at made
  split at made
  · cases made
  · obtain ⟨groups, groupsMade, total⟩ := bind_ok.1 made
    cases total
    have paths : ∀ path ∈ shape.paths ++ shape.choices, path.IsValid :=
      List.forall_mem_append.2 ⟨valid.paths, valid.choices⟩
    have branches := harmless_branches own (ShapeKind.known_start own _ 0) paths groupsMade
    have name : lexicon.names Facet.name.name := names_known own (by decide)
    have value : lexicon.names Facet.value.name := names_known own (by decide)
    have count : lexicon.names Facet.count.name := names_known own (by decide)
    have selected : (distinctly [.var Shape.focusNode] (resources selection) .empty).Harmless
        lexicon :=
      harmless_distinctly (List.forall_mem_singleton.2
        ((Projection.harmless_var _).2 (names_focusNode own))) (harmless_resources own harmless)
        Modifier.harmless_empty
    refine Query.harmless_ofTemplate (harmless_template own) (List.forall_mem_singleton.2
      (harmless_solutions ?_ (List.forall_mem_cons.2 ⟨selected, harmless_alternatives branches⟩)
        ⟨?_, fun _ member => absurd member List.not_mem_nil⟩))
    · exact List.forall_mem_cons.2 ⟨(Projection.harmless_var _).2 name, List.forall_mem_cons.2
        ⟨(Projection.harmless_var _).2 value, List.forall_mem_singleton.2
          ((Projection.harmless_expression _ _).2 ⟨harmless_resourceCount own, count⟩)⟩⟩
    · exact List.forall_mem_cons.2 ⟨name, List.forall_mem_singleton.2 value⟩

end Facet

/-! ### Orders -/

theorem OrderValue.names_toVariable (value : OrderValue) : lexicon.names value.toVariable.name := by
  cases value with
  | _ => exact names_known own (by decide)

theorem Order.harmless_condition (order : Order) : order.condition.key.Harmless lexicon := by
  have named := order.value.names_toVariable own
  have text : Sparql.Function.str.lexeme.IsHarmless lexicon :=
    (by decide : "STR" ∈ Sparql.Lexer.keywords)
  have key : order.value.key.Harmless lexicon := by
    cases value : order.value with
    | weight =>
      rw [value] at named
      exact (Expression.harmless_var _).2 named
    | _ =>
      rw [value] at named
      exact (Expression.harmless_call _ _).2 ⟨text, List.forall_mem_singleton.2
        ((Expression.harmless_var _).2 named)⟩
  unfold Order.condition
  split
  · exact key
  · exact key

omit own in
/-- The predicate of an order is one that the request names or the usual one. -/
theorem Parameters.isReference_of_order {parameters : Parameters} {usual : Option Iri}
    {search : Bool} {order : Option Order} (known : ∀ iri ∈ usual, IsReference iri.text)
    (made : parameters.order usual search = .ok order) :
    ∀ ordered ∈ order, ∀ iri ∈ ordered.predicate, IsReference iri.text := by
  obtain ⟨named, read, total⟩ := bind_ok.1 made
  cases total
  have namedKnown : ∀ iri ∈ named, IsReference iri.text := by
    unfold orderPredicate at read
    split at read
    · cases read
      exact fun _ member => by cases member
    · split at read
      · rename_i accepted
        cases read
        exact fun _ member => Option.some.inj member ▸ Iri.isReference_of_ofText accepted
      · cases read
  have eitherKnown : ∀ iri ∈ named <|> usual, IsReference iri.text := by
    intro iri member
    cases named with
    | none => exact known iri member
    | some first => exact namedKnown iri member
  have source : ∀ found ∈ parameters.orderSource named usual search,
      ∀ iri ∈ found.2, IsReference iri.text := by
    unfold orderSource
    split
    · exact fun _ member => Option.some.inj member ▸ namedKnown
    · exact fun _ member => Option.some.inj member ▸ fun _ inside => by cases inside
    · exact fun _ member => Option.some.inj member ▸ eitherKnown
    · split
      · exact fun _ member => Option.some.inj member ▸ fun _ inside => by cases inside
      · intro found member iri inside
        obtain ⟨predicate, chosen, rfl⟩ := Option.map_eq_some_iff.1 member
        exact Option.some.inj inside ▸ eitherKnown predicate chosen
  intro ordered member
  obtain ⟨found, chosen, rfl⟩ := Option.map_eq_some_iff.1 member
  exact source found chosen

/-! ### Listings -/

namespace Assembly

/-- The parts of a listing are harmless. -/
structure Harmless (lexicon : Lexicon) (assembly : Assembly) : Prop where
  profile : assembly.profile.Harmless lexicon
  selection : Group.Harmless lexicon assembly.selection
  search : ∀ search ∈ assembly.search, Group.Harmless lexicon search.selection ∧
    ∀ iri ∈ search.predicates, IsReference iri.text
  order : ∀ order ∈ assembly.order, ∀ iri ∈ order.predicate, IsReference iri.text

variable {assembly : Assembly} (harmless : assembly.Harmless lexicon)

include harmless

omit harmless in
theorem harmless_columns : ∀ column ∈ assembly.columns, column.Harmless lexicon := by
  unfold columns
  split
  · exact Search.harmless_columns own
  · exact List.forall_mem_singleton.2 ((Projection.harmless_var _).2 (names_focusNode own))

theorem harmless_selected : Group.Harmless lexicon assembly.selected := by
  unfold selected
  split
  · rename_i search searched
    obtain ⟨within, predicates⟩ := harmless.search search searched
    exact (Group.harmless_append _ _).2 ⟨harmless.selection,
      List.forall_mem_singleton.2 (Search.harmless_matched own within predicates)⟩
  · exact harmless_resources own harmless.selection

omit harmless in
theorem harmless_sliced : assembly.sliced.Harmless lexicon := by
  unfold sliced
  split
  · exact Modifier.harmless_empty
  · split
    · exact Search.harmless_pageModifier own _
    · exact ⟨fun _ member => absurd member List.not_mem_nil,
        fun _ member => absurd member List.not_mem_nil⟩

omit own harmless in
theorem isReference_of_orderPredicate {order : Order} {searching : Bool} {found : Option Iri}
    (known : ∀ iri ∈ order.predicate, IsReference iri.text)
    (made : orderPredicate order searching = .ok found) :
    ∀ iri ∈ found, IsReference iri.text := by
  unfold orderPredicate at made
  split at made
  · split at made
    · cases made
      exact fun _ member => by cases member
    · cases made
  · rename_i predicate named _
    cases made
    exact fun _ member => Option.some.inj member ▸ known predicate named
  · cases made
    exact fun _ member => Option.some.inj member ▸
      (isReference_ofList (by decide) : IsReference Vocabulary.rdfsLabel.text)
  · cases made

theorem harmless_pageSelection {selection : Element}
    (made : assembly.pageSelection = .ok selection) : selection.Harmless lexicon := by
  have columns : ∀ column ∈ assembly.columns, column.Harmless lexicon := harmless_columns own
  have selected := harmless_selected own harmless
  have sliced : assembly.sliced.Harmless lexicon := harmless_sliced own
  unfold pageSelection at made
  split at made
  · cases made
    exact harmless_distinctly columns selected sliced
  · rename_i order ordered
    have modifier : Modifier.Harmless lexicon
        { assembly.sliced with orderBy := [order.condition] } :=
      ⟨sliced.groups, List.forall_mem_singleton.2 (order.harmless_condition own)⟩
    obtain ⟨found, foundMade, further⟩ := bind_ok.1 made
    have known := isReference_of_orderPredicate (harmless.order order ordered) foundMade
    cases found with
    | none =>
      cases further
      exact harmless_distinctly columns selected modifier
    | some predicate =>
      cases further
      have named := order.value.names_toVariable own
      refine harmless_distinctly (List.forall_mem_append.2 ⟨columns,
        List.forall_mem_singleton.2 ((Projection.harmless_var _).2 named)⟩)
        ((Group.harmless_append _ _).2 ⟨selected, List.forall_mem_singleton.2 ?_⟩) modifier
      exact Filter.harmless_predicateTriple (harmless_focus own) (known predicate rfl)
        ((Term.harmless_var _).2 named)

theorem harmless_query {query : Query} (made : assembly.query = .ok query) :
    query.Harmless lexicon := by
  unfold Assembly.query at made
  split at made
  · cases made
    exact Query.harmless_ofTemplate harmless.profile.template harmless.profile.pattern
  · obtain ⟨selection, selectionMade, total⟩ := bind_ok.1 made
    cases total
    refine Query.harmless_ofTemplate ?_ (List.forall_mem_cons.2
      ⟨harmless_pageSelection own harmless selectionMade, harmless.profile.pattern⟩)
    unfold template
    split
    · exact List.forall_mem_append.2 ⟨harmless.profile.template, Search.harmless_template own⟩
    · exact harmless.profile.template

end Assembly

end Own

end ShapeQuery.Listing
