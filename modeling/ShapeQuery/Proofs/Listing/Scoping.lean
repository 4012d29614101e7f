/-
This file proves that listings keep to the rules of scopes. The names of selections are compound,
but for the moment of a resource, while those that counts, searches, facets and orders make up are
single words or told apart from compound ones, so that the two never meet.
-/
import ShapeQuery.Listing.Assembly
import ShapeQuery.Listing.Count
import ShapeQuery.Listing.Facet
import ShapeQuery.Listing.Restriction
import ShapeQuery.Proofs.Filter.Scoping

namespace ShapeQuery.Listing

open ShapeQuery.Filter (Compound)
open Sparql (Term Variable Group Element Expression Projection Modifier Query TemplateTriple Select
  TriplePattern OrderCondition groupScope groupScope_append groupWellScoped groupWellScoped_append
  columnsWellScoped criteriaWellScoped mem_groupScope)
open Shape (Scope)
open Success (bind_ok mapError_ok)

/-! ### Selections -/

/-- Whether selections may name a variable. -/
def IsSelecting (name : Variable) : Prop :=
  name.IsCompound ∨ name = TimeSpan.datetime

instance (name : Variable) : Decidable (IsSelecting name) :=
  inferInstanceAs (Decidable (_ ∨ _))

/-- Whether a group is settled and names what selections may name only. -/
abbrev Selecting (group : Group) : Prop :=
  group.ScopedIn IsSelecting

theorem selecting_of_compound {group : Group} (kept : Compound group) : Selecting group :=
  kept.mono fun _ => .inl

theorem wellScoped_select {distinct : Bool} {columns : List Projection} {group : Group}
    {modifier : Modifier} (pattern : groupWellScoped [] group)
    (columnsWellScoped : columnsWellScoped columns)
    (criteria : criteriaWellScoped modifier.orderBy)
    (fresh : ∀ value target, .expression value target ∈ columns → target ∉ groupScope group)
    (ordered : ∀ criterion ∈ modifier.orderBy, ∀ name,
      .var name ∈ Sparql.Atom.unknowns criterion.atoms → name ∈ columns.map Projection.target)
    (grouped : columns.any Projection.aggregates = true → ∀ name, .var name ∈ columns →
      name ∈ modifier.groupBy) :
    (Element.select ⟨distinct, some columns, group, modifier⟩).WellScoped := by
  obtain ⟨groupBy, orderBy, limit, offset⟩ := modifier
  exact ⟨pattern, columnsWellScoped, criteria, fresh, ordered, grouped⟩

theorem selecting_typed : Selecting [typed] :=
  selecting_of_compound (Filter.scoped_triple Filter.compound_focus rfl
    (List.forall_mem_singleton.2 (by decide : focusClass.IsCompound)))

theorem selecting_resources {selection : Group} (kept : Selecting selection) :
    Selecting (resources selection) := by
  unfold resources
  split
  · exact selecting_typed
  · exact kept

theorem compound_inBox {values : List Number.Binary64} {system : String}
    {target : Filter.SpatialTarget} {group : Group}
    (lowered : inBox values system target focus = .ok group) : Compound group := by
  obtain ⟨geometry, -, related⟩ := bind_ok.1 (mapError_ok.1 lowered)
  exact Filter.SpatialFilter.compound_lower Filter.compound_focus related

theorem selecting_lower (span : TimeSpan) (predicate : Iri) :
    Selecting (span.lower predicate focus) := by
  have moment : IsSelecting TimeSpan.datetime := .inr rfl
  have triple : Selecting [.ofTriple focus (.predicate predicate) (.var TimeSpan.datetime)] :=
    .triple (List.forall_mem_cons.2
      ⟨.inl (by decide : Shape.focusNode.IsCompound), List.forall_mem_singleton.2 moment⟩)
  have conditions : Selecting (span.comparisons.map fun bound =>
      Element.filter (.compare (.var TimeSpan.datetime) bound.1 (.literal bound.2))) :=
    .elements (List.forall_mem_map.2 fun _ _ => .filter (.compare (.var moment) (.literal _)))
  exact .filter (.exists (triple.append conditions))

theorem wellScoped_distinctly {selection : Group} (kept : Selecting selection) :
    (distinctly [.var Shape.focusNode] selection .empty).WellScoped := by
  refine wellScoped_select (kept.settled.wellScoped []) trivial trivial ?_ ?_ ?_
  · intro value target member
    cases List.mem_singleton.1 member
  · exact fun _ member => absurd member List.not_mem_nil
  · exact fun aggregates => absurd aggregates Bool.false_ne_true

/-! ### Queries -/

theorem wellScoped_ofTemplate {template : List TemplateTriple} {pattern : Group}
    {modifier : Modifier} (wellScoped : groupWellScoped [] pattern)
    (shown : ∀ triple ∈ template, ∀ name ∈ triple.names, name ∈ groupScope pattern) :
    (Query.ofTemplate template pattern modifier).WellScoped :=
  ⟨wellScoped, fun triple member => shown triple (List.mem_eraseDups.1 member)⟩

/-- A query for the columns of a selection. -/
theorem wellScoped_ofSelect {template : List TemplateTriple} {columns : List Projection}
    {group : Group} {modifier outer : Modifier}
    (wellScoped : (solutions columns group modifier).WellScoped)
    (shown : ∀ triple ∈ template, ∀ name ∈ triple.names,
      name ∈ columns.map Projection.target) :
    (Query.ofTemplate template [solutions columns group modifier] outer).WellScoped :=
  wellScoped_ofTemplate ((Group.Settled.single wellScoped rfl).wellScoped [])
    fun triple member name named => List.mem_append_left _ (shown triple member name named)

/-! ### Counts -/

theorem Count.wellScoped_query {selection : Group} (kept : Selecting selection) :
    (Count.query selection).WellScoped := by
  have resources := selecting_resources kept
  refine wellScoped_ofSelect (wellScoped_select (resources.settled.wellScoped [])
    ⟨trivial, trivial⟩ trivial ?_ ?_ ?_) (by decide)
  · intro value target member
    cases List.mem_singleton.1 member
    exact fun inside => absurd (resources.owned _ inside) (by decide)
  · exact fun _ member => absurd member List.not_mem_nil
  · intro _ name member
    cases List.mem_singleton.1 member

/-! ### Searches -/

namespace Search

theorem wellScoped_branch (term : String) (tier : Tier) : groupWellScoped [] (branch term tier) := by
  have condition : (condition term tier).WellScoped := by
    cases tier with
    | whole => exact ⟨⟨trivial, trivial⟩, trivial⟩
    | _ => exact ⟨trivial, trivial, trivial, trivial⟩
  refine ⟨trivial, fun _ member => (by cases member), trivial, ?_, condition, fun _ member =>
    (by cases member), trivial⟩
  intro target member
  cases member
  decide

theorem wellScoped_matched {search : Search} (kept : Selecting search.selection) :
    search.matched.WellScoped := by
  have tiers : (Element.union (Tier.all.map (branch search.term))).WellScoped :=
    (Sparql.branchesWellScoped_iff _).2
      (List.forall_mem_map.2 fun tier _ => wellScoped_branch search.term tier)
  have group : Group.Settled (search.selection ++
      [.column predicate (search.predicates.map .iri),
        .union (Tier.all.map (branch search.term))]) :=
    kept.settled.append (.cons trivial rfl (.single tiers rfl))
  refine wellScoped_select (group.wellScoped []) ⟨trivial, trivial⟩ trivial ?_ ?_ ?_
  · intro value target member
    have named : value = .sum false (.var tierWeight) ∧ target = weight := by
      simpa using member
    rw [named.2]
    intro inside
    rw [groupScope_append] at inside
    rcases List.mem_append.1 inside with selected | matched
    · exact absurd (kept.owned _ selected) (by decide)
    · revert matched
      show weight ∉ [predicate, Shape.focusNode, predicate, found, tierWeight, Shape.focusNode,
        predicate, found, tierWeight, Shape.focusNode, predicate, found, tierWeight]
      decide
  · exact fun _ member => absurd member List.not_mem_nil
  · intro _ name member
    simpa using member

theorem wellScoped_columns : columnsWellScoped columns :=
  have texts : Sparql.listWellScoped (said.map fun column => .call .str [.var column]) :=
    (Sparql.listWellScoped_iff _).2 (List.forall_mem_map.2 fun _ _ => ⟨trivial, trivial⟩)
  ⟨⟨⟨trivial, ⟨texts, trivial⟩, trivial⟩, trivial⟩, trivial⟩

theorem columns_plain : columns.any Projection.aggregates = false := by
  decide

theorem name_of_columns {value : Expression} {target : Variable}
    (member : .expression value target ∈ columns) : target = name := by
  have named : value = hash ∧ target = name := by
    simpa [columns] using member
  exact named.2

theorem wellScoped_query {search : Search} (kept : Selecting search.selection) (page : Page) :
    (search.query page).WellScoped := by
  refine wellScoped_ofSelect (wellScoped_select
    ((Group.Settled.single (wellScoped_matched kept) rfl).wellScoped []) wellScoped_columns
    ⟨trivial, trivial⟩ ?_ ?_ ?_) (by decide)
  · intro value target member
    rw [name_of_columns member]
    show name ∉ [Shape.focusNode, predicate, found, weight]
    decide
  · intro criterion member name named
    cases List.mem_singleton.1 member
    cases List.mem_singleton.1 named
    decide
  · exact fun aggregates => absurd (columns_plain.symm.trans aggregates) Bool.false_ne_true

end Search

/-! ### Facets -/

namespace Facet

/-- The branch of a facet binds its name and its value, which the path does not have in scope. -/
structure BranchScoped (group : Group) : Prop where
  wellScoped : groupWellScoped [Shape.focusNode] group
  scope : ∀ bound ∈ groupScope group, bound.IsCompound ∨ bound = name ∨ bound = value

theorem wellScoped_label {path : ShapePath} {expression : Expression}
    (made : label path = .ok expression) : expression.WellScoped := by
  unfold label at made
  split at made
  · cases made
    trivial
  · cases made
    trivial
  · split at made
    · cases made
      trivial
    · cases made

theorem scoped_branch {shape : String} {scope next : Scope} {path : ShapePath} {group : Group}
    (step : path.path.hops ≠ 0) (filled : path.path.Filled)
    (made : branch shape scope path = .ok (group, next)) : BranchScoped group := by
  obtain ⟨⟨fragment, after⟩, lowered, further⟩ := bind_ok.1 made
  have regular : (single shape path).Regular :=
    ⟨List.forall_mem_singleton.2 step, fun _ member => absurd member List.not_mem_nil,
      fun _ member => absurd member List.not_mem_nil⟩
  have followable : (single shape path).Filled :=
    ⟨List.forall_mem_singleton.2 filled, fun _ member => absurd member List.not_mem_nil⟩
  have plain : Lowering.Plain lowering := ⟨nofun, rfl⟩
  have other (slot : Shape.Slot) : slot.toVariable scope.stem ∉ [Shape.focusNode] :=
    fun member => slot.toVariable_ne_focusNode _ (List.mem_singleton.1 member)
  obtain ⟨-, kept⟩ := Lowering.scoped_property plain other regular followable (mapError_ok.1 lowered)
  have compound : Compound fragment.pattern :=
    kept.pattern.mono fun name reserves => reserves.covers.elim (Filter.compound_focus name) id
  dsimp only at further
  split at further
  · cases further
  · rename_i terminal found
    obtain ⟨title, named, total⟩ := bind_ok.1 further
    cases total
    obtain ⟨node, -, read⟩ := Option.bind_eq_some_iff.1 found
    have nodeScoped : terminal.WellScoped := by
      cases node with
      | blank label => cases read
      | _ =>
        cases read
        trivial
    refine ⟨(groupWellScoped_append _ _ _).2 ⟨compound.settled.wellScoped _, wellScoped_label named,
      ?_, nodeScoped, ?_, trivial⟩, ?_⟩
    · intro target member
      cases member
      intro inside
      rcases List.mem_append.1 inside with before | inFragment
      · revert before
        decide
      · exact absurd (compound.owned _ inFragment) (by decide)
    · intro target member
      cases member
      intro inside
      rcases List.mem_append.1 inside with before | bound
      · rcases List.mem_append.1 before with focus | inFragment
        · revert focus
          decide
        · exact absurd (compound.owned _ inFragment) (by decide)
      · revert bound
        show value ∉ [name]
        decide
    · rw [groupScope_append]
      refine List.forall_mem_append.2 ⟨fun bound inFragment => .inl ?_, ?_⟩
      · exact compound.owned bound inFragment
      · exact List.forall_mem_cons.2 ⟨.inr (.inl rfl), List.forall_mem_singleton.2 (.inr (.inr rfl))⟩

theorem scoped_branches {shape : String} {scope : Scope} {paths : List ShapePath}
    {groups : List Group} (steps : ∀ path ∈ paths, path.path.hops ≠ 0)
    (filled : ∀ path ∈ paths, path.path.Filled)
    (made : branches shape scope paths = .ok groups) : ∀ group ∈ groups, BranchScoped group := by
  induction paths generalizing scope groups with
  | nil =>
    cases made
    exact fun _ member => absurd member List.not_mem_nil
  | cons path rest inductionHypothesis =>
    rw [List.forall_mem_cons] at steps filled
    obtain ⟨⟨first, next⟩, firstMade, further⟩ := bind_ok.1 made
    obtain ⟨others, othersMade, total⟩ := bind_ok.1 further
    cases total
    exact List.forall_mem_cons.2 ⟨scoped_branch steps.1 filled.1 firstMade,
      inductionHypothesis steps.2 filled.2 othersMade⟩

/-- The facets come after the selected resources, whether they stand alone or in a union. -/
theorem scoped_alternatives {groups : List Group} (kept : ∀ group ∈ groups, BranchScoped group) :
    BranchScoped (alternatives groups) := by
  unfold alternatives
  split
  · rename_i only
    exact kept only List.mem_cons_self
  · refine ⟨⟨(Sparql.branchesWellScoped_iff _).2 fun group member => ?_,
      fun _ member => (by cases member), trivial⟩, fun bound member => ?_⟩
    · exact Sparql.groupWellScoped_mono (fun _ member => absurd member List.not_mem_nil)
        (kept group member).wellScoped
    · obtain ⟨group, among, inside⟩ :=
        Sparql.mem_branchScope.1 ((List.append_nil _) ▸ (show bound ∈ _ ++ [] from member))
      exact (kept group among).scope bound inside

theorem wellScoped_query {shape : PropertyShape} {selection : Group} {query : Query}
    (steps : ∀ path ∈ shape.paths ++ shape.choices, path.path.hops ≠ 0)
    (filled : ∀ path ∈ shape.paths ++ shape.choices, path.path.Filled)
    (kept : Selecting selection) (made : Facet.query shape selection = .ok query) :
    query.WellScoped := by
  unfold Facet.query at made
  dsimp only at made
  split at made
  · cases made
  · obtain ⟨groups, groupsMade, total⟩ := bind_ok.1 made
    cases total
    have facets := scoped_alternatives (scoped_branches steps filled groupsMade)
    have selected := wellScoped_distinctly (selecting_resources kept)
    refine wellScoped_ofSelect (wellScoped_select
      ⟨selected, fun _ member => (by cases member), facets.wellScoped⟩
      ⟨trivial, trivial⟩ trivial ?_ ?_ ?_) (by decide)
    · intro value target member
      have named : value = resourceCount ∧ target = count := by
        simpa using member
      rw [named.2]
      intro inside
      rcases List.mem_append.1 inside with focus | bound
      · revert focus
        show count ∉ [Shape.focusNode]
        decide
      · rcases facets.scope _ bound with compound | same | same
        · exact absurd compound (by decide)
        · exact absurd same (by decide)
        · exact absurd same (by decide)
    · exact fun _ member => absurd member List.not_mem_nil
    · intro _ name member
      simpa using member

end Facet

/-! ### Listings -/

namespace Assembly

/-- The parts of a listing keep to their names. -/
structure Scoped (assembly : Assembly) : Prop where
  profile : assembly.profile.Scoped Sparql.Variable.IsCompound
  selection : Selecting assembly.selection
  search : ∀ search ∈ assembly.search, Selecting search.selection

/-- What a listing calls the resources and what it searches for. -/
def IsPlain (name : Variable) : Prop :=
  IsSelecting name ∨ name ∈ Search.said ∨ ∃ value : OrderValue, name = value.toVariable

variable {assembly : Assembly} (kept : assembly.Scoped)

theorem wellScoped_columns : columnsWellScoped assembly.columns := by
  unfold columns
  split
  · exact Search.wellScoped_columns
  · exact trivial

theorem columns_plain : assembly.columns.any Projection.aggregates = false := by
  unfold columns
  split
  · exact Search.columns_plain
  · rfl

theorem name_of_columns {value : Expression} {target : Variable}
    (member : .expression value target ∈ assembly.columns) : target = Search.name := by
  unfold columns at member
  split at member
  · exact Search.name_of_columns member
  · cases List.mem_singleton.1 member

theorem weight_mem_columns (searching : assembly.search.isSome) :
    Search.weight ∈ assembly.columns.map Projection.target := by
  obtain ⟨search, searched⟩ := Option.isSome_iff_exists.1 searching
  rw [columns, searched]
  show Search.weight ∈ Search.columns.map Projection.target
  decide

theorem criteria_sliced (assembly : Assembly) : criteriaWellScoped assembly.sliced.orderBy := by
  unfold sliced
  split
  · trivial
  · split
    · exact ⟨trivial, trivial⟩
    · trivial

theorem ordered_sliced : ∀ criterion ∈ assembly.sliced.orderBy, ∀ name,
    .var name ∈ Sparql.Atom.unknowns criterion.atoms →
      name ∈ assembly.columns.map Projection.target := by
  unfold sliced
  split
  · exact fun _ member => absurd member List.not_mem_nil
  · split
    · rename_i search searched
      refine List.forall_mem_singleton.2 fun name named => ?_
      cases List.mem_singleton.1 named
      exact weight_mem_columns (by rw [searched]; rfl)
    · exact fun _ member => absurd member List.not_mem_nil

/-- An order without a predicate is one by weight, which only searches have. -/
theorem weight_of_orderPredicate {order : Order} {searching : Bool}
    (made : orderPredicate order searching = .ok none) :
    order.value = .weight ∧ searching = true := by
  unfold orderPredicate at made
  split at made
  · rename_i weight
    split at made
    · rename_i searches
      exact ⟨weight, searches⟩
    · cases made
  · cases made
  · cases made
  · cases made

include kept

theorem plain_selected :
    assembly.selected.Settled ∧ ∀ name ∈ groupScope assembly.selected, IsPlain name := by
  unfold selected
  split
  · rename_i search searched
    have found := Search.wellScoped_matched (kept.search search searched)
    refine ⟨kept.selection.settled.append (.single found rfl), ?_⟩
    rw [groupScope_append]
    refine List.forall_mem_append.2 ⟨fun name member => .inl (kept.selection.owned name member), ?_⟩
    exact fun name member => .inr (.inl member)
  · have resources := selecting_resources kept.selection
    exact ⟨resources.settled, fun name member => .inl (resources.owned name member)⟩

omit kept in
theorem name_not_isPlain : ¬ IsPlain Search.name := by
  rintro (selecting | said | ⟨value, same⟩)
  · exact absurd selecting (by decide)
  · exact absurd said (by decide)
  · revert same
    cases value <;> decide

omit kept in
theorem ordered_condition (order : Order) :
    criteriaWellScoped [order.condition] ∧
      ∀ name, .var name ∈ Sparql.Atom.unknowns order.condition.atoms →
        name = order.value.toVariable := by
  obtain ⟨predicate, value, direction⟩ := order
  cases direction <;> cases value <;>
    exact ⟨⟨by simp [OrderValue.key, Expression.WellScoped], trivial⟩,
      fun name named => by cases List.mem_singleton.1 named; rfl⟩

/-- The selection of a page. It may have further columns, a further pattern and an order of its
own. -/
theorem wellScoped_page (more : List Variable) (modifier : Modifier) {further : Group}
    (settled : further.Settled) (named : ∀ name ∈ groupScope further, IsPlain name)
    (criteria : criteriaWellScoped modifier.orderBy)
    (ordered : ∀ criterion ∈ modifier.orderBy, ∀ name,
      .var name ∈ Sparql.Atom.unknowns criterion.atoms →
        name ∈ assembly.columns.map Projection.target ++ more) :
    (distinctly (assembly.columns ++ more.map .var) (assembly.selected ++ further)
      modifier).WellScoped := by
  obtain ⟨selectedSettled, selectedPlain⟩ := plain_selected kept
  have owned : ∀ name ∈ groupScope (assembly.selected ++ further), IsPlain name := by
    rw [groupScope_append]
    exact List.forall_mem_append.2 ⟨selectedPlain, named⟩
  have plain : (more.map Projection.var).any Projection.aggregates = false := by
    simp [Projection.aggregates]
  refine wellScoped_select ((selectedSettled.append settled).wellScoped [])
    (Sparql.columnsWellScoped_vars wellScoped_columns more) criteria ?_ ?_ ?_
  · intro value target member
    rcases List.mem_append.1 member with column | added
    · rw [name_of_columns column]
      exact fun inside => name_not_isPlain (owned _ inside)
    · obtain ⟨name, -, same⟩ := List.mem_map.1 added
      cases same
  · intro criterion member name named
    rw [List.map_append, List.map_map]
    exact (List.mem_append.1 (ordered criterion member name named)).elim
      (List.mem_append_left _) fun added =>
        List.mem_append_right _ (List.mem_map.2 ⟨name, added, rfl⟩)
  · intro aggregates
    rw [List.any_append, columns_plain, plain] at aggregates
    exact absurd aggregates Bool.false_ne_true

theorem wellScoped_pageSelection {selection : Element}
    (made : assembly.pageSelection = .ok selection) :
    selection.WellScoped ∧ selection.target? = none ∧
      ∀ name ∈ assembly.columns.map Projection.target, name ∈ selection.scope := by
  unfold pageSelection at made
  split at made
  · cases made
    refine ⟨?_, rfl, fun _ member => member⟩
    have page := wellScoped_page kept [] assembly.sliced .nil
      (fun _ member => absurd member List.not_mem_nil) (criteria_sliced assembly) ?_
    · simpa using page
    · simpa using ordered_sliced
  · rename_i order ordered
    obtain ⟨criteria, mentions⟩ := ordered_condition order
    obtain ⟨found, foundMade, further⟩ := bind_ok.1 made
    cases found with
    | none =>
      cases further
      refine ⟨?_, rfl, fun _ member => member⟩
      have page := wellScoped_page kept []
        { assembly.sliced with orderBy := [order.condition] } .nil
        (fun _ member => absurd member List.not_mem_nil) criteria ?_
      · simpa using page
      · refine List.forall_mem_singleton.2 fun name named => List.mem_append_left _ ?_
        obtain ⟨weight, searching⟩ := weight_of_orderPredicate foundMade
        rw [mentions name named, weight]
        exact weight_mem_columns searching
    | some predicate =>
      cases further
      refine ⟨?_, rfl, fun name member => ?_⟩
      · refine wellScoped_page kept [order.value.toVariable] _ (.single trivial rfl) ?_ criteria ?_
        · exact List.forall_mem_cons.2 ⟨.inl (by decide),
            List.forall_mem_singleton.2 (.inr (.inr ⟨order.value, rfl⟩))⟩
        · refine List.forall_mem_singleton.2 fun name named => List.mem_append_right _ ?_
          exact List.mem_singleton.2 (mentions name named)
      · show name ∈ (assembly.columns ++ _).map Projection.target
        rw [List.map_append]
        exact List.mem_append_left _ member

theorem wellScoped_query {query : Query} (made : assembly.query = .ok query) :
    query.WellScoped := by
  unfold Assembly.query at made
  split at made
  · cases made
    exact wellScoped_ofTemplate (kept.profile.pattern.settled.wellScoped []) kept.profile.shown
  · obtain ⟨selection, selectionMade, total⟩ := bind_ok.1 made
    cases total
    obtain ⟨wellScoped, free, columns⟩ := wellScoped_pageSelection kept selectionMade
    refine wellScoped_ofTemplate
      ((kept.profile.pattern.settled.cons wellScoped free).wellScoped []) fun triple member => ?_
    have profile (listed : triple ∈ assembly.profile.template) :
        ∀ name ∈ triple.names, name ∈ groupScope (selection :: assembly.profile.pattern) :=
      fun name named => List.mem_append_right _ (kept.profile.shown triple listed name named)
    unfold template at member
    split at member
    · rename_i search searched
      rcases List.mem_append.1 member with listed | result
      · exact profile listed
      · intro name named
        refine List.mem_append_left _ (columns name ?_)
        have shown : ∀ triple ∈ Search.template, ∀ name ∈ triple.names,
            name ∈ Search.columns.map Projection.target := by decide
        rw [Assembly.columns, searched]
        exact shown triple result name named
    · exact profile member

end Assembly

end ShapeQuery.Listing
