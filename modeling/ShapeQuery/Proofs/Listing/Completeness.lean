/-
This file proves that listings, counts, facets and searches are put together from complete parts:
their selections have columns, their unions have branches, and their functions as many arguments as
they take.
-/
import ShapeQuery.Listing.Assembly
import ShapeQuery.Listing.Count
import ShapeQuery.Listing.Facet
import ShapeQuery.Listing.Restriction
import ShapeQuery.Proofs.Filter.Completeness

namespace ShapeQuery.Listing

open Sparql (Term Variable Group Element Expression Projection Modifier Query TemplateTriple)
open Shape (Scope)
open Success (bind_ok mapError_ok)

/-! ### Restrictions -/

theorem complete_lower (span : TimeSpan) (predicate : Iri) (focus : Term) :
    Group.Complete (span.lower predicate focus) := by
  refine List.forall_mem_singleton.2 ((Element.complete_filter _).2
    ((Expression.complete_exists _).2 ((Group.complete_cons _ _).2
      ⟨Sparql.Verb.complete_predicate predicate, ?_⟩)))
  refine List.forall_mem_map.2 fun comparison _ => ?_
  simp

theorem complete_inBox {values : List Number.Binary64} {system : String}
    {target : Filter.SpatialTarget} {focus : Term} {group : Group}
    (lowered : inBox values system target focus = .ok group) : group.Complete := by
  obtain ⟨geometry, -, related⟩ := bind_ok.1 (mapError_ok.1 lowered)
  exact Filter.SpatialFilter.complete_lower related

/-! ### Selections -/

theorem complete_resources {selection : Group} (complete : selection.Complete) :
    (resources selection).Complete := by
  unfold resources
  split
  · exact List.forall_mem_singleton.2 (Sparql.Verb.complete_predicate Vocabulary.rdfType)
  · exact complete

theorem complete_resourceCount : resourceCount.Complete :=
  rfl

section

variable {columns : List Projection} {group : Group} {modifier : Modifier} (given : columns ≠ [])
  (each : ∀ column ∈ columns, column.Complete) (groupComplete : group.Complete)
  (complete : modifier.Complete)

include given each groupComplete complete

theorem complete_solutions : (solutions columns group modifier).Complete :=
  (Element.complete_select _ _ _ _).2 ⟨⟨given, each⟩, groupComplete, complete⟩

theorem complete_distinctly : (distinctly columns group modifier).Complete :=
  (Element.complete_select _ _ _ _).2 ⟨⟨given, each⟩, groupComplete, complete⟩

end

/-! ### Counts -/

theorem Count.complete_query {selection : Group} (complete : selection.Complete) :
    (Count.query selection).Complete := by
  refine Query.complete_ofTemplate (List.forall_mem_singleton.2 (TemplateTriple.complete_iri _ _ _))
    (List.forall_mem_singleton.2 (complete_solutions (List.cons_ne_nil _ _) ?_
      (complete_resources complete) Modifier.complete_empty))
  exact List.forall_mem_singleton.2 ((Projection.complete_expression _ _).2 complete_resourceCount)

/-! ### Searches -/

namespace Search

theorem complete_condition (term : String) (tier : Tier) : (condition term tier).Complete := by
  cases tier with
  | _ => simp [condition, matching, Sparql.Function.accepts]

theorem complete_branch (term : String) (tier : Tier) : Group.Complete (branch term tier) := by
  simp [branch, complete_condition]

theorem complete_hash : hash.Complete := by
  simp [hash, said, Sparql.Function.accepts]

theorem columns_ne_nil : columns ≠ [] := by
  simp [columns, said]

theorem complete_columns : ∀ column ∈ columns, column.Complete := by
  refine List.forall_mem_append.2
    ⟨List.forall_mem_map.2 fun name _ => Projection.complete_var name, ?_⟩
  exact List.forall_mem_singleton.2 ((Projection.complete_expression _ _).2 complete_hash)

theorem complete_template : ∀ triple ∈ template, triple.Complete := by
  simp [template]

theorem complete_pageModifier (page : Page) : (pageModifier page).Complete :=
  List.forall_mem_singleton.2 (Expression.complete_var weight)

variable {search : Search} (complete : search.selection.Complete)

include complete

/-- A search within a complete selection is complete: there is a branch for each tier. -/
theorem complete_matched : search.matched.Complete := by
  have tiers : (Element.union (Tier.all.map (branch search.term))).Complete :=
    (Element.complete_union _).2
      ⟨by simp [Tier.all], List.forall_mem_map.2 fun tier _ => complete_branch _ tier⟩
  have modifier : Modifier.Complete
      ⟨[Shape.focusNode, Search.predicate, Search.found], [], none, none⟩ :=
    fun _ member => absurd member List.not_mem_nil
  refine complete_solutions (List.cons_ne_nil _ _) ?_ ((Group.complete_append _ _).2
    ⟨complete, (Group.complete_cons _ _).2 ⟨Element.complete_column _ _,
      List.forall_mem_singleton.2 tiers⟩⟩) modifier
  simp

theorem complete_query (page : Page) : (search.query page).Complete :=
  Query.complete_ofTemplate complete_template (List.forall_mem_singleton.2
    (complete_solutions columns_ne_nil complete_columns
      (List.forall_mem_singleton.2 (complete_matched complete)) (complete_pageModifier page)))

end Search

/-! ### Facets -/

namespace Facet

theorem complete_label {path : ShapePath} {expression : Expression}
    (made : label path = .ok expression) : expression.Complete := by
  unfold label at made
  split at made
  · cases made
    rfl
  · cases made
    rfl
  · split at made
    · cases made
      rfl
    · cases made

theorem complete_branch {shape : String} {scope next : Scope} {path : ShapePath} {group : Group}
    (complete : path.path.Complete) (made : branch shape scope path = .ok (group, next)) :
    group.Complete := by
  obtain ⟨⟨fragment, after⟩, lowered, further⟩ := bind_ok.1 made
  have single : (single shape path).Complete :=
    { paths := List.forall_mem_singleton.2 complete
      choices := fun _ member => absurd member List.not_mem_nil
      filters := fun _ member => absurd member List.not_mem_nil }
  have kept := Lowering.complete_property single (mapError_ok.1 lowered)
  dsimp only at further
  split at further
  · cases further
  · rename_i terminal found
    obtain ⟨node, -, read⟩ := Option.bind_eq_some_iff.1 found
    obtain ⟨title, named, total⟩ := bind_ok.1 further
    cases total
    refine (Group.complete_append _ _).2 ⟨kept.pattern, List.forall_mem_cons.2
      ⟨(Element.complete_bind _ _).2 (complete_label named), List.forall_mem_singleton.2 ?_⟩⟩
    exact (Element.complete_bind _ _).2 (Term.complete_expression? read)

/-- Every path has a complete branch. -/
theorem complete_branches {shape : String} {scope : Scope} {paths : List ShapePath}
    {groups : List Group} (complete : ∀ path ∈ paths, path.path.Complete)
    (made : branches shape scope paths = .ok groups) :
    groups.length = paths.length ∧ ∀ group ∈ groups, Group.Complete group := by
  induction paths generalizing scope groups with
  | nil =>
    cases made
    exact ⟨rfl, fun _ member => absurd member List.not_mem_nil⟩
  | cons path rest inductionHypothesis =>
    rw [List.forall_mem_cons] at complete
    obtain ⟨⟨first, next⟩, firstMade, further⟩ := bind_ok.1 made
    obtain ⟨others, othersMade, total⟩ := bind_ok.1 further
    cases total
    obtain ⟨many, each⟩ := inductionHypothesis complete.2 othersMade
    exact ⟨congrArg (· + 1) many,
      List.forall_mem_cons.2 ⟨complete_branch complete.1 firstMade, each⟩⟩

theorem complete_alternatives {groups : List Group} (given : groups ≠ [])
    (complete : ∀ group ∈ groups, Group.Complete group) : (alternatives groups).Complete := by
  unfold alternatives
  split
  · exact List.forall_mem_singleton.1 complete
  · exact List.forall_mem_singleton.2 ((Element.complete_union _).2 ⟨given, complete⟩)

/-- The facets of a shape with complete paths are counted by a complete query. A shape without
paths has none. -/
theorem complete_query {shape : PropertyShape} {selection : Group} {query : Query}
    (shapeComplete : shape.Complete) (complete : selection.Complete)
    (made : Facet.query shape selection = .ok query) : query.Complete := by
  unfold Facet.query at made
  dsimp only at made
  split at made
  · cases made
  · rename_i described
    obtain ⟨groups, groupsMade, total⟩ := bind_ok.1 made
    cases total
    obtain ⟨many, each⟩ := complete_branches
      (List.forall_mem_append.2 ⟨shapeComplete.paths, shapeComplete.choices⟩) groupsMade
    have given : groups ≠ [] := by
      rintro rfl
      exact described (List.isEmpty_iff_length_eq_zero.2 many.symm)
    have selected : (distinctly [.var Shape.focusNode] (resources selection) .empty).Complete :=
      complete_distinctly (List.cons_ne_nil _ _)
        (List.forall_mem_singleton.2 (Projection.complete_var _)) (complete_resources complete)
        Modifier.complete_empty
    have modifier : Modifier.Complete ⟨[name, value], [], none, none⟩ :=
      fun _ member => absurd member List.not_mem_nil
    refine Query.complete_ofTemplate (by simp [template]) (List.forall_mem_singleton.2
      (complete_solutions (List.cons_ne_nil _ _) ?_
        (List.forall_mem_cons.2 ⟨selected, complete_alternatives given each⟩) modifier))
    simp [complete_resourceCount]

end Facet

/-! ### Listings -/

theorem Order.complete_condition (order : Order) : order.condition.Complete := by
  have key : order.value.key.Complete := by
    unfold OrderValue.key
    split
    · exact Expression.complete_var _
    · simp [Sparql.Function.accepts]
  unfold Order.condition
  split
  · exact (Sparql.OrderCondition.complete_ascending _).2 key
  · exact (Sparql.OrderCondition.complete_descending _).2 key

namespace Assembly

/-- The parts of a listing are complete. -/
structure Complete (assembly : Assembly) : Prop where
  profile : assembly.profile.Complete
  selection : assembly.selection.Complete
  search : ∀ search ∈ assembly.search, search.selection.Complete

variable {assembly : Assembly}

theorem complete_columns (assembly : Assembly) :
    assembly.columns ≠ [] ∧ ∀ column ∈ assembly.columns, column.Complete := by
  unfold columns
  split
  · exact ⟨Search.columns_ne_nil, Search.complete_columns⟩
  · exact ⟨List.cons_ne_nil _ _, List.forall_mem_singleton.2 (Projection.complete_var _)⟩

theorem complete_sliced : assembly.sliced.Complete := by
  unfold sliced
  split
  · exact Modifier.complete_empty
  · split
    · exact Search.complete_pageModifier _
    · exact fun _ member => absurd member List.not_mem_nil

variable (complete : assembly.Complete)

include complete

theorem complete_selected : assembly.selected.Complete := by
  unfold selected
  split
  · rename_i search found
    exact (Group.complete_append _ _).2 ⟨complete.selection, List.forall_mem_singleton.2
      (Search.complete_matched (complete.search search found))⟩
  · exact complete_resources complete.selection

theorem complete_pageSelection {element : Element}
    (made : assembly.pageSelection = .ok element) : element.Complete := by
  obtain ⟨given, each⟩ := complete_columns assembly
  have selected := complete_selected complete
  unfold pageSelection at made
  split at made
  · cases made
    exact complete_distinctly given each selected complete_sliced
  · rename_i order _
    have ordered : Modifier.Complete { assembly.sliced with orderBy := [order.condition] } :=
      List.forall_mem_singleton.2 order.complete_condition
    obtain ⟨predicate, -, total⟩ := bind_ok.1 made
    cases predicate with
    | none =>
      cases total
      exact complete_distinctly given each selected ordered
    | some predicate =>
      cases total
      have triple : (Element.ofTriple focus (.predicate predicate)
          (.var order.value.toVariable)).Complete := Sparql.Verb.complete_predicate predicate
      refine complete_distinctly (by simp) (List.forall_mem_append.2
        ⟨each, List.forall_mem_singleton.2 (Projection.complete_var _)⟩)
        ((Group.complete_append _ _).2 ⟨selected, List.forall_mem_singleton.2 triple⟩) ordered

theorem complete_template : ∀ triple ∈ assembly.template, triple.Complete := by
  unfold template
  split
  · exact List.forall_mem_append.2 ⟨complete.profile.template, Search.complete_template⟩
  · exact complete.profile.template

/-- A listing of complete parts is complete. -/
theorem complete_query {query : Query} (made : assembly.query = .ok query) : query.Complete := by
  unfold Assembly.query at made
  split at made
  · cases made
    exact Query.complete_ofTemplate complete.profile.template complete.profile.pattern
  · obtain ⟨selection, selectionMade, total⟩ := bind_ok.1 made
    cases total
    exact Query.complete_ofTemplate (complete_template complete) (List.forall_mem_cons.2
      ⟨complete_pageSelection complete selectionMade, complete.profile.pattern⟩)

end Assembly

end ShapeQuery.Listing
