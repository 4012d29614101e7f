/-
This file relates the pages of a listing to the count of its request. Without an order, the pages
run through the counted resources, each of them once. An order is by the values of a predicate, so
that an ordered listing runs through the pairs of a counted resource and such a value: it leaves out
what has no value, and repeats what has several.
-/
import ShapeQuery.Proofs.Compiler.Anchoring
import ShapeQuery.Proofs.Sparql.Selecting

namespace ShapeQuery

open Listing (Order OrderValue Page)
open Sparql (Engine Group Select Solution Query valuesOf mem_valuesOf)
open Success (bind_ok map_ok)

/-- A request for another page of the same resources. -/
def Request.turned (request : Request) (page : Nat) (limit start : Option Nat) : Request :=
  { request with
    parameters := { request.parameters with page := page, limit := limit, startIndex := start } }

namespace Compiler

/-! ### The rows of a listing -/

/-- The rows that the pages of some resources are made of. -/
def rows (group : Group) : Option (Order × Iri) → Select
  | none => ⟨true, some [.var Shape.focusNode], group, .empty⟩
  | some (order, predicate) =>
    ⟨true, some [.var Shape.focusNode, .var order.value.toVariable],
      group ++ [.ofTriple Listing.focus (.predicate predicate) (.var order.value.toVariable)],
      ⟨[], [order.condition], none, none⟩⟩

variable {compiler : Compiler} {profile : NodeShape} {request : Request} {query : Query}

/-- What the resources of a request are ordered by, and the predicate that leads to it. -/
def ordering (compiler : Compiler) (request : Request) :
    Except Listing.BuildError (Option (Order × Iri)) := do
  match ← request.parameters.order compiler.configuration.orderPredicate request.search.isSome with
  | none => return none
  | some order =>
    return (← Listing.Assembly.orderPredicate order request.search.isSome).map fun predicate =>
      (order, predicate)

/-- A listing without a search selects a page of its rows. -/
theorem page_of_listing (unsearched : request.search = none)
    (listed : compiler.listing profile request = .ok query) :
    ∃ (selection : Group) (ordering : Option (Order × Iri)) (slice : Page) (page : Select)
        (described : Group),
      compiler.selection request = .ok selection ∧
      compiler.ordering request = .ok ordering ∧
      compiler.page request.parameters = .ok slice ∧
      query.pattern = .select page :: described ∧
      page.whole = rows (Listing.resources selection) ordering ∧
      page.modifier.limit = some slice.limit ∧ page.modifier.offset = some slice.offset := by
  obtain ⟨fragment, -, further⟩ := bind_ok.1 listed
  obtain ⟨slice, sliced, further⟩ := bind_ok.1 further
  obtain ⟨selection, selected, further⟩ := bind_ok.1 further
  obtain ⟨order, ordered, further⟩ := bind_ok.1 further
  obtain ⟨search, searched, assembled⟩ := bind_ok.1 further
  rw [unsearched] at searched
  cases searched
  obtain ⟨page, paged, total⟩ : ∃ page, Listing.Assembly.pageSelection
      ⟨fragment, selection, none, order, some slice⟩ = .ok page ∧
        .ofTemplate fragment.template (page :: fragment.pattern) .empty = query := by
    unfold Listing.Assembly.query Listing.Assembly.isWhole at assembled
    rw [if_neg (by simp)] at assembled
    obtain ⟨page, paged, total⟩ := bind_ok.1 assembled
    exact ⟨page, paged, Except.ok.inj total⟩
  subst total
  cases order with
  | none =>
    cases paged
    refine ⟨selection, none, slice, _, fragment.pattern, selected, ?_, sliced, rfl, rfl, rfl, rfl⟩
    rw [ordering, ordered]
    rfl
  | some order =>
    obtain ⟨found, foundMade, further⟩ := bind_ok.1 paged
    cases found with
    | none =>
      exact absurd (Listing.Assembly.weight_of_orderPredicate foundMade).2 Bool.false_ne_true
    | some predicate =>
      cases further
      refine ⟨selection, some (order, predicate), slice, _, fragment.pattern, selected, ?_, sliced,
        rfl, rfl, rfl, rfl⟩
      have named : Listing.Assembly.orderPredicate order request.search.isSome =
          .ok (some predicate) := by
        rw [unsearched]
        exact foundMade
      rw [ordering, ordered]
      show (Listing.Assembly.orderPredicate order request.search.isSome).bind _ = _
      rw [named]
      rfl

/-- No selection names what orders name. -/
theorem not_isSelecting_order (value : OrderValue) : ¬ Listing.IsSelecting value.toVariable := by
  cases value <;> decide

/-! ### Agreement -/

/-- The resources that a group has solutions for, each of them once. -/
noncomputable def counted (engine : Engine) (graph : Rdf.Graph) (group : Group) : List Rdf.Term :=
  (valuesOf Shape.focusNode (group.solutions engine graph)).dedup

/-- How the page of a listing and the count of its request agree over a graph. -/
structure Agreement (compiler : Compiler) (profile : NodeShape) (request : Request)
    (page counts : Select) (engine : Engine) (graph : Rdf.Graph) : Prop where
  /-- The count is the number of counted resources. -/
  count : counts.solutions engine graph = [.single Listing.Count.count
    (.literal (.ofInt (counted engine graph counts.pattern).length))]
  /-- Without an order the rows tell the counted resources, each of them once. -/
  unordered : compiler.ordering request = .ok none →
    (valuesOf Shape.focusNode (page.whole.solutions engine graph)).Perm
      (counted engine graph counts.pattern)
  /-- With an order the rows are the pairs of a counted resource and an order value, each of them
  once. The patterns must tell the resource themselves, and not name the order value. -/
  ordered : ∀ (order : Order) (predicate : Iri),
    compiler.ordering request = .ok (some (order, predicate)) →
    .var order.value.toVariable ∉ Group.unknowns counts.pattern →
    (∀ solution ∈ Group.candidates engine graph counts.pattern,
      solution.Binds Shape.focusNode) →
    (page.whole.solutions engine graph).Perm
      (((graph.edges predicate).filter fun edge =>
          edge.1 ∈ counted engine graph counts.pattern).dedup.map fun edge =>
        .pair Shape.focusNode order.value.toVariable edge.1 edge.2)
  /-- Each page of the request is a slice of the same rows. -/
  turned : ∀ (number : Nat) (limit start : Option Nat) (turned : Query),
    compiler.listing profile (request.turned number limit start) = .ok turned →
    ∃ (slice : Page) (next : Select) (described : Group),
      compiler.page (request.turned number limit start).parameters = .ok slice ∧
      turned.pattern = .select next :: described ∧
      next.solutions engine graph =
        ((page.whole.solutions engine graph).drop slice.offset).take slice.limit

/-- A listing without a search and the count of its request agree over every graph. What is read
from graphs never names the variable of an order, and tells the resources if one of the restrictions
asks for something that they must have. -/
theorem listing_agrees_with_count (unsearched : request.search = none) {counting : Query}
    (listed : compiler.listing profile request = .ok query)
    (totalled : compiler.count request = .ok counting) :
    ∃ (page counts : Select) (described : Group),
      query.pattern = .select page :: described ∧ counting.pattern = [.select counts] ∧
      (compiler.ordering request).isOk ∧
      (∀ engine graph, compiler.Agreement profile request page counts engine graph) ∧
      (compiler.IsRead → (∀ shape ∈ request.endpoint, shape.IsRead) →
        (∀ value : OrderValue, .var value.toVariable ∉ Group.unknowns counts.pattern) ∧
        (compiler.selection request = .ok [] ∨ request.Anchors compiler →
          ∀ engine : Engine, engine.Serves → ∀ graph,
            ∀ solution ∈ Group.candidates engine graph counts.pattern,
              solution.Binds Shape.focusNode)) := by
  obtain ⟨selection, ordering, slice, page, described, selected, ordered, -, pattern, whole, -, -⟩ :=
    page_of_listing unsearched listed
  obtain ⟨again, selectedAgain, total⟩ := bind_ok.1 totalled
  cases selected.symm.trans selectedAgain
  cases total
  refine ⟨page, _, described, pattern, rfl, by rw [ordered]; rfl, fun engine graph =>
    ⟨?_, fun without => ?_, fun order predicate within free binds => ?_, ?_⟩, ?_⟩
  · exact Select.solutions_count engine graph Shape.focusNode Listing.Count.count _
  · cases ordered.symm.trans without
    rw [whole]
    exact Select.perm_valuesOf engine graph Shape.focusNode _ []
  · cases ordered.symm.trans within
    rw [whole]
    exact Select.perm_solutions_pairs engine graph free (by cases order.value <;> decide) binds _
  · intro number limit start turned listedTurned
    obtain ⟨same, sameOrdering, slice, next, described, sameSelected, sameOrdered, sliced, pattern,
      nextWhole, limited, offset⟩ :=
        @page_of_listing compiler profile (request.turned number limit start) _ unsearched listedTurned
    cases selected.symm.trans sameSelected
    cases ordered.symm.trans sameOrdered
    refine ⟨slice, next, described, sliced, pattern, ?_⟩
    rw [whole, ← nextWhole]
    exact Select.solutions_eq_slice engine graph limited offset
  · refine fun read endpoint => ⟨fun value named => ?_, fun anchored engine serves graph => ?_⟩
    · exact not_isSelecting_order value
        ((Listing.selecting_resources (selecting_selection read endpoint selected)).named _ named)
    · have anchored := anchored.imp_left fun empty => Except.ok.inj (selected.symm.trans empty)
      exact fun _ => Sparql.binds_of_extendAll serves
        (binds_resources read.queryables endpoint selected anchored)

/-- The request for every resource by label. -/
def byLabel : Request :=
  ⟨none, none, { Listing.Parameters.standard with orderValue := some .label }, none⟩

theorem ordering_byLabel : (ofConfiguration .standard).ordering byLabel =
    .ok (some (⟨none, .label, .ascending⟩, Vocabulary.rdfsLabel)) :=
  rfl

/-- A listing by label and its count. -/
theorem listing_agrees_with_count_byLabel :
    ∃ (listing counting : Query) (page counts : Select) (described : Group),
      byLabel.search = none ∧
      (ofConfiguration .standard).listing ⟨"", [Vocabulary.rdfsResource], [], none, none⟩ byLabel =
        .ok listing ∧
      (ofConfiguration .standard).count byLabel = .ok counting ∧
      listing.pattern = .select page :: described ∧ counting.pattern = [.select counts] ∧
      ∀ engine graph, (ofConfiguration .standard).Agreement
        ⟨"", [Vocabulary.rdfsResource], [], none, none⟩ byLabel page counts engine graph := by
  obtain ⟨listing, listed⟩ : ∃ listing, (ofConfiguration .standard).listing
      ⟨"", [Vocabulary.rdfsResource], [], none, none⟩ byLabel = .ok listing :=
    Success.exists_ok (by decide +kernel)
  obtain ⟨counting, totalled⟩ : ∃ counting,
      (ofConfiguration .standard).count byLabel = .ok counting :=
    Success.exists_ok (by decide +kernel)
  obtain ⟨page, counts, described, paged, shown, -, agree, -⟩ :=
    listing_agrees_with_count (by rfl) listed totalled
  exact ⟨listing, counting, page, counts, described, rfl, listed, totalled, paged, shown, agree⟩

/-- A resource without a label is counted, but left out of the listing by label. -/
theorem omitted_from_listing_byLabel :
    ∃ (profile : NodeShape) (listing counting : Query) (page counts : Select) (described : Group)
        (graph : Rdf.Graph),
      (ofConfiguration .standard).listing profile byLabel = .ok listing ∧
      (ofConfiguration .standard).count byLabel = .ok counting ∧
      listing.pattern = .select page :: described ∧ counting.pattern = [.select counts] ∧
      .iri ⟨"http://example.org/thing"⟩ ∈ counted Engine.plain graph counts.pattern ∧
      page.whole.solutions Engine.plain graph = [] := by
  obtain ⟨listing, listed⟩ : ∃ listing, (ofConfiguration .standard).listing
      ⟨"", [Vocabulary.rdfsResource], [], none, none⟩ byLabel = .ok listing :=
    Success.exists_ok (by decide +kernel)
  obtain ⟨selection, ordering, slice, page, described, selected, ordered, -, paged, whole, -, -⟩ :=
    page_of_listing rfl listed
  have everything : (ofConfiguration .standard).selection byLabel = .ok [] := rfl
  cases selected.symm.trans everything
  cases ordered.symm.trans ordering_byLabel
  let graph : Rdf.Graph := .ofList [⟨.iri ⟨"http://example.org/thing"⟩, Vocabulary.rdfType,
    .iri ⟨"http://example.org/Thing"⟩⟩]
  have totalled : (ofConfiguration .standard).count byLabel = .ok (Listing.Count.query []) := rfl
  refine ⟨_, listing, _, page, _, described, graph, listed, totalled, paged, rfl, ?_, ?_⟩
  · obtain ⟨solution, member, known, -⟩ := Group.exists_solution_of_edge Engine.plain
      (show (Rdf.Term.iri ⟨"http://example.org/thing"⟩, Rdf.Term.iri ⟨"http://example.org/Thing"⟩) ∈
        graph.edges Vocabulary.rdfType by decide)
      (by decide : Listing.focusClass ≠ Shape.focusNode)
    exact List.mem_dedup.2 (mem_valuesOf.2 ⟨solution, member, known⟩)
  · have unlabelled : graph.edges Vocabulary.rdfsLabel = [] := by decide
    have free : .var OrderValue.label.toVariable ∉ Group.unknowns [Listing.typed] := by decide
    rw [whole]
    refine List.Perm.eq_nil ((Select.perm_solutions_pairs Engine.plain graph free (by decide)
      (fun _ member => Sparql.binds_of_extendAll Engine.plain_serves binds_typed member)
      _).trans ?_)
    rw [unlabelled]
    exact .refl _

end Compiler

end ShapeQuery
