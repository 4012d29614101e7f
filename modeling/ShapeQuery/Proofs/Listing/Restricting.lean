/-
This file proves what a selection does to a search. It keeps the results about the resources that it
selects. The weight of a result is a sum over rows, though, and the pattern of the search has its
rows once for each solution of the selection; so the weights stay the same where the selection has
one solution for each resource, and are multiplied where it has more.
-/
import ShapeQuery.Proofs.Listing.Weighing

namespace ShapeQuery.Listing.Search

open Sparql (Variable Unknown Group Engine Select Solution valuesOf)

/-! ### Selections beside a search -/

/-- Whether a selection gives a value to the resource, and shares no other variable with a search. -/
structure Meets (engine : Engine) (graph : Rdf.Graph) (selection : Group) : Prop where
  binds : ∀ solution ∈ selection.candidates engine graph, solution.Binds Shape.focusNode
  apart : ∀ name ∈ own, .var name ∉ selection.unknowns

variable {engine : Engine} {graph : Rdf.Graph} {selection : Group} {search : Search}

section

variable (meets : Meets engine graph selection) {solution : Solution}
  (member : solution ∈ selection.candidates engine graph)

include meets member

theorem Meets.free {name : Variable} (among : name ∈ own) :
    solution (.var name) = none :=
  Sparql.extendAll_within engine graph selection .empty .empty (Solution.within_empty _)
    (List.Subset.refl _) solution member _ (meets.apart name among)

/-- What is found fits a solution of the selection if it is about the same resource. -/
theorem Meets.compatible_iff {triple : Rdf.Triple} {tier : Tier} :
    solution.Compatible (scored triple tier) ↔
      solution (.var Shape.focusNode) = some triple.subject.term := by
  obtain ⟨resource, known⟩ := meets.binds solution member
  have alone : ∀ other ≠ Unknown.var Shape.focusNode,
      solution other = none ∨ scored triple tier other = none := by
    intro other different
    by_cases among : other ∈ own.map Unknown.var
    · obtain ⟨name, named, rfl⟩ := List.mem_map.1 among
      exact .inl (meets.free member named)
    · exact .inr (scored_within other (List.not_mem_cons_of_ne_of_not_mem different among))
  rw [Solution.compatible_iff_same known (scored_extends _ _ hit_focus) alone, known,
    Option.some_inj]

end

theorem Meets.solutions_append (meets : Meets engine graph selection) :
    Group.solutions engine graph (selection ++ search.pattern) =
      (selection.solutions engine graph).flatMap fun solution =>
        Solution.joined .empty solution (search.pattern.solutions engine graph) := by
  refine Group.solutions_append_joins engine graph ?_ (fun _ => rfl) ?_
  · intro element member
    simp only [pattern, List.mem_cons, List.not_mem_nil, or_false] at member
    rcases member with rfl | rfl <;> trivial
  · intro solution member candidate found unknown named free
    obtain ⟨triple, -, tier, -, -, rfl⟩ := (mem_solutions_pattern engine graph).1 found
    refine scored_within unknown (List.not_mem_cons_of_ne_of_not_mem ?_ ?_)
    · rintro rfl
      obtain ⟨resource, known⟩ := meets.binds solution member
      rw [known] at free
      cases free
    · intro among
      obtain ⟨name, ours, rfl⟩ := List.mem_map.1 among
      exact meets.apart name ours named

omit engine graph selection search in
/-- What a selection adds to a row does not show in what is found. -/
theorem restrict_merge {solution : Solution} {triple : Rdf.Triple} {tier : Tier}
    (fits : solution.Compatible (scored triple tier)) :
    (solution.merge (scored triple tier)).restrict key = hit triple :=
  restrict_key ((Solution.extends_merge_right fits).trans scored_extends)

/-- The rows of a triple are those of the search, once for each solution of the selection that is
about its resource. -/
theorem Meets.rowsOf_append (meets : Meets engine graph selection) (triple : Rdf.Triple) :
    Select.rowsOf engine graph key (selection ++ search.pattern) (hit triple) =
      ((selection.solutions engine graph).filter fun solution =>
        solution (.var Shape.focusNode) = some triple.subject.term).flatMap fun solution =>
          (Select.rowsOf engine graph key search.pattern (hit triple)).map solution.merge := by
  have each (solution : Solution) (selected : solution ∈ selection.solutions engine graph) :
      ((Solution.joined .empty solution (search.pattern.solutions engine graph)).filter fun row =>
          row.restrict key = hit triple) =
        if decide (solution (.var Shape.focusNode) = some triple.subject.term) then
          (Select.rowsOf engine graph key search.pattern (hit triple)).map solution.merge
        else [] := by
    have member : solution ∈ selection.candidates engine graph := (List.mem_filter.1 selected).1
    have kept : ∀ row ∈ search.pattern.solutions engine graph,
        (decide ((solution.merge row).restrict key = hit triple) &&
            decide ((solution.merge .empty).Compatible row)) =
          (decide (row.restrict key = hit triple) &&
            decide (solution (.var Shape.focusNode) = some triple.subject.term)) := by
      intro row found
      obtain ⟨other, -, tier, -, -, rfl⟩ := (mem_solutions_pattern engine graph).1 found
      rw [← Bool.decide_and, ← Bool.decide_and, Solution.merge_empty, decide_eq_decide,
        meets.compatible_iff member, restrict_key scored_extends]
      constructor
      · rintro ⟨same, known⟩
        rw [restrict_merge ((meets.compatible_iff member).2 known)] at same
        obtain rfl := hit_injective same
        exact ⟨rfl, known⟩
      · rintro ⟨same, known⟩
        obtain rfl := hit_injective same
        exact ⟨restrict_merge ((meets.compatible_iff member).2 known), known⟩
    rw [Solution.joined, List.filter_map, List.filter_filter]
    simp only [Function.comp_def]
    rw [List.filter_congr kept, ← List.filter_filter]
    by_cases about : solution (.var Shape.focusNode) = some triple.subject.term
    · simp [about, Select.rowsOf]
    · simp [about]
  rw [Select.rowsOf, meets.solutions_append, List.filter_flatMap, Sparql.flatMap_filter]
  exact List.flatMap_congr each

/-! ### Selected resources -/

/-- The resources of a selection, once for each of its solutions. -/
noncomputable def selected (engine : Engine) (graph : Rdf.Graph) (selection : Group) :
    List Rdf.Term :=
  valuesOf Shape.focusNode (selection.solutions engine graph)

/-- Whether a row is about a resource of a selection. -/
def Selected (engine : Engine) (graph : Rdf.Graph) (selection : Group) (row : Solution) : Prop :=
  ∃ resource ∈ selected engine graph selection, row (.var Shape.focusNode) = some resource

noncomputable instance (row : Solution) : Decidable (Selected engine graph selection row) :=
  inferInstanceAs (Decidable (∃ resource ∈ selected engine graph selection,
    row (.var Shape.focusNode) = some resource))

theorem selected_hit {triple : Rdf.Triple} :
    Selected engine graph selection (hit triple) ↔
      triple.subject.term ∈ selected engine graph selection := by
  simp [Selected, hit_focus]

theorem selected_numbered {triple : Rdf.Triple} {number : Nat} :
    Selected engine graph selection ((hit triple).numbered weight number) ↔
      triple.subject.term ∈ selected engine graph selection := by
  rw [← selected_hit, Selected, Solution.numbered, Function.update_of_ne (by decide)]
  rfl

theorem count_selected (resource : Rdf.Term) :
    (selected engine graph selection).count resource =
      ((selection.solutions engine graph).filter fun solution =>
        solution (.var Shape.focusNode) = some resource).length := by
  rw [selected, valuesOf, List.count_filterMap, List.countP_eq_length_filter]
  simp only [beq_eq_decide]

/-- With a selection, a search finds what it finds without, about the resources of the selection. -/
theorem Meets.perm_keysOf_append (meets : Meets engine graph selection) :
    (Select.keysOf engine graph key (selection ++ search.pattern)).Perm
      ((Select.keysOf engine graph key search.pattern).filter fun row =>
        Selected engine graph selection row) := by
  refine (List.perm_ext_iff_of_nodup (List.nodup_dedup _) ((List.nodup_dedup _).filter _)).2
    fun row => ?_
  rw [← Select.keysOf, ← Select.keysOf, List.mem_filter, Select.mem_keysOf, Select.mem_keysOf,
    meets.solutions_append]
  simp only [List.mem_flatMap, Solution.mem_joined, Solution.merge_empty, decide_eq_true_eq]
  constructor
  · rintro ⟨_, ⟨solution, chosen, candidate, among, fits, rfl⟩, rfl⟩
    obtain ⟨triple, -, tier, -, -, rfl⟩ := (mem_solutions_pattern engine graph).1 among
    rw [restrict_merge fits, selected_hit]
    refine ⟨⟨_, among, restrict_key scored_extends⟩, ?_⟩
    have known := (meets.compatible_iff (List.mem_filter.1 chosen).1).1 fits
    exact Sparql.mem_valuesOf.2 ⟨solution, chosen, known⟩
  · rintro ⟨⟨candidate, among, rfl⟩, about⟩
    obtain ⟨triple, -, tier, -, -, rfl⟩ := (mem_solutions_pattern engine graph).1 among
    rw [restrict_key scored_extends, selected_hit] at about
    obtain ⟨solution, chosen, known⟩ := Sparql.mem_valuesOf.1 about
    have fits : solution.Compatible (scored triple tier) :=
      (meets.compatible_iff (List.mem_filter.1 chosen).1).2 known
    refine ⟨_, ⟨solution, chosen, _, among, fits, rfl⟩, ?_⟩
    rw [restrict_merge fits, restrict_key scored_extends]

/-- The weights of a triple are those of the search, once for each solution of the selection that
is about its resource. -/
theorem Meets.weights_append (meets : Meets engine graph selection) (search : Search)
    (triple : Rdf.Triple) :
    (Select.rowsOf engine graph key (selection ++ search.pattern) (hit triple)).map
        (fun row => row (.var tierWeight)) =
      (List.replicate ((selected engine graph selection).count triple.subject.term)
        ((Select.rowsOf engine graph key search.pattern (hit triple)).map
          fun row => row (.var tierWeight))).flatten := by
  have same : ∀ solution ∈ (selection.solutions engine graph).filter fun solution =>
        solution (.var Shape.focusNode) = some triple.subject.term,
      ((Select.rowsOf engine graph key search.pattern (hit triple)).map solution.merge).map
          (fun row => row (.var tierWeight)) =
        (Select.rowsOf engine graph key search.pattern (hit triple)).map
          fun row => row (.var tierWeight) := by
    intro solution chosen
    have member := (List.mem_filter.1 (List.mem_filter.1 chosen).1).1
    rw [List.map_map]
    exact List.map_congr_left fun row _ =>
      Solution.merge_of_none (meets.free member (by decide)) row
  rw [meets.rowsOf_append, List.map_flatMap, List.flatMap_congr same, List.flatMap_def,
    List.map_const', count_selected]

/-! ### Restricted searches -/

/-- A search within a selection has one result for each triple that it finds about the resources
of the selection. -/
theorem Meets.perm_solutions_keys (meets : Meets engine graph selection)
    (everywhere : search.selection = []) :
    (Group.solutions engine graph [(search.within selection).matched]).Perm
      (((Select.keysOf engine graph key search.pattern).filter fun row =>
          Selected engine graph selection row).map
        (result engine graph (selection ++ search.pattern))) := by
  have results := perm_solutions_matched engine graph (search.within selection)
  have group : (search.within selection).selection ++ (search.within selection).pattern =
      selection ++ search.pattern := by
    rw [within, everywhere, List.nil_append]
    rfl
  rw [group] at results
  exact results.trans (meets.perm_keysOf_append.map _)

/-- Where a selection has one solution for each resource, a search within it finds what the search
finds about these resources, with the same weights. -/
theorem Meets.perm_solutions_within (meets : Meets engine graph selection)
    (once : (selected engine graph selection).Nodup) (everywhere : search.selection = []) :
    (Group.solutions engine graph [(search.within selection).matched]).Perm
      ((Group.solutions engine graph [search.matched]).filter fun row =>
        Selected engine graph selection row) := by
  have about (row : Solution) :
      Selected engine graph selection (result engine graph search.pattern row) ↔
        Selected engine graph selection row := by
    rw [Selected, result, Function.update_of_ne (by decide)]
    rfl
  have whole := perm_solutions_matched engine graph search
  rw [everywhere, List.nil_append] at whole
  refine (meets.perm_solutions_keys everywhere).trans (.trans (.of_eq ?_) (whole.filter _).symm)
  rw [List.filter_map]
  simp only [Function.comp_def, about]
  refine List.map_congr_left fun row chosen => ?_
  obtain ⟨among, known⟩ := List.mem_filter.1 chosen
  obtain ⟨_, found, rfl⟩ := (Select.mem_keysOf engine graph).1 among
  obtain ⟨triple, -, tier, -, -, rfl⟩ := (mem_solutions_pattern engine graph).1 found
  rw [restrict_key scored_extends] at known ⊢
  rw [decide_eq_true_eq, selected_hit] at known
  refine result_congr engine graph ?_
  rw [meets.weights_append, List.count_eq_one_of_mem once known, List.replicate_one,
    List.flatten_singleton]

/-- A selection multiplies the weight of what is found about a resource by the number of its
solutions for the resource. -/
theorem Meets.perm_solutions_weighed (meets : Meets engine graph selection)
    (everywhere : search.selection = []) (searches : engine.Searches)
    (distinct : search.predicates.Nodup) (ascii : Text.IsAscii search.term)
    (texts : InAscii graph) :
    (Group.solutions engine graph [(search.within selection).matched]).Perm
      ((graph.triples.filter fun triple =>
          triple.subject.term ∈ selected engine graph selection ∧
            triple.predicate ∈ search.predicates ∧
            Tier.part.reached search.term triple.object).map fun triple =>
        (hit triple).numbered weight
          ((selected engine graph selection).count triple.subject.term *
            points search.term triple.object)) := by
  refine (meets.perm_solutions_keys everywhere).trans ?_
  refine (((perm_keysOf_pattern searches ascii texts).filter _).map _).trans (.of_eq ?_)
  rw [List.filter_map, List.map_map, List.filter_filter]
  simp only [Function.comp_def, selected_hit, ← Bool.decide_and]
  refine List.map_congr_left fun triple kept => ?_
  obtain ⟨member, passed⟩ := List.mem_filter.1 kept
  obtain ⟨-, among, part⟩ := of_decide_eq_true passed
  have given := meets.weights_append search triple
  rw [weights_pattern searches distinct ascii texts member among, ← List.map_replicate,
    ← List.map_flatten] at given
  rw [result_of_weights graph searches given, List.sum_flatten,
    List.map_replicate, List.sum_replicate_nat, sum_weight_eq_points part]

/-! ### Selections by a predicate -/

/-- The selection of the resources with a value of a predicate. -/
def having (name : Iri) : Group :=
  [.ofTriple focus (.predicate name) (.var focusClass)]

theorem candidates_having (name : Iri) :
    (having name).candidates engine graph = (graph.edges name).map fun edge =>
      Solution.pair Shape.focusNode focusClass edge.1 edge.2 := by
  rw [← Group.solutions_eq_candidates engine graph _ fun _ => rfl]
  exact Group.solutions_edges engine graph (by decide) name

/-- A resource is selected once for each value that it has. -/
theorem selected_having (name : Iri) :
    selected engine graph (having name) = (graph.edges name).map Prod.fst := by
  rw [selected, Group.solutions_eq_candidates engine graph _ fun _ => rfl, candidates_having,
    valuesOf, List.filterMap_map, ← List.filterMap_eq_map]
  exact List.filterMap_congr fun edge _ => Solution.pair_first (by decide)

theorem meets_having (name : Iri) : Meets engine graph (having name) where
  binds solution member := by
    rw [candidates_having] at member
    obtain ⟨edge, -, rfl⟩ := List.mem_map.1 member
    exact ⟨_, Solution.pair_first (by decide)⟩
  apart := by
    have unknowns : (having name).unknowns = [.var Shape.focusNode, .var focusClass] := rfl
    rw [unknowns]
    decide

/-- The label of a soil. -/
def soilLabel : Rdf.Triple :=
  labelled "http://ex/soil" (.plain "Soil")

/-- A soil with one label and two types. -/
def typedSoil : Rdf.Graph :=
  .ofList [soilLabel, ⟨soilLabel.subject, Vocabulary.rdfType, .iri ⟨"http://ex/Soil"⟩⟩,
    ⟨soilLabel.subject, Vocabulary.rdfType, .iri ⟨"http://ex/Layer"⟩⟩]

theorem typedSoil_texts : InAscii typedSoil := by
  decide +kernel

theorem points_soilLabel : points soilSearch.term soilLabel.object = 130 := by
  decide +kernel

theorem soilSearch_ascii : Text.IsAscii soilSearch.term := by
  decide +kernel

/-- The only label has the weight of a text that equals the term. -/
theorem matched_typedSoil :
    (Group.solutions Engine.ofValues typedSoil [soilSearch.matched]).Perm
      [(hit soilLabel).numbered weight 130] := by
  have kept : (typedSoil.triples.filter fun triple =>
      triple.predicate ∈ soilSearch.predicates ∧
        Tier.part.reached soilSearch.term triple.object) = [soilLabel] := by decide +kernel
  have found := perm_solutions_weighed Engine.searches_ofValues
    (show soilSearch.selection = [] from rfl) (List.nodup_singleton _) soilSearch_ascii
    typedSoil_texts
  rwa [kept, List.map_singleton, points_soilLabel] at found

/-! ### Searches for a term -/

omit engine graph selection search in
theorem selection_of_ofTerm {term : String} {predicates : List Iri} {search : Search}
    (made : ofTerm term predicates = .ok search) : search.selection = [] := by
  unfold ofTerm at made
  split at made
  · cases made
  · split at made <;> cases made
    rfl

omit search in
/-- A search within a selection that has one solution for each resource is the search among all
resources, restricted to those of the selection. -/
theorem perm_within_filter (meets : Meets engine graph selection)
    (once : (selected engine graph selection).Nodup) {term : String} {predicates : List Iri}
    {search : Search} (made : ofTerm term predicates = .ok search) :
    (Group.solutions engine graph [(search.within selection).matched]).Perm
      ((Group.solutions engine graph [search.matched]).filter fun row =>
        Selected engine graph selection row) :=
  meets.perm_solutions_within once (selection_of_ofTerm made)

/-- Among the resources with a label, the soil keeps its weight. -/
theorem perm_within_filter_labelled :
    ofTerm "soil" [Vocabulary.rdfsLabel] = .ok soilSearch ∧
      (hit soilLabel).numbered weight 130 ∈ Group.solutions Engine.ofValues typedSoil
        [(soilSearch.within (having Vocabulary.rdfsLabel)).matched] := by
  have made : ofTerm "soil" [Vocabulary.rdfsLabel] = .ok soilSearch := ofTerm_eq_ok _ _
  have once : (selected Engine.ofValues typedSoil (having Vocabulary.rdfsLabel)).Nodup := by
    rw [selected_having]
    decide +kernel
  have restricted := perm_within_filter (meets_having _) once made
  refine ⟨made, restricted.mem_iff.2 (List.mem_filter.2
    ⟨matched_typedSoil.mem_iff.2 List.mem_cons_self, decide_eq_true ?_⟩)⟩
  rw [selected_numbered, selected_having]
  decide +kernel

/-- Among the resources with a type, the soil weighs twice as much, as it has two of them. -/
theorem typed_weighs_twice :
    ofTerm "soil" [Vocabulary.rdfsLabel] = .ok soilSearch ∧
      Meets Engine.ofValues typedSoil (having Vocabulary.rdfType) ∧
      (hit soilLabel).numbered weight 130 ∈
        (Group.solutions Engine.ofValues typedSoil [soilSearch.matched]).filter (fun row =>
          Selected Engine.ofValues typedSoil (having Vocabulary.rdfType) row) ∧
      (hit soilLabel).numbered weight 130 ∉ Group.solutions Engine.ofValues typedSoil
        [(soilSearch.within (having Vocabulary.rdfType)).matched] ∧
      (hit soilLabel).numbered weight 260 ∈ Group.solutions Engine.ofValues typedSoil
        [(soilSearch.within (having Vocabulary.rdfType)).matched] := by
  have within : (Group.solutions Engine.ofValues typedSoil
      [(soilSearch.within (having Vocabulary.rdfType)).matched]).Perm
        [(hit soilLabel).numbered weight 260] := by
    have twice : (selected Engine.ofValues typedSoil (having Vocabulary.rdfType)).count
        soilLabel.subject.term = 2 := by
      rw [selected_having]
      decide +kernel
    have kept : (typedSoil.triples.filter fun triple =>
        triple.subject.term ∈ selected Engine.ofValues typedSoil (having Vocabulary.rdfType) ∧
          triple.predicate ∈ soilSearch.predicates ∧
          Tier.part.reached soilSearch.term triple.object) = [soilLabel] := by
      rw [selected_having]
      decide +kernel
    have found := (meets_having Vocabulary.rdfType).perm_solutions_weighed
      (show soilSearch.selection = [] from rfl) Engine.searches_ofValues (List.nodup_singleton _)
      soilSearch_ascii typedSoil_texts
    rwa [kept, List.map_singleton, points_soilLabel, twice] at found
  refine ⟨ofTerm_eq_ok _ _, meets_having _, List.mem_filter.2
    ⟨matched_typedSoil.mem_iff.2 List.mem_cons_self, decide_eq_true ?_⟩, fun member => ?_,
    within.mem_iff.2 List.mem_cons_self⟩
  · rw [selected_numbered, selected_having]
    decide +kernel
  · exact Solution.numbered_ne (by decide) (List.mem_singleton.1 (within.mem_iff.1 member))

end ShapeQuery.Listing.Search
