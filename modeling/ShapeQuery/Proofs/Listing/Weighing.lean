/-
This file proves what a search weighs. It finds the triples of its predicates whose objects are
texts that contain the term, each once. Every such text has the weight of a part, more if it starts
with the term, and most if it equals the term. A text with a language never equals the term, though:
in lower case it still has its language, and the term has none.
-/
import ShapeQuery.Proofs.Listing.Searching

namespace ShapeQuery.Listing

open Sparql (Group Engine Select Solution)

/-! ### Weights of texts -/

namespace Tier

section

variable {term text : String}

theorem start_of_whole (whole : Tier.whole.holds term text = true) :
    Tier.start.holds term text = true := by
  have same : term.toLower.toList = text.toLower.toList := of_decide_eq_true whole
  exact decide_eq_true (same ▸ List.prefix_rfl)

theorem part_of_start (start : Tier.start.holds term text = true) :
    Tier.part.holds term text = true := by
  have starts : term.toLower.toList <+: text.toLower.toList := of_decide_eq_true start
  exact decide_eq_true starts.isInfix

end

theorem text_of_plain (object : Rdf.Term) {text : String} (is : object.plain? = some text) :
    object.text? = some text := by
  rw [Rdf.Term.text_of_plain? is]
  rfl

/-- What reaches a tier contains the term. -/
theorem part_of_reached {term : String} {object : Rdf.Term} {tier : Tier}
    (reached : tier.reached term object = true) : Tier.part.reached term object = true := by
  obtain ⟨text, is, holds⟩ := (Option.any_eq_true _ _).1 reached
  refine (Option.any_eq_true _ _).2 ⟨text, ?_, ?_⟩
  · cases tier with
    | whole => exact text_of_plain object is
    | _ => exact is
  · cases tier with
    | whole => exact part_of_start (start_of_whole holds)
    | start => exact part_of_start holds
    | part => exact holds

end Tier

namespace Search

/-- The weight of a text that contains the term. It is greater if the text starts with the term,
and if it equals the term and has no language. -/
def points (term : String) (object : Rdf.Term) : Nat :=
  10 + (if Tier.start.reached term object then 20 else 0) +
    if Tier.whole.reached term object then 100 else 0

/-- The weights of the tiers that a text reaches add up. -/
theorem sum_weight_eq_points {term : String} {object : Rdf.Term}
    (part : Tier.part.reached term object = true) :
    ((Tier.all.filter fun tier => tier.reached term object).map Tier.weight).sum =
      points term object := by
  cases start : Tier.start.reached term object <;>
    cases whole : Tier.whole.reached term object <;>
      simp [points, Tier.all, Tier.weight, part, start, whole]

/-! ### Results -/

variable {engine : Engine} {graph : Rdf.Graph} {search : Search}

/-- Whether the terms of a graph that are texts are in ASCII. -/
def InAscii (graph : Rdf.Graph) : Prop :=
  ∀ triple ∈ graph.triples, ∀ text ∈ triple.object.text?, Text.IsAscii text

instance (graph : Rdf.Graph) : Decidable (InAscii graph) :=
  inferInstanceAs (Decidable (∀ triple ∈ graph.triples, ∀ text ∈ triple.object.text?,
    Text.IsAscii text))

/-- A search finds the triples of its predicates whose objects contain the term. -/
theorem perm_keysOf_pattern (searches : engine.Searches) (ascii : Text.IsAscii search.term)
    (texts : InAscii graph) :
    (Select.keysOf engine graph key search.pattern).Perm
      ((graph.triples.filter fun triple => triple.predicate ∈ search.predicates ∧
        Tier.part.reached search.term triple.object).map hit) := by
  refine (List.perm_ext_iff_of_nodup (List.nodup_dedup _)
    ((graph.distinct.filter _).map hit_injective)).2 fun row => ?_
  rw [← Select.keysOf, Select.mem_keysOf]
  simp only [mem_solutions_pattern, List.mem_map, List.mem_filter, decide_eq_true_eq]
  constructor
  · rintro ⟨_, ⟨triple, member, tier, among, reached, rfl⟩, rfl⟩
    rw [reaches_eq_reached graph searches ascii (texts triple member)] at reached
    exact ⟨triple, ⟨member, among, Tier.part_of_reached reached⟩,
      (restrict_key scored_extends).symm⟩
  · rintro ⟨triple, ⟨member, among, reached⟩, rfl⟩
    rw [← reaches_eq_reached graph searches ascii (texts triple member)] at reached
    exact ⟨_, ⟨triple, member, .part, among, reached, rfl⟩, restrict_key scored_extends⟩

/-- The weights of a triple that is found are told by its object. -/
theorem weights_pattern (searches : engine.Searches) (distinct : search.predicates.Nodup)
    (ascii : Text.IsAscii search.term) (texts : InAscii graph) {triple : Rdf.Triple}
    (member : triple ∈ graph.triples) (among : triple.predicate ∈ search.predicates) :
    (Select.rowsOf engine graph key search.pattern (hit triple)).map
        (fun row => row (.var tierWeight)) =
      ((Tier.all.filter fun tier => tier.reached search.term triple.object).map Tier.weight).map
        fun number : Nat => some (.literal (.ofInt number)) := by
  rw [rowsOf_pattern engine graph distinct member among, List.map_map, List.map_map]
  simp only [reaches_eq_reached graph searches ascii (texts triple member)]
  exact List.map_congr_left fun tier _ => scored_tierWeight

/-- Without a selection, a search finds each triple of its predicates whose object contains the
term, with the weight of the object. -/
theorem perm_solutions_weighed (searches : engine.Searches) (everywhere : search.selection = [])
    (distinct : search.predicates.Nodup) (ascii : Text.IsAscii search.term)
    (texts : InAscii graph) :
    (Group.solutions engine graph [search.matched]).Perm
      ((graph.triples.filter fun triple => triple.predicate ∈ search.predicates ∧
        Tier.part.reached search.term triple.object).map fun triple =>
          (hit triple).numbered weight (points search.term triple.object)) := by
  have results := perm_solutions_matched engine graph search
  rw [everywhere, List.nil_append] at results
  refine (results.trans ((perm_keysOf_pattern searches ascii texts).map _)).trans (.of_eq ?_)
  rw [List.map_map]
  refine List.map_congr_left fun triple kept => ?_
  obtain ⟨member, passed⟩ := List.mem_filter.1 kept
  obtain ⟨among, part⟩ := of_decide_eq_true passed
  rw [Function.comp_apply, ← sum_weight_eq_points part]
  exact result_of_weights graph searches
    (weights_pattern searches distinct ascii texts member among)

/-! ### Labels -/

/-- The triple that labels a resource. -/
def labelled (resource : String) (text : Literal) : Rdf.Triple :=
  ⟨.iri ⟨resource⟩, Vocabulary.rdfsLabel, .literal text⟩

/-- A soil, a map of it and a loam with labels. -/
def labels : Rdf.Graph :=
  .ofList [labelled "http://ex/loam" (.plain "Loam"),
    labelled "http://ex/map" (.tagged "Soil map" "en"),
    labelled "http://ex/soil" (.plain "Soil")]

/-! ### Searches for a term -/

omit search in
theorem ofTerm_eq_ok {term : String} {predicates : List Iri} (given : Text.isBlank term = false)
    (named : predicates ≠ []) :
    ofTerm term predicates = .ok ⟨term, predicates, [], given, named⟩ := by
  rw [ofTerm, dif_neg (by rw [given]; decide), dif_neg named]

omit search in
/-- A search for a term finds each triple of its predicates whose object is a text that contains the
term, once, with the weight of the text, and nothing else. -/
theorem perm_matched_ofTerm (searches : engine.Searches) {term : String} {predicates : List Iri}
    (given : Text.isBlank term = false) (named : predicates ≠ []) (distinct : predicates.Nodup)
    (ascii : Text.IsAscii term) (texts : InAscii graph) :
    ∃ search, ofTerm term predicates = .ok search ∧
      (Group.solutions engine graph [search.matched]).Perm
        ((graph.triples.filter fun triple => triple.predicate ∈ predicates ∧
          Tier.part.reached term triple.object).map fun triple =>
            (hit triple).numbered weight (points term triple.object)) :=
  ⟨_, ofTerm_eq_ok given named, perm_solutions_weighed searches rfl distinct ascii texts⟩

/-- A search for a soil finds the soil and the map of it. -/
theorem perm_matched_ofTerm_soil :
    ∃ search, ofTerm "soil" [Vocabulary.rdfsLabel] = .ok search ∧
      (Group.solutions Engine.ofValues labels [search.matched]).Perm
        [(hit (labelled "http://ex/soil" (.plain "Soil"))).numbered weight 130,
          (hit (labelled "http://ex/map" (.tagged "Soil map" "en"))).numbered weight 30] := by
  obtain ⟨search, made, found⟩ := perm_matched_ofTerm Engine.searches_ofValues
    (by decide : Text.isBlank "soil" = false) (List.cons_ne_nil Vocabulary.rdfsLabel [])
    (List.nodup_singleton _) (by decide +kernel) (by decide +kernel : InAscii labels)
  refine ⟨search, made, found.trans (.of_eq ?_)⟩
  have kept : (labels.triples.filter fun triple =>
      triple.predicate ∈ [Vocabulary.rdfsLabel] ∧ Tier.part.reached "soil" triple.object) =
        [labelled "http://ex/soil" (.plain "Soil"),
          labelled "http://ex/map" (.tagged "Soil map" "en")] := by decide +kernel
  have soil : points "soil" (.literal (.plain "Soil")) = 130 := by decide +kernel
  have map : points "soil" (.literal (.tagged "Soil map" "en")) = 30 := by decide +kernel
  simp only [kept, labelled, List.map_cons, List.map_nil, soil, map]

/-- The search for a soil among labels. -/
def soilSearch : Search :=
  ⟨"soil", [Vocabulary.rdfsLabel], [], by decide, List.cons_ne_nil _ _⟩

/-- A label of a soil with a language. -/
def taggedLabel : Rdf.Triple :=
  labelled "http://ex/soil" (.tagged "Soil" "en")

/-- A label with a language that equals the term weighs as one that only starts with it. -/
theorem tagged_label_weighs_less :
    ofTerm "soil" [Vocabulary.rdfsLabel] = .ok soilSearch ∧
      (hit taggedLabel).numbered weight 30 ∈
        Group.solutions Engine.ofValues (.ofList [taggedLabel]) [soilSearch.matched] ∧
      (hit taggedLabel).numbered weight 130 ∉
        Group.solutions Engine.ofValues (.ofList [taggedLabel]) [soilSearch.matched] := by
  have texts : InAscii (.ofList [taggedLabel]) := by decide +kernel
  have kept : ((Rdf.Graph.ofList [taggedLabel]).triples.filter fun triple =>
      triple.predicate ∈ soilSearch.predicates ∧
        Tier.part.reached soilSearch.term triple.object) = [taggedLabel] := by decide +kernel
  have weighs : points soilSearch.term taggedLabel.object = 30 := by decide +kernel
  have found := perm_solutions_weighed Engine.searches_ofValues
    (show soilSearch.selection = [] from rfl) (List.nodup_singleton _) (by decide +kernel) texts
  rw [kept, List.map_singleton, weighs] at found
  refine ⟨ofTerm_eq_ok _ _, found.mem_iff.2 List.mem_cons_self, fun member => ?_⟩
  exact Solution.numbered_ne (by decide) (List.mem_singleton.1 (found.mem_iff.1 member))

end Search

end ShapeQuery.Listing
