/-
This file tells what a search finds before its weights are added up. The branch of a tier has one
solution for each triple whose object reaches the tier, and the pattern of the search has these
solutions for each of its predicates. What an engine has to find on a tier is told by the texts
alone: a text contains the term, starts with it or equals it, case ignored.
-/
import ShapeQuery.Listing.Search
import ShapeQuery.Proofs.Sparql.Grouping
import ShapeQuery.Proofs.Sparql.Joining
import ShapeQuery.Proofs.Sparql.Values

namespace ShapeQuery.Listing

open Sparql (Variable Unknown Group Element Expression Engine Select Solution TriplePattern extendAll)

/-! ### Tiers of texts -/

namespace Tier

/-- Whether a text is on a tier of a term, case ignored: it equals the term, starts with it or
contains it. -/
def holds (term text : String) : Tier → Bool
  | .whole => term.toLower.toList = text.toLower.toList
  | .start => term.toLower.toList <+: text.toLower.toList
  | .part => term.toLower.toList <:+: text.toLower.toList

/-- The text of a term that is compared on a tier. Only texts without a language are compared as a
whole. -/
def text? (object : Rdf.Term) : Tier → Option String
  | .whole => object.plain?
  | _ => object.text?

/-- Whether a term is on a tier. -/
def reached (term : String) (object : Rdf.Term) (tier : Tier) : Bool :=
  (tier.text? object).any (tier.holds term)

end Tier

variable (engine : Engine) (graph : Rdf.Graph)

namespace Search

/-! ### Hits -/

/-- The variables of what is found: a resource, a predicate and a text. -/
def key : List Variable := [Shape.focusNode, predicate, found]

/-- The variables of a search beside the resource. -/
def own : List Variable := [predicate, found, tierWeight]

/-- A triple as something that is found. -/
def hit (triple : Rdf.Triple) : Solution :=
  Function.update (Solution.pair Shape.focusNode predicate triple.subject.term
    (.iri triple.predicate)) (.var found) (some triple.object)

/-- A triple with the weight of a tier. -/
def scored (triple : Rdf.Triple) (tier : Tier) : Solution :=
  (hit triple).numbered tierWeight tier.weight

section

omit engine graph

variable {triple : Rdf.Triple} {tier : Tier}

theorem hit_focus : hit triple (.var Shape.focusNode) = some triple.subject.term := by
  rw [hit, Function.update_of_ne (by decide), Solution.pair_first (by decide)]

theorem hit_predicate : hit triple (.var predicate) = some (.iri triple.predicate) := by
  rw [hit, Function.update_of_ne (by decide), Solution.pair_last]

theorem hit_found : hit triple (.var found) = some triple.object :=
  Function.update_self ..

theorem hit_within : (hit triple).Within (key.map .var) := by
  intro unknown absent
  simp only [key, List.map_cons, List.map_nil, List.mem_cons, List.not_mem_nil, or_false,
    not_or] at absent
  rw [hit, Function.update_of_ne absent.2.2, Solution.pair_other absent.1 absent.2.1]

theorem hit_injective : Function.Injective hit := by
  intro first second same
  have subjects := congrFun same (.var Shape.focusNode)
  have predicates := congrFun same (.var predicate)
  have objects := congrFun same (.var found)
  rw [hit_focus, hit_focus, Option.some_inj] at subjects
  rw [hit_predicate, hit_predicate, Option.some_inj] at predicates
  rw [hit_found, hit_found, Option.some_inj] at objects
  obtain ⟨first, _, _⟩ := first
  obtain ⟨second, _, _⟩ := second
  cases predicates
  cases objects
  have nodes : some first = some second := by
    rw [← Rdf.Node.node?_term first, ← Rdf.Node.node?_term second]
    exact congrArg Rdf.Term.node? subjects
  cases nodes
  rfl

theorem hit_tierWeight : hit triple (.var tierWeight) = none :=
  hit_within _ (by decide)

theorem scored_tierWeight :
    scored triple tier (.var tierWeight) = some (.literal (.ofInt tier.weight)) := by
  rw [scored, Solution.numbered, Function.update_self]

theorem scored_extends : (scored triple tier).Extends (hit triple) := by
  intro unknown value known
  have other : unknown ≠ .var tierWeight := by
    rintro rfl
    rw [hit_tierWeight] at known
    cases known
  rw [scored, Solution.numbered, Function.update_of_ne other, known]

theorem scored_within :
    (scored triple tier).Within (.var Shape.focusNode :: own.map .var) := by
  intro unknown absent
  simp only [own, List.map_cons, List.map_nil, List.mem_cons, List.not_mem_nil, or_false,
    not_or] at absent
  rw [scored, Solution.numbered, Function.update_of_ne absent.2.2.2]
  refine hit_within unknown ?_
  simp only [key, List.map_cons, List.map_nil, List.mem_cons, List.not_mem_nil, or_false, not_or]
  exact ⟨absent.1, absent.2.1, absent.2.2.1⟩

/-- What shows what is found is seen through its variables as nothing else. -/
theorem restrict_key {row : Solution} (grows : row.Extends (hit triple)) :
    row.restrict key = hit triple := by
  funext unknown
  by_cases member : unknown ∈ key.map Unknown.var
  · obtain ⟨name, among, rfl⟩ := List.mem_map.1 member
    rw [Solution.restrict_var among]
    simp only [key, List.mem_cons, List.not_mem_nil, or_false] at among
    rcases among with rfl | rfl | rfl
    · rw [hit_focus, grows _ _ hit_focus]
    · rw [hit_predicate, grows _ _ hit_predicate]
    · rw [hit_found, grows _ _ hit_found]
  · rw [Solution.Within.restrict row key unknown member, hit_within unknown member]

end

/-! ### Branches -/

/-- Whether the object of a triple reaches a tier. -/
noncomputable def reaches (term : String) (triple : Rdf.Triple) (tier : Tier) : Bool :=
  (Element.filter (condition term tier)).holds engine graph (scored triple tier)

omit engine in
theorem solutions_found (context : Solution) :
    (⟨focus, .var predicate, .var found⟩ : TriplePattern).solutions graph context =
      graph.triples.map hit := by
  have each (triple : Rdf.Triple) :
      ((Solution.single Shape.focusNode triple.subject.term).assign (.var predicate)
          (.iri triple.predicate)).bind (fun solution =>
        solution.assign (.var found) triple.object) = some (hit triple) := by
    have unnamed : Solution.single Shape.focusNode triple.subject.term (.var predicate) = none :=
      Function.update_of_ne (by decide) ..
    have unfound : Solution.pair Shape.focusNode predicate triple.subject.term
        (.iri triple.predicate) (.var found) = none :=
      Solution.pair_other (by decide) (by decide)
    rw [Solution.assign_of_none unnamed, Option.bind_some]
    exact Solution.assign_of_none unfound triple.object
  rw [← List.filterMap_eq_map]
  exact List.filterMap_congr fun triple _ => each triple

/-- The branch of a tier finds the triples whose objects reach it. -/
theorem solutions_branch (term : String) (tier : Tier) :
    Group.solutions engine graph (branch term tier) =
      (graph.triples.filter fun triple => reaches engine graph term triple tier).map fun triple =>
        scored triple tier := by
  have weighed (triple : Rdf.Triple) :
      extendAll engine graph .empty (hit triple)
        [.bind (.literal (.ofInt tier.weight)) tierWeight, .filter (condition term tier)] =
          [scored triple tier] := by
    rw [extendAll, Element.extend_bind_value engine graph hit_tierWeight rfl,
      Solution.merge_update_empty hit_tierWeight]
    rfl
  have extended : extendAll engine graph .empty .empty (branch term tier) =
      graph.triples.map fun triple => scored triple tier := by
    rw [branch, extendAll, Element.ofTriple, Element.extend, Solution.joined_empty_empty,
      solutions_found, List.flatMap_map]
    simp only [weighed]
    exact List.map_eq_flatMap.symm
  rw [Group.solutions, Sparql.accepted, extended, List.filter_map]
  congr 1
  refine List.filter_congr fun triple _ => ?_
  rw [Function.comp_apply, Solution.merge_empty]
  exact Bool.and_true _

/-- The pattern of a search, without its selection. -/
def pattern (search : Search) : Group :=
  [.column predicate (search.predicates.map .iri), .union (Tier.all.map (branch search.term))]

/-- Joined with a predicate are the triples with that predicate. -/
theorem joined_predicate (name : Iri) (triples : List Rdf.Triple) (tier : Tier) :
    Solution.joined .empty (Solution.single predicate (.iri name))
        (triples.map fun triple => scored triple tier) =
      (triples.filter fun triple => triple.predicate = name).map fun triple =>
        scored triple tier := by
  have compatible (triple : Rdf.Triple) :
      (Solution.single predicate (.iri name)).Compatible (scored triple tier) ↔
        triple.predicate = name := by
    rw [Solution.compatible_iff_same (Solution.single_self _ _) (scored_extends _ _ hit_predicate)
      fun other different => .inl (Function.update_of_ne different ..)]
    exact ⟨fun same => (Rdf.Term.iri.inj same).symm, fun same => congrArg _ same.symm⟩
  have merged {triple : Rdf.Triple} (same : triple.predicate = name) :
      (Solution.single predicate (.iri name)).merge (scored triple tier) = scored triple tier := by
    funext unknown
    by_cases isPredicate : unknown = .var predicate
    · rw [isPredicate, Solution.merge_of_some (Solution.single_self _ _),
        scored_extends _ _ hit_predicate, same]
    · exact Solution.merge_of_none (Function.update_of_ne isPredicate ..) _
  rw [Solution.joined, List.filter_map, List.map_map]
  simp only [Function.comp_def, Solution.merge_empty, compatible]
  exact List.map_congr_left fun triple member => merged (by simpa using (List.mem_filter.1 member).2)

/-- The pattern of a search finds, for each predicate and tier, the triples that reach it. -/
theorem solutions_pattern (search : Search) :
    Group.solutions engine graph search.pattern = search.predicates.flatMap fun name =>
      Tier.all.flatMap fun tier =>
        (graph.triples.filter fun triple =>
          triple.predicate = name ∧ reaches engine graph search.term triple tier).map
            fun triple => scored triple tier := by
  have branches : Group.candidates engine graph [.union (Tier.all.map (branch search.term))] =
      Tier.all.flatMap fun tier => (branch search.term tier).solutions engine graph := by
    rw [← Group.solutions_eq_candidates engine graph _ fun _ => rfl, Group.solutions_union,
      List.flatMap_map]
  have columns : Group.candidates engine graph
      [.column predicate (search.predicates.map .iri)] =
        search.predicates.map fun name => Solution.single predicate (.iri name) := by
    rw [← Group.solutions_eq_candidates engine graph _ fun _ => rfl, Group.solutions_column]
  rw [Group.solutions_eq_candidates engine graph _ fun _ => rfl, pattern, ← List.singleton_append,
    Group.candidates, Sparql.extendAll_append]
  show List.flatMap _ (Group.candidates engine graph _) = _
  rw [columns, List.flatMap_map]
  refine List.flatMap_congr fun name _ => ?_
  have joins : ∀ element ∈ [Element.union (Tier.all.map (branch search.term))], element.Joins :=
    List.forall_mem_singleton.2 trivial
  rw [Sparql.extendAll_joins engine graph joins, branches, Solution.joined_flatMap]
  refine List.flatMap_congr fun tier _ => ?_
  rw [solutions_branch, joined_predicate, List.filter_filter]
  simp only [Bool.decide_and, Bool.decide_eq_true]

theorem mem_solutions_pattern {search : Search} {row : Solution} :
    row ∈ Group.solutions engine graph search.pattern ↔
      ∃ triple ∈ graph.triples, ∃ tier, triple.predicate ∈ search.predicates ∧
        reaches engine graph search.term triple tier = true ∧ row = scored triple tier := by
  rw [solutions_pattern]
  simp only [List.mem_flatMap, List.mem_map, List.mem_filter, decide_eq_true_eq]
  constructor
  · rintro ⟨name, among, tier, -, triple, ⟨known, rfl, reached⟩, rfl⟩
    exact ⟨triple, known, tier, among, reached, rfl⟩
  · rintro ⟨triple, known, tier, among, reached, rfl⟩
    exact ⟨_, among, tier, by cases tier <;> decide, triple, ⟨known, rfl, reached⟩, rfl⟩

/-! ### Rows of one triple -/

omit engine graph in
theorem filter_eq_of_nodup {α : Type} [DecidableEq α] {items : List α} {item : α}
    (distinct : items.Nodup) (member : item ∈ items) :
    (items.filter fun other => other = item) = [item] := by
  rw [List.filter_eq, List.count_eq_one_of_mem distinct member, List.replicate_one]

/-- Each tier that a triple reaches tells it once. -/
theorem rowsOf_pattern {search : Search} (distinct : search.predicates.Nodup)
    {triple : Rdf.Triple} (member : triple ∈ graph.triples)
    (among : triple.predicate ∈ search.predicates) :
    Select.rowsOf engine graph key search.pattern (hit triple) =
      (Tier.all.filter fun tier => reaches engine graph search.term triple tier).map fun tier =>
        scored triple tier := by
  have same (other : Rdf.Triple) (tier : Tier) :
      (scored other tier).restrict key = hit triple ↔ other = triple := by
    rw [restrict_key scored_extends]
    exact hit_injective.eq_iff
  have found (name : Iri) (tier : Tier) :
      (((graph.triples.filter fun other =>
        other.predicate = name ∧ reaches engine graph search.term other tier).map
          fun other => scored other tier).filter fun row => row.restrict key = hit triple) =
        if name = triple.predicate then
          if reaches engine graph search.term triple tier then [scored triple tier] else []
        else [] := by
    simp only [List.filter_map, Function.comp_def, same]
    rw [List.filter_comm, filter_eq_of_nodup graph.distinct member]
    by_cases named : triple.predicate = name
    · cases reached : reaches engine graph search.term triple tier <;> simp [named, reached]
    · simp [named, Ne.symm named]
  rw [Select.rowsOf, solutions_pattern, List.filter_flatMap]
  simp only [List.filter_flatMap, found]
  have named (name : Iri) : (Tier.all.flatMap fun tier => if name = triple.predicate then
      if reaches engine graph search.term triple tier then [scored triple tier] else []
      else []) = if decide (name = triple.predicate) then
        Tier.all.flatMap fun tier =>
          if reaches engine graph search.term triple tier then [scored triple tier] else []
        else [] := by
    by_cases same : name = triple.predicate <;> simp [same]
  simp only [named]
  rw [← Sparql.flatMap_filter, filter_eq_of_nodup distinct among, List.flatMap_singleton,
    ← Sparql.flatMap_filter, List.map_eq_flatMap]

/-! ### Results -/

/-- What is found in the rows of a group, with the sum of the weights. -/
noncomputable def result (group : Group) (row : Solution) : Solution :=
  Function.update row (.var weight) (Expression.value engine graph
    (Select.rowsOf engine graph key group row) row (.sum false (.var tierWeight)))

/-- A search has one result for each resource, predicate and text that it finds. -/
theorem perm_solutions_matched (search : Search) :
    (Group.solutions engine graph [search.matched]).Perm
      ((Select.keysOf engine graph key (search.selection ++ search.pattern)).map
        (result engine graph (search.selection ++ search.pattern))) := by
  have matched : search.matched = .select (Select.aggregateEach key (.sum false (.var tierWeight))
      weight (search.selection ++ search.pattern)) := rfl
  rw [matched, Group.solutions_select]
  exact Select.perm_solutions_aggregateEach engine graph (List.cons_ne_nil _ _) rfl _ _

/-- The sum of weights that are numbers is their sum. -/
theorem result_of_weights {engine : Engine} (searches : engine.Searches) {group : Group}
    {row : Solution} {numbers : List Nat}
    (given : (Select.rowsOf engine graph key group row).map (fun row => row (.var tierWeight)) =
      numbers.map fun number : Nat => some (.literal (.ofInt number))) :
    result engine graph group row = row.numbered weight numbers.sum := by
  have all (values : List Rdf.Term) : (values.map some).mapM id = some values := by
    rw [List.mapM_map]
    exact (List.mapM_pure (m := Option) (f := id)).trans (congrArg some (List.map_id values))
  have numerals : numbers.map (fun number : Nat => some (Rdf.Term.literal (.ofInt number))) =
      (numbers.map fun number : Nat => Rdf.Term.literal (.ofInt number)).map some := by
    rw [List.map_map]
    rfl
  rw [result, Sparql.Expression.value_sum_var, given, numerals, all, Option.bind_some,
    searches.sum]
  rfl

/-- Results with the same weights are the same. -/
theorem result_congr {first second : Group} {row : Solution}
    (same : (Select.rowsOf engine graph key first row).map (fun row => row (.var tierWeight)) =
      (Select.rowsOf engine graph key second row).map fun row => row (.var tierWeight)) :
    result engine graph first row = result engine graph second row := by
  rw [result, result, Sparql.Expression.value_sum_var, Sparql.Expression.value_sum_var, same]

/-! ### Reached tiers -/

section

variable {engine} {term : String} {triple : Rdf.Triple}

/-- A regular expression on a text is about the object. -/
theorem holds_matching (regex : String) (tier : Tier) :
    (Element.filter (matching regex)).holds engine graph (scored triple tier) =
      decide (engine.truth? (engine.call .regex
        [triple.object, .literal (.plain regex), .literal (.plain "i")]) = some true) := by
  have value : Expression.value engine graph [] (scored triple tier) (matching regex) =
      engine.call .regex [triple.object, .literal (.plain regex), .literal (.plain "i")] := by
    simp only [matching, Expression.value, Sparql.listValues, scored_extends _ _ hit_found]
    rfl
  rw [Element.holds, value]

/-- A regular expression is found in texts alone, whether they have a language or not. -/
theorem holds_matching_iff (searches : engine.Searches) {regex : String} {pieces : List Text.Piece}
    (ascii : Text.IsAscii regex) (read : Text.regex? regex = some pieces)
    (texts : ∀ text, triple.object.text? = some text → Text.IsAscii text) (tier : Tier) :
    (Element.filter (matching regex)).holds engine graph (scored triple tier) = true ↔
      ∃ text, triple.object.text? = some text ∧
        Text.FoundIn (.folding Char.toLower) pieces text := by
  rw [holds_matching, decide_eq_true_eq]
  cases is : triple.object.text? with
  | none =>
    rw [searches.regex_other _ _ _ is]
    exact iff_of_false nofun nofun
  | some text =>
    cases object : triple.object with
    | literal value =>
      rw [object] at is texts
      rw [searches.regex value text regex pieces is (texts text is) ascii read]
      simp
    | _ =>
      rw [object] at is
      cases is

/-- A text that equals the term, case ignored, has no language. -/
theorem reaches_whole (searches : engine.Searches) (ascii : Text.IsAscii term)
    (texts : ∀ text, triple.object.text? = some text → Text.IsAscii text) :
    reaches engine graph term triple .whole = true ↔
      ∃ text, triple.object.plain? = some text ∧ text.toLower = term.toLower := by
  have value : Expression.value engine graph [] (scored triple .whole) (condition term .whole) =
      (engine.call .lowercase [triple.object]).bind fun lower =>
        (engine.compare lower .equal (.literal (.plain term.toLower))).map .ofBool := by
    have applied : engine.apply .lowercase [some triple.object] =
        engine.call .lowercase [triple.object] := rfl
    simp only [condition, Expression.value, Sparql.listValues, scored_extends _ _ hit_found,
      Text.lowercase_ascii ascii, applied, Option.map_eq_bind]
    rfl
  rw [reaches, Element.holds, value, decide_eq_true_eq]
  cases object : triple.object with
  | literal literal =>
    rw [object] at texts
    cases literal with
    | plain text =>
      rw [searches.lowercase _ text rfl (texts text rfl), Option.bind_some, Literal.withValue,
        searches.equal]
      simp [Engine.truth?, engine.truth_ofBool, Rdf.Term.plain?]
    | tagged text language =>
      rw [searches.lowercase _ text rfl (texts text rfl), Option.bind_some, Literal.withValue]
      have different := searches.equal_tagged text.toLower language term.toLower
      refine iff_of_false (fun holds => different ?_) (by simp [Rdf.Term.plain?])
      obtain ⟨_, equal, holding⟩ := Option.bind_eq_some_iff.1 holds
      obtain ⟨value, compared, rfl⟩ := Option.map_eq_some_iff.1 equal
      rw [engine.truth_ofBool] at holding
      rwa [← Option.some.inj holding]
    | typed text datatype =>
      rw [searches.lowercase_other _ rfl]
      simp [Engine.truth?, Rdf.Term.plain?]
  | _ =>
    rw [searches.lowercase_other _ rfl]
    simp [Engine.truth?, Rdf.Term.plain?]

/-- What an engine finds on a tier is told by the texts. -/
theorem reaches_eq_reached (searches : engine.Searches) (ascii : Text.IsAscii term)
    (texts : ∀ text, triple.object.text? = some text → Text.IsAscii text) (tier : Tier) :
    reaches engine graph term triple tier = tier.reached term triple.object := by
  rw [Bool.eq_iff_iff, Tier.reached, Option.any_eq_true]
  have escaped := Text.isAscii_escapeRegex ascii
  cases tier with
  | whole =>
    rw [reaches_whole graph searches ascii texts]
    simp [Tier.text?, Tier.holds, String.toList_inj, eq_comm]
  | start =>
    refine (holds_matching_iff graph searches (Text.isAscii_append (by decide) escaped)
      (Text.regex_start_escapeRegex term) texts _).trans (exists_congr fun text => ?_)
    rw [Text.foundIn_start_literally]
    simp [Tier.text?, Tier.holds, Text.toList_toLower]
  | part =>
    refine (holds_matching_iff graph searches escaped
      (Text.regex_escapeRegex term) texts _).trans (exists_congr fun text => ?_)
    rw [Text.foundIn_literally]
    simp [Tier.text?, Tier.holds, Text.toList_toLower]

end

end Search

end ShapeQuery.Listing
