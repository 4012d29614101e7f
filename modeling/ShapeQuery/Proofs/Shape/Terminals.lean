/-
This file proves that lowering keeps the relations of paths. A property shape that asks for nothing
but its paths is lowered to a fragment whose terminal has exactly the values to which the paths
lead from a node of the graph, whether a path is matched as a whole or one step after another, and
whether the branches of a union share a last node or are bound to one.
-/
import ShapeQuery.Proofs.Shape.Deciding
import ShapeQuery.Proofs.Sparql.Completeness
import ShapeQuery.Proofs.Sparql.Grouping

namespace ShapeQuery

open Sparql (Path Term Variable Group Engine Valuation AllMet AllPositive valueSet)
open Shape (Slot Scope)

theorem Sparql.Path.Complete.hops_ne_zero {path : Path} (complete : path.Complete) :
    path.hops ≠ 0 := by
  cases path with
  | sequence paths =>
    exact fun none => ((Path.complete_sequence paths).1 complete).1 (List.length_eq_zero_iff.1 none)
  | _ => exact Nat.one_ne_zero

/-! ### Values of terminals -/

/-- The values of the terminal of a fragment over all solutions of its pattern. -/
def Fragment.ends (engine : Engine) (graph : Rdf.Graph) (fragment : Fragment) : Set Rdf.Term :=
  {value | ∃ terminal, fragment.terminal = some terminal ∧
    ∃ row ∈ fragment.pattern.solutions engine graph, terminal.value row = some value}

namespace Fragment

variable {engine : Engine} {graph : Rdf.Graph} {fragment : Fragment}

theorem ends_of_terminal {name : Variable} (ended : fragment.terminal = some (.var name)) :
    fragment.ends engine graph = valueSet name (fragment.pattern.solutions engine graph) := by
  ext value
  constructor
  · rintro ⟨terminal, same, row, member, known⟩
    cases ended.symm.trans same
    exact ⟨row, member, known⟩
  · rintro ⟨row, member, known⟩
    exact ⟨_, ended, row, member, known⟩

theorem ends_eq_empty (unsolvable : ¬ fragment.pattern.Solvable engine graph) :
    fragment.ends engine graph = ∅ := by
  refine Set.eq_empty_iff_forall_notMem.2 fun value ends => ?_
  obtain ⟨terminal, -, row, member, -⟩ := ends
  exact unsolvable ⟨row, member⟩

theorem append_empty (fragment : Fragment) : fragment ++ empty = fragment := by
  obtain ⟨pattern, template, terminal⟩ := fragment
  show append _ empty = _
  cases terminal <;> simp [append, empty]

theorem empty_append (fragment : Fragment) : empty ++ fragment = fragment :=
  rfl

end Fragment

/-! ### Shapes of paths alone -/

/-- Whether a property shape asks for nothing but that its only path, or one of its choices, leads
somewhere. -/
structure PropertyShape.OfPaths (shape : PropertyShape) : Prop where
  minCount : shape.minCount = none
  maxCount : shape.maxCount = none
  classes : shape.classes = []
  filters : shape.filters = []
  paths : (∃ path, shape.paths = [path] ∧ shape.choices = []) ∨ shape.paths = []

namespace PropertyShape.OfPaths

variable (lowering : Lowering) (scope : Scope) {shape : PropertyShape} (ofPaths : shape.OfPaths)

include ofPaths

theorem property : ∃ next,
    lowering.property scope shape = .ok (lowering.together scope shape, next) := by
  rw [lowering.property_of_values scope (by simp [ofPaths.maxCount]),
    if_neg (by simp [ofPaths.minCount])]
  exact ⟨_, rfl⟩

/-- A single path is all that the shape is lowered to. -/
theorem together_of_path {path : ShapePath} (only : shape.paths = [path])
    (none : shape.choices = []) :
    lowering.together scope shape = (lowering.path [] true scope path).1 := by
  have required : (lowering.required scope shape).1 = (lowering.path [] true scope path).1 := by
    rw [Lowering.required, only, ofPaths.classes, Lowering.longestFirst, List.mergeSort_singleton,
      Lowering.paths_cons]
    exact Fragment.append_empty _
  have chosen : (lowering.chosen scope shape).1 = .empty := by
    rw [Lowering.chosen, none]
    rfl
  rw [Lowering.together, Lowering.conditions, ofPaths.filters, chosen, required]
  exact (Fragment.append_empty _).trans (Fragment.append_empty _)

/-- Without a path, the choices are all that the shape is lowered to. -/
theorem together_of_choices (none : shape.paths = []) :
    lowering.together scope shape = (lowering.choices [] true scope shape.choices).1 := by
  have required : lowering.required scope shape = (.empty, scope) := by
    rw [Lowering.required, none, Lowering.longestFirst, List.mergeSort_nil]
    rfl
  rw [Lowering.together, Lowering.conditions, ofPaths.filters, Lowering.chosen, required,
    ofPaths.classes]
  exact Fragment.append_empty _

end PropertyShape.OfPaths

namespace Lowering

variable (engine : Engine) {graph : Rdf.Graph} {lowering : Lowering} {resource : Iri}

/-! ### Paths -/

/-- The last node of a path has exactly the values to which the path leads. -/
theorem path_ends (about : lowering.About graph resource) (scope : Scope) {path : ShapePath}
    (step : path.path.hops ≠ 0) (ordinary : path.isWildcard = false) :
    (lowering.path [] true scope path).1.ends engine graph =
      {value | path.path.Leads graph (.iri resource) value} := by
  let last : Variable := (Slot.node (scope.nextNode + path.path.hops - 1)).toVariable scope.stem
  have terminal : (lowering.path [] true scope path).1.terminal = some (.var last) := by
    rw [lowering.path_terminal [] true scope about.plain step,
      if_neg (of_decide_eq_false ordinary)]
  have pattern : (lowering.path [] true scope path).1.pattern =
      (lowering.along path.path (lowering.nodes scope.stem scope.nextNode path.path.hops)
        (lastNode scope.stem scope.nextNode path.path.hops)).pattern := by
    rw [path_pattern about.plain [] true scope step ordinary]
    exact List.append_nil _
  have positive : AllPositive (lowering.path [] true scope path).1.pattern :=
    pattern ▸ positive_along _ _ _
  have leads {valuation : Valuation}
      (met : AllMet graph valuation (lowering.path [] true scope path).1.pattern) :
      path.path.Leads graph (.iri resource) (valuation (.var last)) := by
    rw [pattern] at met
    have leads := leads_of_met_along about.plain step met
    rwa [about.term_focus] at leads
  rw [Fragment.ends_of_terminal terminal]
  ext value
  constructor
  · rintro ⟨row, member, known⟩
    have fits := Valuation.fits_ofSolution row
    have reached := leads
      (Sparql.allMet_of_fits engine _ positive (List.mem_filter.1 member).1 fits).1
    rwa [fits _ _ known] at reached
  · intro reached
    have earlier : ∀ unknown, lowering.focus.unknown? = some unknown →
        Path.Earlier scope.stem scope.nextNode unknown := by
      rw [about.unknown?_focus]
      exact nofun
    have reached : path.path.Leads graph (.iri resource) value := reached
    rw [← about.term_focus fun _ => .iri resource] at reached
    obtain ⟨valuation, -, met, ended⟩ :=
      exists_met_along about.plain step (about.node_focus _) earlier reached
    rw [← pattern] at met
    obtain ⟨row, member, fits⟩ := Group.exists_solution engine positive met
    -- The last node is never left without a value, since only nodes of the graph are reached.
    have confined (valuation : Valuation)
        (met : AllMet graph valuation (lowering.path [] true scope path).1.pattern) :
        valuation (.var last) ∈ graph.nodes :=
      (Path.mem_nodes_iff_of_leads _ (leads met)).1 about.node
    obtain ⟨found, known⟩ :=
      Sparql.binds_of_confined positive confined (List.mem_filter.1 member).1
    have same : valuation (.var last) = value := ended
    rw [fits _ _ known] at same
    exact ⟨row, member, same ▸ known⟩

/-! ### Choices -/

/-- The branches of choices end in variables, and have together the values to which the choices
lead. -/
theorem branches_end (about : lowering.About graph resource) (scope : Scope)
    {choices : List ShapePath} (steps : ∀ path ∈ choices, path.path.hops ≠ 0)
    (ordinary : ∀ path ∈ choices, path.isWildcard = false) :
    (∀ branch ∈ (lowering.branches [] true scope choices).1,
      ∃ name, branch.terminal = some (.var name)) ∧
    ∀ value, (∃ branch ∈ (lowering.branches [] true scope choices).1,
        value ∈ branch.ends engine graph) ↔
      ∃ choice ∈ choices, choice.path.Leads graph (.iri resource) value := by
  induction choices generalizing scope with
  | nil => exact ⟨nofun, fun _ => iff_of_false nofun nofun⟩
  | cons first rest inductionHypothesis =>
    rw [List.forall_mem_cons] at steps ordinary
    obtain ⟨terminals, ends⟩ := inductionHypothesis
      (lowering.path [] true scope first).2 steps.2 ordinary.2
    have ended := lowering.path_terminal [] true scope about.plain steps.1
    rw [if_neg (of_decide_eq_false ordinary.1)] at ended
    rw [branches_cons]
    refine ⟨List.forall_mem_cons.2 ⟨⟨_, ended⟩, terminals⟩, fun value => ?_⟩
    rw [List.exists_mem_cons_iff, List.exists_mem_cons_iff, ends,
      path_ends engine about scope steps.1 ordinary.1]
    rfl

/-- A fresh variable gets the values of the terminal to which it is bound. -/
theorem valueSet_bound {branch : Fragment} {name target : Variable}
    (ended : branch.terminal = some (.var name))
    (fresh : .var target ∉ branch.pattern.unknowns) :
    valueSet target ((bound target branch).pattern.solutions engine graph) =
      branch.ends engine graph := by
  have pattern : (bound target branch).pattern =
      branch.pattern ++ [.bind (.var name) target] := by
    rw [bound, ended]
    rfl
  rw [pattern, Sparql.valueSet_append_bind engine graph fresh, Fragment.ends_of_terminal ended]

/-- A union has the values of its branches together, whether they share a terminal already or are
bound to one. -/
theorem joined_ends (about : lowering.About graph resource) {before after : Scope}
    {branches : List Fragment} {condition : Prop} (given : branches ≠ [])
    (each : DecideEach engine graph before after branches condition)
    (terminals : ∀ branch ∈ branches, ∃ name, branch.terminal = some (.var name))
    (template : List Fragment → List Sparql.TemplateTriple) :
    (lowering.joined after branches).2.1.isSome ∧ ∀ value,
      value ∈ Fragment.ends engine graph
          ⟨[.union ((lowering.joined after branches).1.map Fragment.pattern)],
            template (lowering.joined after branches).1, (lowering.joined after branches).2.1⟩ ↔
        ∃ branch ∈ branches, value ∈ branch.ends engine graph := by
  obtain ⟨first, rest, rfl⟩ := List.exists_cons_of_ne_nil given
  obtain ⟨name, ended⟩ := terminals first List.mem_cons_self
  have head : (first :: rest).head?.bind Fragment.terminal = some (.var name) := ended
  unfold joined
  simp only [head]
  split
  · rename_i shared
    refine ⟨rfl, fun value => ?_⟩
    rw [Fragment.ends_of_terminal rfl, Sparql.mem_valueSet_union]
    simp only [List.mem_map, exists_exists_and_eq_and]
    refine exists_congr fun branch => and_congr_right fun member => ?_
    rw [Fragment.ends_of_terminal (of_decide_eq_true (List.all_eq_true.1 shared branch member))]
  · simp only [about.plain.node]
    refine ⟨rfl, fun value => ?_⟩
    rw [Fragment.ends_of_terminal rfl, Sparql.mem_valueSet_union, List.map_map]
    simp only [List.mem_map, exists_exists_and_eq_and, Function.comp_apply]
    refine exists_congr fun branch => and_congr_right fun member => ?_
    obtain ⟨own, last⟩ := terminals branch member
    rw [valueSet_bound engine last (each.fresh engine branch member)]

/-- The terminal of choices has exactly the values to which the choices lead. -/
theorem choices_ends (about : lowering.About graph resource) (scope : Scope)
    {choices : List ShapePath} (steps : ∀ path ∈ choices, path.path.hops ≠ 0)
    (ordinary : ∀ path ∈ choices, path.isWildcard = false) :
    ((lowering.choices [] true scope choices).1.terminal.isSome ↔ choices ≠ []) ∧
      (lowering.choices [] true scope choices).1.ends engine graph =
        {value | ∃ choice ∈ choices, choice.path.Leads graph (.iri resource) value} := by
  unfold Lowering.choices
  split
  · rename_i empty
    rw [List.isEmpty_iff.1 empty]
    exact ⟨iff_of_false nofun fun given => given rfl, by ext; simp [Fragment.ends, Fragment.empty]⟩
  · rename_i some
    have given : choices ≠ [] := fun none => some (List.isEmpty_iff.2 none)
    have each := branches_decide engine about [] true scope steps
    obtain ⟨terminals, ends⟩ := branches_end engine about scope steps ordinary
    have several : (lowering.branches [] true scope choices).1 ≠ [] := by
      obtain ⟨first, rest, rfl⟩ := List.exists_cons_of_ne_nil given
      exact List.cons_ne_nil _ _
    obtain ⟨ended, joined⟩ := joined_ends engine about several each terminals
      fun branches => branches.flatMap Fragment.template
    exact ⟨iff_of_true ended given, Set.ext fun value => (joined value).trans (ends value)⟩

/-! ### Property shapes -/

/-- A property shape that asks for nothing but its paths is lowered to a fragment whose terminal
has exactly the values to which its path or its choices lead, be it for a profile, which matches the
steps of a path one by one, or for an endpoint, which matches paths as a whole. -/
theorem property_ends {kind : ShapeKind} (described : kind ≠ .search)
    (node : .iri resource ∈ graph.nodes) {shape : PropertyShape} (ofPaths : shape.OfPaths)
    (complete : ∀ path ∈ shape.paths ++ shape.choices, path.path.Complete)
    (ordinary : ∀ path ∈ shape.paths ++ shape.choices, path.isWildcard = false) (scope : Scope) :
    ∃ fragment next,
      Lowering.property ⟨kind, .iri resource, []⟩ scope shape = .ok (fragment, next) ∧
      (fragment.terminal.isSome ↔ shape.paths ++ shape.choices ≠ []) ∧
      fragment.ends engine graph =
        {value | ∃ path ∈ shape.paths ++ shape.choices,
          path.path.Leads graph (.iri resource) value} := by
  have about : Lowering.About graph resource ⟨kind, .iri resource, []⟩ :=
    ⟨⟨described, rfl⟩, rfl, node⟩
  have steps : ∀ path ∈ shape.paths ++ shape.choices, path.path.hops ≠ 0 :=
    fun path member => (complete path member).hops_ne_zero
  obtain ⟨next, lowered⟩ := ofPaths.property ⟨kind, .iri resource, []⟩ scope
  refine ⟨_, next, lowered, ?_⟩
  rcases ofPaths.paths with ⟨path, only, none⟩ | none
  · rw [only, none, List.append_nil, List.forall_mem_singleton] at steps ordinary
    have terminal := Lowering.path_terminal _ [] true scope about.plain steps
    rw [if_neg (of_decide_eq_false ordinary)] at terminal
    rw [ofPaths.together_of_path _ _ only none, only, none,
      path_ends engine about scope steps ordinary, terminal]
    simp
  · rw [none, List.nil_append] at steps ordinary
    rw [ofPaths.together_of_choices _ _ none, none, List.nil_append]
    exact choices_ends engine about scope steps ordinary

/-- What leads from a document to its makers, and to the parts of what it cites. -/
def sourceShape : PropertyShape :=
  { id := "sources", paths := [],
    choices := [⟨.inverse (.predicate ⟨"http://ex/made"⟩), none⟩,
      ⟨.sequence [.predicate ⟨"http://ex/cites"⟩, .oneOrMore (.predicate ⟨"http://ex/part"⟩)],
        none⟩],
    classes := [], minCount := none, maxCount := none, filters := [] }

/-- A document with a maker, which cites a book with a chapter that has a section. -/
def sourceGraph : Rdf.Graph :=
  .ofList [⟨.iri ⟨"http://ex/ann"⟩, ⟨"http://ex/made"⟩, .iri ⟨"http://ex/doc"⟩⟩,
    ⟨.iri ⟨"http://ex/doc"⟩, ⟨"http://ex/cites"⟩, .iri ⟨"http://ex/book"⟩⟩,
    ⟨.iri ⟨"http://ex/book"⟩, ⟨"http://ex/part"⟩, .iri ⟨"http://ex/chapter"⟩⟩,
    ⟨.iri ⟨"http://ex/chapter"⟩, ⟨"http://ex/part"⟩, .iri ⟨"http://ex/section"⟩⟩]

/-- The profile of a document leads to its maker and to the section. -/
theorem property_ends_sources :
    ∃ fragment next,
      Lowering.property ⟨.profile, .iri ⟨"http://ex/doc"⟩, []⟩ (Scope.start "prof_1") sourceShape =
        .ok (fragment, next) ∧
      fragment.terminal.isSome ∧
      .iri ⟨"http://ex/ann"⟩ ∈ fragment.ends Engine.plain sourceGraph ∧
      .iri ⟨"http://ex/section"⟩ ∈ fragment.ends Engine.plain sourceGraph := by
  have described : ShapeKind.profile ≠ .search := by decide
  have node : .iri ⟨"http://ex/doc"⟩ ∈ sourceGraph.nodes := by decide
  have ofPaths : sourceShape.OfPaths := ⟨rfl, rfl, rfl, rfl, .inr rfl⟩
  obtain ⟨fragment, next, lowered, ended, ends⟩ := property_ends Engine.plain described node ofPaths
    (List.forall_mem_cons.2 ⟨rfl, List.forall_mem_singleton.2 rfl⟩)
    (List.forall_mem_cons.2 ⟨by decide, List.forall_mem_singleton.2 (by decide)⟩)
    (Scope.start "prof_1")
  have made : (Rdf.Term.iri ⟨"http://ex/ann"⟩, Rdf.Term.iri ⟨"http://ex/doc"⟩) ∈
      sourceGraph.edges ⟨"http://ex/made"⟩ := by decide
  have cited : (Rdf.Term.iri ⟨"http://ex/doc"⟩, Rdf.Term.iri ⟨"http://ex/book"⟩) ∈
      sourceGraph.edges ⟨"http://ex/cites"⟩ := by decide
  have chapter : (Rdf.Term.iri ⟨"http://ex/book"⟩, Rdf.Term.iri ⟨"http://ex/chapter"⟩) ∈
      sourceGraph.edges ⟨"http://ex/part"⟩ := by decide
  have second : (Rdf.Term.iri ⟨"http://ex/chapter"⟩, Rdf.Term.iri ⟨"http://ex/section"⟩) ∈
      sourceGraph.edges ⟨"http://ex/part"⟩ := by decide
  refine ⟨fragment, next, lowered, ended.2 (List.cons_ne_nil _ _), ?_, ?_⟩
  · rw [ends]
    exact ⟨_, List.mem_cons_self, made⟩
  · rw [ends]
    exact ⟨_, List.mem_cons_of_mem _ List.mem_cons_self, _, cited, _,
      .tail (.single chapter) second, rfl⟩

/-- Any number of citations. -/
def anyCitations : Path :=
  .zeroOrMore (.predicate ⟨"http://ex/cites"⟩)

/-- Any number of parts. -/
def anySections : Path :=
  .zeroOrMore (.predicate ⟨"http://ex/part"⟩)

/-- What leads from a document to the parts of what it cites, at any depth. -/
def citedShape : PropertyShape :=
  { id := "cited", paths := [⟨.sequence [anyCitations, anySections], none⟩], choices := [],
    classes := [], minCount := none, maxCount := none, filters := [] }

/-- The path leads from a resource that is only a predicate of the graph to that resource itself,
but the profile of the resource has no values. -/
theorem property_ends_predicate :
    citedShape.OfPaths ∧
      (∀ path ∈ citedShape.paths ++ citedShape.choices,
        path.path.Complete ∧ path.isWildcard = false) ∧
      (∃ triple ∈ sourceGraph.triples, triple.predicate = ⟨"http://ex/made"⟩) ∧
      (∃ path ∈ citedShape.paths ++ citedShape.choices,
        path.path.Leads sourceGraph (.iri ⟨"http://ex/made"⟩) (.iri ⟨"http://ex/made"⟩)) ∧
      ∃ fragment next,
        Lowering.property ⟨.profile, .iri ⟨"http://ex/made"⟩, []⟩ (Scope.start "prof_1") citedShape =
          .ok (fragment, next) ∧
        fragment.ends Engine.plain sourceGraph = ∅ := by
  have ofPaths : citedShape.OfPaths := ⟨rfl, rfl, rfl, rfl, .inl ⟨_, rfl, rfl⟩⟩
  have leads : ∃ path ∈ citedShape.paths ++ citedShape.choices,
      path.path.Leads sourceGraph (.iri ⟨"http://ex/made"⟩) (.iri ⟨"http://ex/made"⟩) :=
    ⟨_, List.mem_cons_self, _, .refl, _, .refl, rfl⟩
  let last : Term := .var ((Slot.node 2).toVariable "prof_1")
  have lowered : Lowering.property ⟨.profile, .iri ⟨"http://ex/made"⟩, []⟩ (Scope.start "prof_1")
      citedShape =
        .ok ({ Path.walk (.iri ⟨"http://ex/made"⟩)
            [(anyCitations, .var ((Slot.node 1).toVariable "prof_1")), (anySections, last)] with
          terminal := some last }, { Scope.start "prof_1" with nextNode := 3 }) := by
    with_unfolding_all rfl
  have outside : .iri ⟨"http://ex/made"⟩ ∉ sourceGraph.nodes := by decide
  exact ⟨ofPaths, List.forall_mem_singleton.2 ⟨rfl, by decide⟩, by decide, leads, _, _, lowered,
    Fragment.ends_eq_empty (not_solvable_walk Engine.plain outside rfl rfl)⟩

end Lowering

end ShapeQuery
