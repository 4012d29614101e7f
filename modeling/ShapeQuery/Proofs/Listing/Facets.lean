/-
This file proves that the counts of facets are exact. The branch of a path tells the resources and
values that the path relates, under the name of the path; alternatives tell what one of their
branches tells. Joined with the selected resources, they are grouped by name and value, so that a
resource counts once for them, however often the selection or the paths lead to it.
-/
import ShapeQuery.Listing.Facet
import ShapeQuery.Proofs.Shape.Scoping
import ShapeQuery.Proofs.Shape.Terminals

namespace ShapeQuery

open Sparql (Path Term Variable Group Element Expression Engine Select Solution Valuation Unknown
  AllMet valueSet extendAll extendAll_append passes passes_append)
open Shape (Scope Slot)

/-! ### Facets of paths -/

/-- Whether a path leads from a node of a graph to another one. Terms that the graph does not have
are related to nothing, not even to themselves. -/
def Sparql.Path.Relates (graph : Rdf.Graph) (path : Path) (first last : Rdf.Term) : Prop :=
  first ∈ graph.nodes ∧ path.Leads graph first last

/-- Whether a term is the name of the facet of a path: its synonym, or else its predicate, or else
its text. -/
def ShapePath.Named (path : ShapePath) (title : Rdf.Term) : Prop :=
  match path.synonym, path.path with
  | some synonym, _ => title = .iri synonym
  | none, .predicate predicate => title = .iri predicate
  | none, compound => ∃ text, compound.render = .ok text ∧ title = .literal (.plain text)

theorem Sparql.Path.Complete.render {path : Path} (complete : path.Complete) :
    ∃ text, path.render = .ok text := by
  unfold Path.render Sparql.rendered
  rw [complete]
  exact ⟨_, rfl⟩

namespace Listing.Facet

variable {engine : Engine} {graph : Rdf.Graph}

/-- A complete path has a name, which its label stands for. -/
theorem exists_label (engine : Engine) (graph : Rdf.Graph) {path : ShapePath}
    (complete : path.path.Complete) :
    ∃ expression title, label path = .ok expression ∧
      (∀ view, expression.value engine graph [] view = some title) ∧
      ∀ other, path.Named other ↔ other = title := by
  obtain ⟨path, synonym⟩ := path
  obtain ⟨text, rendered⟩ := Path.Complete.render complete
  have written (other : Rdf.Term) : (∃ found, path.render = .ok found ∧
      other = .literal (.plain found)) ↔ other = .literal (.plain text) := by
    have rendered : path.render = .ok text := rendered
    rw [rendered]
    exact ⟨fun ⟨_, same, named⟩ => Except.ok.inj same ▸ named, fun named => ⟨text, rfl, named⟩⟩
  cases synonym with
  | some synonym => exact ⟨_, _, rfl, fun _ => rfl, fun _ => Iff.rfl⟩
  | none =>
    cases path with
    | predicate predicate => exact ⟨_, _, rfl, fun _ => rfl, fun _ => Iff.rfl⟩
    | _ =>
      refine ⟨.literal (.plain text), .literal (.plain text), ?_, fun _ => rfl, written⟩
      simp only [label, Path.predicate?]
      rw [rendered]

/-! ### Walks -/

theorem plain_lowering : Lowering.Plain lowering :=
  ⟨nofun, rfl⟩

/-- The node that a path leads to. -/
def last (scope : Scope) (path : Path) : Variable :=
  (Slot.node (scope.nextNode + path.hops - 1)).toVariable scope.stem

/-- The pattern of a path from the focus. -/
def walked (scope : Scope) (path : Path) : Group :=
  (lowering.along path (lowering.nodes scope.stem scope.nextNode path.hops)
    (.var (last scope path))).pattern

/-- The property shape of a single path is lowered to the pattern of the path. -/
theorem property_single (shape : String) (scope : Scope) {path : ShapePath}
    (step : path.path.hops ≠ 0) (ordinary : path.isWildcard = false) :
    ∃ fragment next, lowering.property scope (single shape path) = .ok (fragment, next) ∧
      fragment.pattern = walked scope path.path ∧
      fragment.terminal = some (.var (last scope path.path)) := by
  have ofPaths : (single shape path).OfPaths := ⟨rfl, rfl, rfl, rfl, .inl ⟨path, rfl, rfl⟩⟩
  obtain ⟨next, lowered⟩ := ofPaths.property lowering scope
  rw [ofPaths.together_of_path lowering scope rfl rfl] at lowered
  refine ⟨_, next, lowered, ?_, ?_⟩
  · rw [Lowering.path_pattern plain_lowering [] true scope step ordinary]
    exact List.append_nil _
  · rw [lowering.path_terminal [] true scope plain_lowering step,
      if_neg (of_decide_eq_false ordinary)]
    rfl

theorem positive_walked (scope : Scope) (path : Path) : Sparql.AllPositive (walked scope path) :=
  Lowering.positive_along _ _ _

/-- What a solution of the pattern of a path pairs is related by the path. -/
theorem relates_of_walked {scope : Scope} {path : Path} (step : path.hops ≠ 0)
    {current solution : Solution}
    (member : solution ∈ extendAll engine graph .empty current (walked scope path)) :
    ∃ resource found, solution (.var Shape.focusNode) = some resource ∧
      solution (.var (last scope path)) = some found ∧ path.Relates graph resource found := by
  have positive := positive_walked scope path
  have related {valuation : Valuation} (met : AllMet graph valuation (walked scope path)) :
      path.Relates graph (valuation (.var Shape.focusNode)) (valuation (.var (last scope path))) :=
    have node := Lowering.node_of_met_along plain_lowering rfl step met
    ⟨node, Lowering.leads_of_met_along plain_lowering step met⟩
  obtain ⟨resource, focusKnown⟩ := Sparql.binds_of_confined positive
    (fun valuation met => (related met).1) member
  obtain ⟨found, lastKnown⟩ := Sparql.binds_of_confined positive
    (fun valuation met => (Path.mem_nodes_iff_of_leads path (related met).2).1 (related met).1)
    member
  have fits := Valuation.fits_ofSolution solution
  have relates := related (Sparql.allMet_of_fits engine _ positive member fits).1
  rw [fits _ _ focusKnown, fits _ _ lastKnown] at relates
  exact ⟨resource, found, focusKnown, lastKnown, relates⟩

theorem earlier_focus (stem : String) (first : Nat) :
    Path.Earlier stem first (.var Shape.focusNode) :=
  fun number _ same =>
    Slot.toVariable_ne_focusNode stem (.node number) (Unknown.var.inj same).symm

/-- What a path relates is paired by a solution of its pattern, also where the resource is known. -/
theorem exists_walked {scope : Scope} {path : Path} (step : path.hops ≠ 0)
    {current : Solution} (within : current.Within [.var Shape.focusNode])
    {resource found : Rdf.Term}
    (agrees : ∀ known, current (.var Shape.focusNode) = some known → known = resource)
    (relates : path.Relates graph resource found) :
    ∃ solution ∈ extendAll engine graph .empty current (walked scope path),
      solution (.var Shape.focusNode) = some resource ∧
        solution (.var (last scope path)) = some found := by
  have earlier : ∀ unknown, lowering.focus.unknown? = some unknown →
      Path.Earlier scope.stem scope.nextNode unknown := by
    intro unknown named
    cases named
    exact earlier_focus _ _
  obtain ⟨valuation, kept, met, ended⟩ := Lowering.exists_met_along plain_lowering step
    (show Valuation.term (fun _ => resource) lowering.focus ∈ graph.nodes from relates.1) earlier
    relates.2
  have start : valuation (.var Shape.focusNode) = resource := kept _ (earlier_focus _ _)
  have fits : valuation.Fits current := by
    intro unknown value known
    by_cases isFocus : unknown = .var Shape.focusNode
    · rw [isFocus] at known ⊢
      rw [start, agrees value known]
    · rw [within unknown fun member => isFocus (List.mem_singleton.1 member)] at known
      cases known
  obtain ⟨solution, member, solutionFits⟩ :=
    Sparql.exists_extendAll engine _ (positive_walked scope path) fits met
  obtain ⟨first, other, firstKnown, otherKnown, -⟩ := relates_of_walked step member
  have otherSame : valuation (.var (last scope path)) = found := ended
  refine ⟨solution, member, ?_, ?_⟩
  · rw [firstKnown, ← solutionFits _ _ firstKnown, start]
  · rw [otherKnown, ← solutionFits _ _ otherKnown, otherSame]

/-! ### Branches -/

/-- Whether a solution tells a resource, the name of a facet and a value. -/
structure Row (solution : Solution) (resource title found : Rdf.Term) : Prop where
  focus : solution (.var Shape.focusNode) = some resource
  name : solution (.var name) = some title
  value : solution (.var value) = some found

theorem Row.extends {more fewer : Solution} {resource title found : Rdf.Term}
    (row : Row fewer resource title found) (grows : more.Extends fewer) :
    Row more resource title found :=
  ⟨grows _ _ row.focus, grows _ _ row.name, grows _ _ row.value⟩

/-- Whether the solutions of a group, joined with a resource or with nothing, tell exactly the
resources, names and values that are in a relation. -/
structure Tells (engine : Engine) (graph : Rdf.Graph) (group : Group)
    (facts : Rdf.Term → Rdf.Term → Rdf.Term → Prop) : Prop where
  unfiltered : ∀ view, passes engine graph view group = true
  sound : ∀ {current solution : Solution}, current.Within [.var Shape.focusNode] →
    solution ∈ extendAll engine graph .empty current group →
      ∃ resource title found, Row solution resource title found ∧ facts resource title found
  complete : ∀ {current : Solution} {resource title found : Rdf.Term},
    current.Within [.var Shape.focusNode] →
    (∀ known, current (.var Shape.focusNode) = some known → known = resource) →
    facts resource title found →
      ∃ solution ∈ extendAll engine graph .empty current group, Row solution resource title found

/-- What the facet of a path tells. -/
def facts (graph : Rdf.Graph) (path : ShapePath) (resource title found : Rdf.Term) : Prop :=
  path.Named title ∧ path.path.Relates graph resource found

/-- Two variables without a value are bound one after the other. -/
theorem extendAll_binds {solution : Solution} {expression : Expression} {source : Variable}
    {title found : Rdf.Term} (nameFree : solution (.var name) = none)
    (valueFree : solution (.var value) = none) (known : solution (.var source) = some found)
    (stands : ∀ view, expression.value engine graph [] view = some title) :
    ∃ further, extendAll engine graph .empty solution
        [.bind expression name, .bind (.var source) value] = [further] ∧
      further.Extends solution ∧ further (.var name) = some title ∧
      further (.var value) = some found := by
  let titled := solution.merge (Function.update Solution.empty (.var name) (some title))
  have named : titled (.var name) = some title :=
    (Solution.merge_of_none nameFree _).trans (Function.update_self ..)
  have free : titled (.var value) = none :=
    (Solution.merge_of_none valueFree _).trans (Function.update_of_ne (by decide) ..)
  have ended : Expression.value engine graph [] titled (.var source) = some found := by
    rw [Expression.value]
    exact Solution.merge_of_some known _
  refine ⟨titled.merge (Function.update Solution.empty (.var value) (some found)), ?_, ?_,
    Solution.merge_of_some named _, (Solution.merge_of_none free _).trans (Function.update_self ..)⟩
  · rw [extendAll, Element.extend_bind_value engine graph nameFree (stands solution),
      List.flatMap_singleton, extendAll, Element.extend_bind_value engine graph free ended,
      List.flatMap_singleton]
    rfl
  · exact fun unknown value given =>
      Solution.merge_of_some (Solution.merge_of_some given _) _

/-- The names of the nodes of paths are compound, those of facets are not. -/
theorem free_of_walked {scope : Scope} {path : Path} (step : path.hops ≠ 0)
    {current solution : Solution} (within : current.Within [.var Shape.focusNode])
    (member : solution ∈ extendAll engine graph .empty current (walked scope path))
    {target : Variable} (single : ¬ target.IsCompound) : solution (.var target) = none := by
  have focus : target ≠ Shape.focusNode := by
    rintro rfl
    exact single (by decide)
  refine Sparql.extendAll_within engine graph (walked scope path) .empty current
    (within.mono (List.subset_append_left _ _)) (List.subset_append_right _ _) solution member _ ?_
  intro inside
  rcases List.mem_append.1 inside with isFocus | named
  · exact focus (Unknown.var.inj (List.mem_singleton.1 isFocus))
  · rcases Lowering.mem_unknowns_along plain_lowering step named with isFocus | ⟨_, -, isNode⟩
    · cases isFocus
      exact focus rfl
    · cases isNode
      exact single (Slot.isCompound _ _)

theorem tells_branch (engine : Engine) (graph : Rdf.Graph) (shape : String) (scope : Scope)
    {path : ShapePath} (complete : path.path.Complete) (ordinary : path.isWildcard = false) :
    ∃ group next, branch shape scope path = .ok (group, next) ∧
      Tells engine graph group (facts graph path) := by
  have step := complete.hops_ne_zero
  obtain ⟨fragment, next, lowered, pattern, terminal⟩ := property_single shape scope step ordinary
  obtain ⟨expression, title, labelled, stands, named⟩ := exists_label engine graph complete
  refine ⟨walked scope path.path ++
    [.bind expression name, .bind (.var (last scope path.path)) value], next, ?_, ?_, ?_, ?_⟩
  · have ended : fragment.terminal.bind Term.expression? =
        some (.var (last scope path.path)) := by
      rw [terminal]
      rfl
    unfold branch
    simp only [lowered, Except.mapError, bind, Except.bind, ended, labelled, pattern]
    rfl
  · intro view
    rw [passes_append, Sparql.passes_of_positive engine view (positive_walked scope path.path)]
    rfl
  · intro current solution within member
    rw [extendAll_append] at member
    obtain ⟨walk, walkMember, added⟩ := List.mem_flatMap.1 member
    obtain ⟨resource, found, focusKnown, lastKnown, relates⟩ := relates_of_walked step walkMember
    obtain ⟨further, bound, grows, titled, valued⟩ := extendAll_binds
      (free_of_walked step within walkMember (by decide))
      (free_of_walked step within walkMember (by decide)) lastKnown stands
    rw [bound, List.mem_singleton] at added
    rw [added]
    exact ⟨resource, title, found, ⟨grows _ _ focusKnown, titled, valued⟩,
      (named title).2 rfl, relates⟩
  · rintro current resource other found within agrees ⟨isName, relates⟩
    cases (named other).1 isName
    obtain ⟨walk, walkMember, focusKnown, lastKnown⟩ := exists_walked step within agrees relates
    obtain ⟨further, bound, grows, titled, valued⟩ := extendAll_binds
      (free_of_walked step within walkMember (by decide))
      (free_of_walked step within walkMember (by decide)) lastKnown stands
    refine ⟨further, ?_, grows _ _ focusKnown, titled, valued⟩
    rw [extendAll_append]
    exact List.mem_flatMap.2 ⟨walk, walkMember, bound ▸ List.mem_singleton_self _⟩

/-- Every path has a branch that tells its facet. -/
theorem tells_branches (engine : Engine) (graph : Rdf.Graph) (shape : String) (scope : Scope)
    {paths : List ShapePath} (complete : ∀ path ∈ paths, path.path.Complete)
    (ordinary : ∀ path ∈ paths, path.isWildcard = false) :
    ∃ groups, branches shape scope paths = .ok groups ∧
      List.Forall₂ (fun path group => Tells engine graph group (facts graph path)) paths groups := by
  induction paths generalizing scope with
  | nil => exact ⟨[], rfl, .nil⟩
  | cons path rest inductionHypothesis =>
    rw [List.forall_mem_cons] at complete ordinary
    obtain ⟨first, next, firstMade, firstTells⟩ :=
      tells_branch engine graph shape scope complete.1 ordinary.1
    obtain ⟨others, othersMade, othersTell⟩ := inductionHypothesis next complete.2 ordinary.2
    refine ⟨first :: others, ?_, .cons firstTells othersTell⟩
    rw [branches, firstMade]
    show (branches shape next rest >>= _) = _
    rw [othersMade]
    rfl

/-! ### Alternatives -/

section Alternatives

variable {Index : Type} {items : List Index} {groups : List Group}
  {facts : Index → Rdf.Term → Rdf.Term → Rdf.Term → Prop}
  (each : List.Forall₂ (fun item group => Tells engine graph group (facts item)) items groups)

include each

theorem row_of_branchSolution :
    ∀ solution ∈ Sparql.branchSolutions engine graph .empty groups,
      ∃ resource title found, Row solution resource title found ∧
        ∃ item ∈ items, facts item resource title found := by
  induction each with
  | nil => exact fun _ member => absurd member List.not_mem_nil
  | cons first rest inductionHypothesis =>
    intro solution member
    rcases List.mem_append.1 member with inFirst | later
    · obtain ⟨resource, title, found, row, fact⟩ :=
        first.sound (Solution.within_empty _) (List.mem_filter.1 inFirst).1
      exact ⟨resource, title, found, row, _, List.mem_cons_self, fact⟩
    · obtain ⟨resource, title, found, row, item, among, fact⟩ :=
        inductionHypothesis solution later
      exact ⟨resource, title, found, row, item, List.mem_cons_of_mem _ among, fact⟩

theorem exists_branchSolution_of_facts {item : Index} (among : item ∈ items)
    {resource title found : Rdf.Term} (fact : facts item resource title found) :
    ∃ solution ∈ Sparql.branchSolutions engine graph .empty groups,
      Row solution resource title found := by
  induction each with
  | nil => cases among
  | cons first rest inductionHypothesis =>
    rcases List.mem_cons.1 among with rfl | later
    · obtain ⟨solution, member, row⟩ := first.complete (Solution.within_empty _)
        (fun _ known => by cases known) fact
      exact ⟨solution, List.mem_append_left _
        (List.mem_filter.2 ⟨member, first.unfiltered _⟩), row⟩
    · obtain ⟨solution, member, row⟩ := inductionHypothesis later
      exact ⟨solution, List.mem_append_right _ member, row⟩

/-- A union tells what one of its branches tells. -/
theorem Tells.union : Tells engine graph [.union groups] fun resource title found =>
    ∃ item ∈ items, facts item resource title found where
  unfiltered _ := rfl
  sound _ member := by
    obtain ⟨joint, extended, same⟩ := List.mem_flatMap.1 member
    obtain ⟨-, candidate, among, grown, -⟩ := Solution.exists_of_mem_joined extended
    obtain ⟨resource, title, found, row, fact⟩ := row_of_branchSolution each candidate among
    rw [List.mem_singleton.1 same]
    exact ⟨resource, title, found, row.extends grown, fact⟩
  complete := by
    rintro current resource title found within agrees ⟨item, among, fact⟩
    obtain ⟨candidate, member, row⟩ := exists_branchSolution_of_facts each among fact
    have compatible : current.Compatible candidate := by
      intro unknown left right known other
      by_cases isFocus : unknown = .var Shape.focusNode
      · rw [isFocus] at known other
        rw [agrees left known]
        exact Option.some.inj (row.focus.symm.trans other)
      · rw [within unknown fun member => isFocus (List.mem_singleton.1 member)] at known
        cases known
    have extended : current.merge candidate ∈
        Element.extend engine graph .empty current (.union groups) :=
      Solution.mem_joined.2
        ⟨candidate, member, (Solution.merge_empty current).symm ▸ compatible, rfl⟩
    exact ⟨current.merge candidate, List.mem_flatMap.2 ⟨_, extended, List.mem_singleton_self _⟩,
      row.extends (Solution.extends_merge_right compatible)⟩

/-- Alternatives tell what one of them tells, whether they stand alone or in a union. -/
theorem tells_alternatives : Tells engine graph (alternatives groups) fun resource title found =>
    ∃ item ∈ items, facts item resource title found := by
  unfold alternatives
  split
  · cases each with
    | cons first none =>
      cases none
      simpa only [List.mem_singleton, exists_eq_left] using first
  · exact Tells.union each

end Alternatives

/-! ### Selected resources -/

/-- The resources that a selection has solutions for. -/
def selected (engine : Engine) (graph : Rdf.Graph) (selection : Group) : Set Rdf.Term :=
  valueSet Shape.focusNode ((resources selection).solutions engine graph)

/-- The pattern whose solutions are counted. -/
def counted (selection group : Group) : Group :=
  distinctly [.var Shape.focusNode] (resources selection) .empty :: group

theorem mem_solutions_counted {group selection : Group}
    (unfiltered : ∀ view, passes engine graph view group = true) {solution : Solution} :
    solution ∈ (counted selection group).solutions engine graph ↔
      ∃ row ∈ (resources selection).solutions engine graph,
        solution ∈ extendAll engine graph .empty (row.restrict [Shape.focusNode]) group := by
  have accepted (view : Solution) : passes engine graph view (counted selection group) = true :=
    unfiltered view
  have start (current : Solution) : current ∈ Element.extend engine graph .empty .empty
        (distinctly [.var Shape.focusNode] (resources selection) .empty) ↔
      ∃ row ∈ (resources selection).solutions engine graph,
        row.restrict [Shape.focusNode] = current := by
    rw [distinctly, Element.extend, Solution.joined_empty_empty]
    have each := Select.perm_solutions_vars engine graph [Shape.focusNode] (resources selection) []
    exact each.mem_iff.trans (List.mem_dedup.trans List.mem_map)
  rw [Sparql.rows_eq_solutions engine graph _ |>.symm, List.mem_filter, and_iff_left (accepted _),
    counted, extendAll, List.mem_flatMap]
  simp only [start, exists_exists_and_eq_and]

/-- The selected resources that have a value under a name. -/
def holders (engine : Engine) (graph : Rdf.Graph) (selection : Group)
    (facts : Rdf.Term → Rdf.Term → Rdf.Term → Prop) (title found : Rdf.Term) : Set Rdf.Term :=
  {resource | resource ∈ selected engine graph selection ∧ facts resource title found}

theorem finite_holders (selection : Group) (facts : Rdf.Term → Rdf.Term → Rdf.Term → Prop)
    (title found : Rdf.Term) : (holders engine graph selection facts title found).Finite :=
  (Sparql.finite_valueSet Shape.focusNode ((resources selection).solutions engine graph)).subset
    fun _ both => both.1

/-- The solution that tells a name, a value and a number. -/
def told (title found : Rdf.Term) (number : Nat) : Solution :=
  (Solution.pair name value title found).numbered count number

section Counted

variable {selection group : Group} {facts : Rdf.Term → Rdf.Term → Rdf.Term → Prop}
  (tells : Tells engine graph group facts)
  (binds : ∀ solution ∈ (resources selection).solutions engine graph,
    solution.Binds Shape.focusNode)

include tells binds

/-- The counted solutions tell what is told of selected resources. -/
theorem row_of_counted {solution : Solution}
    (member : solution ∈ (counted selection group).solutions engine graph) :
    ∃ resource title found, Row solution resource title found ∧
      resource ∈ selected engine graph selection ∧ facts resource title found := by
  obtain ⟨start, startMember, extended⟩ := (mem_solutions_counted tells.unfiltered).1 member
  obtain ⟨resource, known⟩ := binds start startMember
  obtain ⟨other, title, found, row, fact⟩ :=
    tells.sound (Solution.Within.restrict start [Shape.focusNode]) extended
  have kept := Sparql.extends_of_extendAll extended (.var Shape.focusNode) resource
    ((Solution.restrict_var List.mem_cons_self).trans known)
  cases row.focus.symm.trans kept
  exact ⟨resource, title, found, row, ⟨start, startMember, known⟩, fact⟩

theorem exists_counted_iff {resource title found : Rdf.Term} :
    (∃ solution ∈ (counted selection group).solutions engine graph,
        Row solution resource title found) ↔
      resource ∈ selected engine graph selection ∧ facts resource title found := by
  constructor
  · rintro ⟨solution, member, row⟩
    obtain ⟨other, otherTitle, otherFound, same, chosen, fact⟩ := row_of_counted tells binds member
    cases same.focus.symm.trans row.focus
    cases same.name.symm.trans row.name
    cases same.value.symm.trans row.value
    exact ⟨chosen, fact⟩
  · rintro ⟨⟨start, startMember, known⟩, fact⟩
    have agrees : ∀ other, start.restrict [Shape.focusNode] (.var Shape.focusNode) = some other →
        other = resource := by
      intro other same
      rw [Solution.restrict_var List.mem_cons_self, known] at same
      exact (Option.some.inj same).symm
    obtain ⟨solution, extended, row⟩ :=
      tells.complete (Solution.Within.restrict start [Shape.focusNode]) agrees fact
    exact ⟨solution, (mem_solutions_counted tells.unfiltered).2 ⟨start, startMember, extended⟩, row⟩

theorem holders_of_counted (title found : Rdf.Term) :
    {resource | ∃ row ∈ (counted selection group).solutions engine graph,
      row (.var name) = some title ∧ row (.var value) = some found ∧
        row (.var Shape.focusNode) = some resource} =
      holders engine graph selection facts title found := by
  refine Set.ext fun resource => Iff.trans ?_ (exists_counted_iff tells binds)
  exact exists_congr fun row => and_congr_right fun _ =>
    ⟨fun ⟨titled, valued, known⟩ => ⟨known, titled, valued⟩,
      fun row => ⟨row.name, row.value, row.focus⟩⟩

theorem nonempty_holders_iff (title found : Rdf.Term) :
    (holders engine graph selection facts title found).Nonempty ↔
      ∃ row ∈ (counted selection group).solutions engine graph,
        row (.var name) = some title ∧ row (.var value) = some found := by
  rw [← holders_of_counted tells binds]
  constructor
  · rintro ⟨resource, row, member, titled, valued, -⟩
    exact ⟨row, member, titled, valued⟩
  · rintro ⟨row, member, titled, valued⟩
    obtain ⟨resource, _, _, same, -⟩ := row_of_counted tells binds member
    exact ⟨resource, row, member, titled, valued, same.focus⟩

/-- A name and a value are told with the number of the resources that have the value under the
name, if there are any. -/
theorem mem_counts {solution : Solution} :
    solution ∈ (Select.countEach [name, value] Shape.focusNode count
        (counted selection group)).solutions engine graph ↔
      ∃ title found, 0 < (holders engine graph selection facts title found).ncard ∧
        solution = told title found (holders engine graph selection facts title found).ncard := by
  rw [Select.mem_solutions_countEach_pair engine graph (by decide) Shape.focusNode count
    fun row member => by
      obtain ⟨_, title, found, same, -⟩ := row_of_counted tells binds member
      exact ⟨⟨title, same.name⟩, ⟨found, same.value⟩⟩]
  refine exists_congr fun title => exists_congr fun found => ?_
  rw [holders_of_counted tells binds, Set.ncard_pos (finite_holders selection facts title found),
    nonempty_holders_iff tells binds]
  rfl

end Counted

/-! ### Counts -/

/-- The counts of facets are exact. A name and a value are told once, with the number of the
selected resources from which a path of that name leads to the value, and only if there are any. -/
theorem query_counts_exactly (engine : Engine) (graph : Rdf.Graph) {shape : PropertyShape}
    {selection : Group} (given : shape.paths ++ shape.choices ≠ [])
    (ordinary : ∀ path ∈ shape.paths ++ shape.choices, path.isWildcard = false)
    (complete : ∀ path ∈ shape.paths ++ shape.choices, path.path.Complete)
    (binds : ∀ solution ∈ (resources selection).solutions engine graph,
      solution.Binds Shape.focusNode) :
    ∃ query table, Facet.query shape selection = .ok query ∧ query.pattern = [.select table] ∧
      (table.solutions engine graph).Nodup ∧
      ∀ row, row ∈ table.solutions engine graph ↔ ∃ title found number,
        number = {resource | resource ∈ selected engine graph selection ∧
          ∃ path ∈ shape.paths ++ shape.choices,
            path.Named title ∧ path.path.Relates graph resource found}.ncard ∧
        0 < number ∧ row = told title found number := by
  obtain ⟨groups, made, each⟩ := tells_branches engine graph shape.id
    (Scope.start (lowering.kind.stem 0)) complete ordinary
  let table := Select.countEach [name, value] Shape.focusNode count
    (counted selection (alternatives groups))
  refine ⟨.ofTemplate template [.select table] .empty, table, ?_, rfl,
    Select.nodup_solutions_countEach engine graph (List.cons_ne_nil _ _) _ (by decide) _,
    fun row => ?_⟩
  · unfold Facet.query
    rw [if_neg (by rwa [List.isEmpty_iff]), made]
    rfl
  · rw [mem_counts (tells_alternatives each) binds]
    simp only [exists_eq_left]
    rfl

/-- The facet of the makers of documents, along a path and perhaps along further ones. -/
def makers (further : List ShapePath) : PropertyShape :=
  { id := "facets", paths := [⟨.predicate ⟨"http://ex/creator"⟩, some ⟨"http://ex/maker"⟩⟩],
    choices := further, classes := [], minCount := none, maxCount := none, filters := [] }

/-- What leads to the makers of documents from what the makers tell. -/
def madeBy : ShapePath :=
  ⟨.inverse (.predicate ⟨"http://ex/made"⟩), some ⟨"http://ex/maker"⟩⟩

/-- A document with two types and a maker, which both the document and the maker tell. -/
def library : Rdf.Graph :=
  .ofList [⟨.iri ⟨"http://ex/doc"⟩, Vocabulary.rdfType, .iri ⟨"http://ex/Book"⟩⟩,
    ⟨.iri ⟨"http://ex/doc"⟩, Vocabulary.rdfType, .iri ⟨"http://ex/Dataset"⟩⟩,
    ⟨.iri ⟨"http://ex/doc"⟩, ⟨"http://ex/creator"⟩, .iri ⟨"http://ex/ann"⟩⟩,
    ⟨.iri ⟨"http://ex/ann"⟩, ⟨"http://ex/made"⟩, .iri ⟨"http://ex/doc"⟩⟩]

/-- The document is the only one with its maker, also if a further path tells so. -/
theorem ncard_holders_library {further : List ShapePath}
    (all : ∀ path ∈ further, ∀ resource,
      path.path.Relates library resource (.iri ⟨"http://ex/ann"⟩) →
        resource = .iri ⟨"http://ex/doc"⟩) :
    {resource | resource ∈ selected Engine.plain library [] ∧
      ∃ path ∈ (makers further).paths ++ (makers further).choices,
        path.Named (.iri ⟨"http://ex/maker"⟩) ∧
          path.path.Relates library resource (.iri ⟨"http://ex/ann"⟩)}.ncard = 1 := by
  have creators : library.edges ⟨"http://ex/creator"⟩ =
      [(.iri ⟨"http://ex/doc"⟩, .iri ⟨"http://ex/ann"⟩)] := by decide
  have chosen : .iri ⟨"http://ex/doc"⟩ ∈ selected Engine.plain library [] := by
    obtain ⟨solution, member, known, -⟩ := Group.exists_solution_of_edge Engine.plain
      (show (Rdf.Term.iri ⟨"http://ex/doc"⟩, Rdf.Term.iri ⟨"http://ex/Book"⟩) ∈
        library.edges Vocabulary.rdfType by decide)
      (by decide : Listing.focusClass ≠ Shape.focusNode)
    exact ⟨solution, member, known⟩
  refine Set.ncard_eq_one.2 ⟨.iri ⟨"http://ex/doc"⟩, Set.ext fun resource => ⟨?_, ?_⟩⟩
  · rintro ⟨-, path, among, -, relates⟩
    rcases List.mem_cons.1 among with rfl | later
    · have edge : (resource, _) ∈ library.edges _ := relates.2
      rw [creators, List.mem_singleton] at edge
      exact (Prod.mk.inj edge).1
    · exact all path later resource relates
  · rintro rfl
    have edge : (Rdf.Term.iri ⟨"http://ex/doc"⟩, Rdf.Term.iri ⟨"http://ex/ann"⟩) ∈
        library.edges ⟨"http://ex/creator"⟩ := creators ▸ List.mem_singleton_self _
    exact ⟨chosen, _, List.mem_cons_self, rfl, (Rdf.Graph.mem_nodes_of_mem_edges edge).1, edge⟩

/-- The document counts once for its maker, along one path and along two. -/
theorem query_counts_exactly_makers :
    (∃ query table, Facet.query (makers []) [] = .ok query ∧ query.pattern = [.select table] ∧
      told (.iri ⟨"http://ex/maker"⟩) (.iri ⟨"http://ex/ann"⟩) 1 ∈
        table.solutions Engine.plain library) ∧
    ∃ query table, Facet.query (makers [madeBy]) [] = .ok query ∧
      query.pattern = [.select table] ∧
      told (.iri ⟨"http://ex/maker"⟩) (.iri ⟨"http://ex/ann"⟩) 1 ∈
        table.solutions Engine.plain library := by
  have binds : ∀ solution ∈ Group.solutions Engine.plain library (resources []),
      solution.Binds Shape.focusNode :=
    Group.binds_of_solution Sparql.Engine.plain_serves
      (Sparql.groupBinds_single.2 (List.mem_append_left _ (List.mem_append_left _
        List.mem_cons_self)))
  have backwards : ∀ path ∈ [madeBy], ∀ resource,
      path.path.Relates library resource (.iri ⟨"http://ex/ann"⟩) →
        resource = .iri ⟨"http://ex/doc"⟩ := by
    refine List.forall_mem_singleton.2 fun resource relates => ?_
    have made : library.edges ⟨"http://ex/made"⟩ =
      [(.iri ⟨"http://ex/ann"⟩, .iri ⟨"http://ex/doc"⟩)] := by decide
    have edge : (_, resource) ∈ library.edges _ := relates.2
    rw [made, List.mem_singleton] at edge
    exact (Prod.mk.inj edge).2
  constructor
  · have given : (makers []).paths ++ (makers []).choices ≠ [] := List.cons_ne_nil _ _
    obtain ⟨query, table, made, pattern, -, counts⟩ := query_counts_exactly Engine.plain library
      given (List.forall_mem_singleton.2 (by decide)) (List.forall_mem_singleton.2 rfl) binds
    exact ⟨query, table, made, pattern, (counts _).2 ⟨_, _, 1,
      (ncard_holders_library fun _ member => absurd member List.not_mem_nil).symm,
      Nat.one_pos, rfl⟩⟩
  · have given : (makers [madeBy]).paths ++ (makers [madeBy]).choices ≠ [] := List.cons_ne_nil _ _
    obtain ⟨query, table, made, pattern, -, counts⟩ := query_counts_exactly Engine.plain library
      given (List.forall_mem_cons.2 ⟨by decide, List.forall_mem_singleton.2 (by decide)⟩)
      (List.forall_mem_cons.2 ⟨rfl, List.forall_mem_singleton.2 rfl⟩) binds
    exact ⟨query, table, made, pattern, (counts _).2 ⟨_, _, 1,
      (ncard_holders_library backwards).symm, Nat.one_pos, rfl⟩⟩

end Listing.Facet

end ShapeQuery
