/-
This file proves that every part of a property shape is decided by a pattern of its own, whose
unknowns have numbers that no other part uses. Only the step to the end of a path and the class of
that end share a value.
-/
import ShapeQuery.Proofs.Shape.Ownership
import ShapeQuery.Proofs.Shape.Steps
import ShapeQuery.Proofs.Sparql.Binding

namespace ShapeQuery

open Sparql (Path Term Variable Group Engine Valuation Unknown AllMet AllPositive Solution)
open Shape (Slot Scope)

namespace Lowering

variable (engine : Engine) {graph : Rdf.Graph} {lowering : Lowering} {resource : Iri}

/-- Whether a lowering is for a given resource of a graph. -/
structure About (graph : Rdf.Graph) (resource : Iri) (lowering : Lowering) : Prop where
  plain : lowering.Plain
  focus : lowering.focus = .iri resource
  node : .iri resource ∈ graph.nodes

namespace About

variable (about : lowering.About graph resource)

include about

theorem term_focus (valuation : Valuation) : valuation.term lowering.focus = .iri resource := by
  rw [about.focus]
  rfl

theorem node_focus (valuation : Valuation) : valuation.term lowering.focus ∈ graph.nodes := by
  rw [about.term_focus]
  exact about.node

theorem unknown?_focus : lowering.focus.unknown? = none := by
  rw [about.focus]
  rfl

end About

/-! ### Paths -/

theorem exists_met_anyTriple (about : lowering.About graph resource)
    {predicate value : Variable} (different : predicate ≠ value) {triple : Rdf.Triple}
    (member : triple ∈ graph.triples) (subject : triple.subject.term = .iri resource) :
    ∃ valuation : Valuation,
      AllMet graph valuation (lowering.anyTriple predicate value).pattern ∧
        valuation (.var predicate) = .iri triple.predicate := by
  let valuation : Valuation :=
    Function.update (fun _ => triple.object) (.var predicate) (.iri triple.predicate)
  have named : valuation (.var predicate) = .iri triple.predicate := Function.update_self ..
  have object : valuation (.var value) = triple.object :=
    Function.update_of_ne (fun equal => different (Unknown.var.inj equal).symm) ..
  have focus : valuation.term lowering.focus = triple.subject.term := by
    rw [about.focus, subject]
    rfl
  exact ⟨valuation, ⟨⟨triple, member, focus, named, object⟩, trivial⟩, named⟩

/-- Some triple of the focus with any predicate. -/
theorem solvable_anyTriple (about : lowering.About graph resource) {predicate value : Variable}
    (different : predicate ≠ value) :
    (lowering.anyTriple predicate value).pattern.Solvable engine graph ↔
      graph.Describes resource := by
  have positive : AllPositive (lowering.anyTriple predicate value).pattern := ⟨trivial, trivial⟩
  rw [Group.solvable_iff_met engine positive]
  constructor
  · rintro ⟨valuation, ⟨triple, member, subject, -⟩, -⟩
    have subject : valuation.term lowering.focus = triple.subject.term := subject
    rw [about.focus] at subject
    exact ⟨triple, member, subject.symm⟩
  · rintro ⟨triple, member, subject⟩
    obtain ⟨valuation, met, -⟩ := exists_met_anyTriple about different member subject
    exact ⟨valuation, met⟩

theorem mem_unknowns_anyTriple (about : lowering.About graph resource)
    {predicate value : Variable} {unknown : Unknown}
    (member : unknown ∈ (lowering.anyTriple predicate value).pattern.unknowns) :
    unknown = .var predicate ∨ unknown = .var value := by
  rcases mem_unknowns_triple member with inFocus | ⟨name, verb, rfl⟩ | inValue
  · rw [about.focus] at inFocus
    cases inFocus
  · cases verb
    exact .inl rfl
  · exact .inr (Option.some.inj inValue).symm

theorem nodes_eq_numbered (plain : lowering.Plain) (stem : String) (first hops : Nat) :
    lowering.nodes stem first hops = Path.numbered stem first hops :=
  plain.nodes stem first hops

/-- The node at the end of a path with the given number of steps. -/
def lastNode (stem : String) (first hops : Nat) : Term :=
  .var ((Slot.node (first + hops - 1)).toVariable stem)

theorem positive_along (path : Path) (nodes : List Term) (terminal : Term) :
    AllPositive (lowering.along path nodes terminal).pattern := by
  unfold along
  split
  · split
    · exact Path.positive_whole _ _ _
    · exact Path.positive_walk _ _
  · exact Path.positive_whole _ _ _

/-- A met pattern of a path leads to the value of its last node. -/
theorem leads_of_met_along (plain : lowering.Plain) {path : Path} {stem : String} {first : Nat}
    (step : path.hops ≠ 0) {valuation : Valuation}
    (met : AllMet graph valuation (lowering.along path
      (lowering.nodes stem first path.hops) (lastNode stem first path.hops)).pattern) :
    path.Leads graph (valuation.term lowering.focus)
      (valuation.term (lastNode stem first path.hops)) := by
  unfold along at met
  split at met
  · rename_i paths
    split at met
    · exact Path.leads_of_met_whole met
    · have chain := Path.chainLeads_of_met met
      have lengths : paths.length = (lowering.nodes stem first paths.length).length := by
        rw [nodes, List.length_map, List.length_range]
      have step : paths.length ≠ 0 := step
      rw [Path.hops, List.map_fst_zip (Nat.le_of_eq lengths),
        List.map_snd_zip (Nat.le_of_eq lengths.symm), plain.terminal stem first step] at chain
      exact chain
  · exact Path.leads_of_met_whole met

/-- A met pattern of a path from a variable starts at a node of the graph. -/
theorem node_of_met_along (plain : lowering.Plain) (free : lowering.focus.value .empty = none)
    {path : Path} {stem : String} {first : Nat} (step : path.hops ≠ 0) {valuation : Valuation}
    (met : AllMet graph valuation (lowering.along path
      (lowering.nodes stem first path.hops) (lastNode stem first path.hops)).pattern) :
    valuation.term lowering.focus ∈ graph.nodes := by
  unfold along at met
  split at met
  · rename_i paths
    split at met
    · exact Path.node_of_met_whole free rfl met
    · cases paths with
      | nil => exact absurd rfl step
      | cons path rest =>
        rw [nodes_eq_numbered plain, Path.hops, List.length_cons, Path.numbered_succ,
          List.zip_cons_cons] at met
        exact Path.node_of_met_hop free rfl (Sparql.allMet_append.1 met).1
  · exact Path.node_of_met_whole free rfl met

/-- From a resource outside of the graph, a walk of several steps is not found: even where no step
leaves the resource, the second one is looked for between the nodes of the graph only. -/
theorem not_solvable_walk (outside : .iri resource ∉ graph.nodes) {first second : Path}
    {middle next : Term} {rest : List (Path × Term)} (middleFree : middle.value .empty = none)
    (nextFree : next.value .empty = none) :
    ¬ (Path.walk (.iri resource) ((first, middle) :: (second, next) :: rest)).pattern.Solvable
      engine graph := by
  rw [Group.solvable_iff_met engine (Path.positive_walk _ _)]
  rintro ⟨valuation, met⟩
  exact outside (Path.node_of_met_walk middleFree nextFree met)

/-- Where a path leads, its pattern is met by changing the values of its nodes. -/
theorem exists_met_along (plain : lowering.Plain) {path : Path} {stem : String} {first : Nat}
    (step : path.hops ≠ 0) {valuation : Valuation}
    (node : valuation.term lowering.focus ∈ graph.nodes)
    (earlier : ∀ unknown, lowering.focus.unknown? = some unknown → Path.Earlier stem first unknown)
    {last : Rdf.Term} (leads : path.Leads graph (valuation.term lowering.focus) last) :
    ∃ changed : Valuation, (∀ unknown, Path.Earlier stem first unknown →
        changed unknown = valuation unknown) ∧
      AllMet graph changed (lowering.along path (lowering.nodes stem first path.hops)
        (lastNode stem first path.hops)).pattern ∧
      changed.term (lastNode stem first path.hops) = last := by
  have whole : ∃ changed : Valuation, (∀ unknown, Path.Earlier stem first unknown →
        changed unknown = valuation unknown) ∧
      AllMet graph changed
        (path.whole lowering.focus (lastNode stem first path.hops)).pattern ∧
      changed.term (lastNode stem first path.hops) = last := by
    let changed : Valuation := Function.update valuation
      (.var ((Slot.node (first + path.hops - 1)).toVariable stem)) last
    have kept (unknown : Unknown) (before : Path.Earlier stem first unknown) :
        changed unknown = valuation unknown := Function.update_of_ne (before _ (by omega)) ..
    have start : changed.term lowering.focus = valuation.term lowering.focus :=
      Valuation.term_congr fun unknown named => kept unknown (earlier unknown named)
    have ended : changed.term (lastNode stem first path.hops) = last := Function.update_self ..
    refine ⟨changed, kept, ?_, ended⟩
    rw [Path.met_whole (by rwa [start]), start, ended]
    exact leads
  unfold along
  split
  · rename_i paths
    split
    · exact whole
    · have found := Path.exists_met_walk node earlier leads
      have step : paths.length ≠ 0 := step
      rw [← nodes_eq_numbered plain, plain.terminal stem first step] at found
      exact found
  · exact whole

theorem mem_unknowns_along (plain : lowering.Plain) {path : Path} {stem : String} {first : Nat}
    (step : path.hops ≠ 0) {unknown : Unknown}
    (member : unknown ∈ (lowering.along path (lowering.nodes stem first path.hops)
      (lastNode stem first path.hops)).pattern.unknowns) :
    lowering.focus.unknown? = some unknown ∨
      ∃ offset < path.hops, unknown = .var ((Slot.node (first + offset)).toVariable stem) := by
  have inWhole (member : unknown ∈ (path.whole lowering.focus
      (lastNode stem first path.hops)).pattern.unknowns) :
      lowering.focus.unknown? = some unknown ∨
        ∃ offset < path.hops, unknown = .var ((Slot.node (first + offset)).toVariable stem) := by
    refine (Path.mem_unknowns_whole member).imp_right fun inLast => ⟨path.hops - 1, by omega, ?_⟩
    rw [← Nat.add_sub_assoc (Nat.one_le_iff_ne_zero.2 step)]
    exact (Option.some.inj inLast).symm
  unfold along at member
  split at member
  · split at member
    · exact inWhole member
    · refine (Path.mem_unknowns_walk member).imp_right ?_
      rintro ⟨⟨path, node⟩, within, named⟩
      have listed := (List.of_mem_zip within).2
      rw [plain.nodes] at listed
      obtain ⟨offset, bounded, rfl⟩ := List.mem_map.1 listed
      exact ⟨offset, List.mem_range.1 bounded, (Option.some.inj named).symm⟩
  · exact inWhole member

/-- The pattern of a path whose end may have to have one of some classes. -/
theorem path_pattern (plain : lowering.Plain) (classes : List Iri) (undecided : Bool)
    (scope : Scope) {path : ShapePath} (step : path.path.hops ≠ 0)
    (ordinary : path.isWildcard = false) :
    (lowering.path classes undecided scope path).1.pattern =
      (lowering.along path.path (lowering.nodes scope.stem scope.nextNode path.path.hops)
          (lastNode scope.stem scope.nextNode path.path.hops)).pattern ++
        (Fragment.classified (lastNode scope.stem scope.nextNode path.path.hops)
          ((Slot.nodeClasses (scope.nextNode + path.path.hops - 1)).toVariable scope.stem)
          (if undecided then classes else [])).pattern := by
  have hidden : (lowering.shown path.synonym (lastNode scope.stem scope.nextNode path.path.hops)
      (lowering.along path.path (lowering.nodes scope.stem scope.nextNode path.path.hops)
        (lastNode scope.stem scope.nextNode path.path.hops))).pattern =
      (lowering.along path.path (lowering.nodes scope.stem scope.nextNode path.path.hops)
        (lastNode scope.stem scope.nextNode path.path.hops)).pattern := by
    unfold shown
    split <;> rfl
  have terminal := plain.terminal scope.stem scope.nextNode step
  unfold Lowering.path
  rw [if_neg (of_decide_eq_false ordinary)]
  simp only [terminal]
  show (lowering.shown _ _ _).pattern ++ (if undecided then _ else _ : Fragment).pattern = _
  rw [← hidden]
  cases undecided <;> rfl

/-- A path is decided by where it leads. -/
theorem path_decides (about : lowering.About graph resource) (classes : List Iri)
    (undecided : Bool) (scope : Scope) {path : ShapePath} (step : path.path.hops ≠ 0) :
    Fragment.Decides engine graph scope (lowering.path classes undecided scope path).2
      (lowering.path classes undecided scope path).1
      (path.Reaches graph resource (if undecided then classes else [])) := by
  refine ⟨path_precedes classes undecided scope path, ?_, ?_⟩
  · intro unknown member
    cases wildcard : path.isWildcard with
    | true =>
      unfold Lowering.path at member ⊢
      rw [if_pos (of_decide_eq_true wildcard)] at member ⊢
      have bounds : scope.nextPredicate ≤ scope.nextPredicate ∧
          scope.nextPredicate < scope.nextPredicate + 1 := ⟨Nat.le_refl _, Nat.lt_succ_self _⟩
      rcases mem_unknowns_anyTriple about member with rfl | rfl
      · exact ⟨.predicate scope.nextPredicate, bounds, rfl⟩
      · exact ⟨.value scope.nextPredicate, bounds, rfl⟩
    | false =>
      rw [path_pattern about.plain classes undecided scope step wildcard,
        Group.unknowns_append] at member
      have next : (lowering.path classes undecided scope path).2 =
          { scope with nextNode := scope.nextNode + path.path.hops } := by
        unfold Lowering.path
        rw [if_neg (of_decide_eq_false wildcard)]
      rw [next]
      have inNodes {unknown : Unknown} (bounded : ∃ offset < path.path.hops, unknown =
          .var ((Slot.node (scope.nextNode + offset)).toVariable scope.stem)) :
          scope.Owns { scope with nextNode := scope.nextNode + path.path.hops } unknown := by
        obtain ⟨offset, bounded, rfl⟩ := bounded
        exact ⟨.node (scope.nextNode + offset),
          ⟨Nat.le_add_right _ _, Nat.add_lt_add_left bounded _⟩, rfl⟩
      rcases List.mem_append.1 member with walked | classified
      · refine inNodes ((mem_unknowns_along about.plain step walked).resolve_left ?_)
        rw [about.unknown?_focus]
        exact nofun
      · rcases Fragment.mem_unknowns_classified classified with inLast | rfl
        · refine inNodes ⟨path.path.hops - 1, by omega, ?_⟩
          rw [← Nat.add_sub_assoc (Nat.one_le_iff_ne_zero.2 step)]
          exact (Option.some.inj inLast).symm
        · exact ⟨.nodeClasses (scope.nextNode + path.path.hops - 1),
            ⟨by omega, by show _ < _; simp only; omega⟩, rfl⟩
  · unfold ShapePath.Reaches
    cases wildcard : path.isWildcard with
    | true =>
      unfold Lowering.path
      rw [if_pos (of_decide_eq_true wildcard), if_pos rfl]
      exact solvable_anyTriple engine about fun same => by
        cases Slot.toVariable_injective _ same
    | false =>
      rw [if_neg Bool.false_ne_true, path_pattern about.plain classes undecided scope step wildcard]
      have positive : AllPositive ((lowering.along path.path
          (lowering.nodes scope.stem scope.nextNode path.path.hops)
          (lastNode scope.stem scope.nextNode path.path.hops)).pattern ++
        (Fragment.classified (lastNode scope.stem scope.nextNode path.path.hops)
          ((Slot.nodeClasses (scope.nextNode + path.path.hops - 1)).toVariable scope.stem)
          (if undecided then classes else [])).pattern) :=
        Sparql.allPositive_append.2 ⟨positive_along _ _ _, Fragment.positive_classified _ _ _⟩
      rw [Group.solvable_iff_met engine positive]
      constructor
      · rintro ⟨valuation, met⟩
        obtain ⟨walked, classified⟩ := Sparql.allMet_append.1 met
        have leads := leads_of_met_along about.plain step walked
        rw [about.term_focus] at leads
        exact ⟨_, leads, Fragment.hasClass_of_met classified⟩
      · rintro ⟨value, leads, typed⟩
        -- The class comes first, since the walk keeps every value but those of its nodes.
        obtain ⟨name, typed⟩ : ∃ name, (if undecided then classes else []) = [] ∨
            name ∈ (if undecided then classes else []) ∧
              (value, .iri name) ∈ graph.edges Vocabulary.rdfType := by
          rcases typed with none | ⟨name, among, found⟩
          · exact ⟨default, .inl none⟩
          · exact ⟨name, .inr ⟨among, found⟩⟩
        rw [← about.term_focus fun _ => .iri name] at leads
        have earlier : ∀ unknown, lowering.focus.unknown? = some unknown →
            Path.Earlier scope.stem scope.nextNode unknown := by
          rw [about.unknown?_focus]
          exact nofun
        obtain ⟨valuation, kept, met, ended⟩ :=
          exists_met_along about.plain step (about.node_focus _) earlier leads
        refine ⟨valuation, Sparql.allMet_append.2 ⟨met, Fragment.met_classified (kept _ ?_) ?_⟩⟩
        · intro number _ equal
          cases Slot.toVariable_injective _ (Unknown.var.inj equal)
        · rwa [ended]

theorem isNone_terminal (about : lowering.About graph resource) (classes : List Iri)
    (undecided : Bool) (scope : Scope) {path : ShapePath} (step : path.path.hops ≠ 0) :
    (lowering.path classes undecided scope path).1.terminal.isNone = path.isWildcard := by
  rw [lowering.path_terminal classes undecided scope about.plain step, ShapePath.isWildcard]
  split
  · rename_i wildcard
    rw [decide_eq_true wildcard]
    rfl
  · rename_i ordinary
    rw [decide_eq_false ordinary]
    rfl

/-- The first path that does not stand for all predicates. -/
def ordinary? (paths : List ShapePath) : Option ShapePath :=
  paths.find? fun path => !path.isWildcard

/-- Paths that must all match are decided by where each of them leads. While the terminal is
undecided, the first path with an end leads to one of the classes. -/
theorem paths_decides (about : lowering.About graph resource) (classes : List Iri)
    (undecided : Bool) (scope : Scope) {paths : List ShapePath}
    (steps : ∀ path ∈ paths, path.path.hops ≠ 0) :
    Fragment.Decides engine graph scope (lowering.paths classes undecided scope paths).2
      (lowering.paths classes undecided scope paths).1
      ((∀ path ∈ paths, path.Reaches graph resource []) ∧
        (undecided = true → ∀ path, ordinary? paths = some path →
          path.Reaches graph resource classes)) := by
  induction paths generalizing undecided scope with
  | nil =>
    exact (Fragment.Decides.empty scope).congr (iff_of_true trivial ⟨nofun, fun _ => nofun⟩)
  | cons first rest inductionHypothesis =>
    rw [List.forall_mem_cons] at steps
    have one := path_decides engine about classes undecided scope steps.1
    have others := inductionHypothesis (undecided && first.isWildcard)
      (lowering.path classes undecided scope first).2 steps.2
    rw [paths_cons, isNone_terminal about classes undecided scope steps.1]
    refine (one.append others).congr ?_
    rw [List.forall_mem_cons]
    cases wildcard : first.isWildcard with
    | true =>
      have same (classes : List Iri) :
          first.Reaches graph resource classes ↔ graph.Describes resource := by
        rw [ShapePath.Reaches, if_pos wildcard]
      have skipped : ordinary? (first :: rest) = ordinary? rest :=
        List.find?_cons_of_neg (by rw [wildcard]; decide)
      rw [same, same, Bool.and_true, skipped, and_assoc]
    | false =>
      have found : ordinary? (first :: rest) = some first :=
        List.find?_cons_of_pos (by rw [wildcard]; rfl)
      rw [Bool.and_false, found]
      cases undecided with
      | true =>
        simp only [if_true, Bool.false_eq_true, false_implies, and_true, true_implies,
          Option.some.injEq, forall_eq']
        exact ⟨fun ⟨reaches, all⟩ => ⟨⟨reaches.of_classes, all⟩, reaches⟩,
          fun ⟨⟨_, all⟩, reaches⟩ => ⟨reaches, all⟩⟩
      | false =>
        simp only [Bool.false_eq_true, if_false, false_implies, and_true]

/-- Whether the terminal of some paths is missing is whether each of them stands for all
predicates. -/
theorem isNone_paths_terminal (about : lowering.About graph resource) (classes : List Iri)
    (undecided : Bool) (scope : Scope) {paths : List ShapePath}
    (steps : ∀ path ∈ paths, path.path.hops ≠ 0) :
    (lowering.paths classes undecided scope paths).1.terminal.isNone =
      (ordinary? paths).isNone := by
  induction paths generalizing undecided scope with
  | nil => rfl
  | cons first rest inductionHypothesis =>
    rw [List.forall_mem_cons] at steps
    have terminal := isNone_terminal about classes undecided scope steps.1
    rw [paths_cons, terminal_append]
    cases wildcard : first.isWildcard with
    | true =>
      have skipped : ordinary? (first :: rest) = ordinary? rest :=
        List.find?_cons_of_neg (by rw [wildcard]; decide)
      rw [wildcard, Option.isNone_iff_eq_none] at terminal
      rw [terminal, Option.none_or, skipped]
      exact inductionHypothesis _ _ steps.2
    | false =>
      have found : ordinary? (first :: rest) = some first :=
        List.find?_cons_of_pos (by rw [wildcard]; rfl)
      rw [wildcard] at terminal
      obtain ⟨last, ended⟩ := Option.isSome_iff_exists.1 (Option.isNone_eq_false_iff.1 terminal)
      rw [ended, found]
      rfl

/-! ### Unions -/

/-- Whether branches own their unknowns and one of them has a solution exactly under a
condition. -/
structure DecideEach (engine : Engine) (graph : Rdf.Graph) (before after : Scope)
    (branches : List Fragment) (condition : Prop) : Prop where
  precedes : before.Precedes after
  owned : ∀ branch ∈ branches, ∀ unknown ∈ branch.pattern.unknowns, before.Owns after unknown
  terminals : ∀ branch ∈ branches, ∀ terminal, branch.terminal = some terminal →
    ∃ slot : Slot, slot.Between before after ∧ terminal = .var (slot.toVariable before.stem)
  solvable : (∃ branch ∈ branches, branch.pattern.Solvable engine graph) ↔ condition

theorem DecideEach.union {before after : Scope} {branches : List Fragment} {condition : Prop}
    (each : DecideEach engine graph before after branches condition)
    (template : List Sparql.TemplateTriple) (terminal : Option Term) :
    Fragment.Decides engine graph before after
      ⟨[.union (branches.map Fragment.pattern)], template, terminal⟩ condition where
  precedes := each.precedes
  owned unknown member := by
    obtain ⟨pattern, found, within⟩ := mem_unknowns_union.1 member
    obtain ⟨branch, listed, rfl⟩ := List.mem_map.1 found
    exact each.owned branch listed unknown within
  solvable := by
    rw [Group.solvable_union, ← each.solvable]
    simp only [List.mem_map, exists_exists_and_eq_and]

/-- The next node is in none of the branches. -/
theorem DecideEach.fresh {before after : Scope} {branches : List Fragment} {condition : Prop}
    (each : DecideEach engine graph before after branches condition) :
    ∀ branch ∈ branches,
      .var ((Slot.node after.nextNode).toVariable after.stem) ∉ branch.pattern.unknowns := by
  intro branch member within
  let next : Scope := { after with nextNode := after.nextNode + 1 }
  have owned := @Scope.Owns.apart _ _ next _ each.precedes (each.owned branch member _ within)
  exact owned ⟨.node after.nextNode, ⟨Nat.le_refl _, Nat.lt_succ_self _⟩, rfl⟩

theorem branches_decide (about : lowering.About graph resource) (classes : List Iri)
    (undecided : Bool) (scope : Scope) {choices : List ShapePath}
    (steps : ∀ path ∈ choices, path.path.hops ≠ 0) :
    DecideEach engine graph scope (lowering.branches classes undecided scope choices).2
      (lowering.branches classes undecided scope choices).1
      (∃ choice ∈ choices,
        choice.Reaches graph resource (if undecided then classes else [])) := by
  induction choices generalizing scope with
  | nil => exact ⟨.refl scope, nofun, nofun, iff_of_false nofun nofun⟩
  | cons first rest inductionHypothesis =>
    rw [List.forall_mem_cons] at steps
    have one := path_decides engine about classes undecided scope steps.1
    have others := inductionHypothesis (lowering.path classes undecided scope first).2 steps.2
    rw [branches_cons]
    refine ⟨one.precedes.trans others.precedes, ?_, ?_, ?_⟩
    · intro branch member unknown within
      rcases List.mem_cons.1 member with rfl | later
      · exact (one.owned unknown within).mono (.refl _) others.precedes
      · exact (others.owned branch later unknown within).mono one.precedes (.refl _)
    · intro branch member terminal ended
      rcases List.mem_cons.1 member with rfl | later
      · rw [lowering.path_terminal classes undecided scope about.plain steps.1] at ended
        split at ended
        · cases ended
        · rename_i ordinary
          have next : (lowering.path classes undecided scope first).2.nextNode =
              scope.nextNode + first.path.hops := by
            unfold Lowering.path
            rw [if_neg ordinary]
          have last : scope.nextNode + first.path.hops - 1 <
              (lowering.path classes undecided scope first).2.nextNode := by
            have step := steps.1
            omega
          have start : scope.nextNode ≤ scope.nextNode + first.path.hops - 1 := by
            have step := steps.1
            omega
          exact ⟨.node (scope.nextNode + first.path.hops - 1),
            ⟨start, Nat.lt_of_lt_of_le last others.precedes.node⟩, (Option.some.inj ended).symm⟩
      · obtain ⟨slot, between, same⟩ := others.terminals branch later terminal ended
        exact ⟨slot, between.mono one.precedes (.refl _), by rw [same, one.precedes.stem]⟩
    · rw [List.exists_mem_cons_iff, List.exists_mem_cons_iff, one.solvable, others.solvable]

/-- Binding a further variable to the end of a branch changes nothing about its solutions. -/
theorem bound_solvable {before after : Scope} {branch : Fragment} {target : Variable}
    (fresh : .var target ∉ branch.pattern.unknowns)
    (terminals : ∀ terminal, branch.terminal = some terminal →
      ∃ slot : Slot, slot.Between before after ∧ terminal = .var (slot.toVariable before.stem)) :
    (bound target branch).pattern.Solvable engine graph ↔
      branch.pattern.Solvable engine graph := by
  unfold bound
  cases ended : branch.terminal with
  | none => exact Iff.rfl
  | some terminal =>
    obtain ⟨slot, -, rfl⟩ := terminals terminal ended
    exact Group.solvable_append_bind engine graph fresh

theorem mem_unknowns_bound {before after : Scope} {branch : Fragment} {target : Variable}
    {unknown : Unknown}
    (terminals : ∀ terminal, branch.terminal = some terminal →
      ∃ slot : Slot, slot.Between before after ∧ terminal = .var (slot.toVariable before.stem))
    (member : unknown ∈ (bound target branch).pattern.unknowns) :
    unknown ∈ branch.pattern.unknowns ∨ before.Owns after unknown ∨ unknown = .var target := by
  unfold bound at member
  cases ended : branch.terminal with
  | none =>
    rw [ended] at member
    exact .inl member
  | some terminal =>
    obtain ⟨slot, between, rfl⟩ := terminals terminal ended
    rw [ended] at member
    have split : unknown ∈ branch.pattern.unknowns ++
        Group.unknowns [.bind (.var (slot.toVariable before.stem)) target] := by
      rw [← Group.unknowns_append]
      exact member
    rcases List.mem_append.1 split with within | added
    · exact .inl within
    · rcases List.mem_cons.1 added with rfl | last
      · exact .inr (.inl ⟨slot, between, rfl⟩)
      · exact .inr (.inr (List.mem_singleton.1 last))

theorem joined_decide (about : lowering.About graph resource) {before after : Scope}
    {branches : List Fragment} {condition : Prop}
    (each : DecideEach engine graph before after branches condition)
    (template : List Fragment → List Sparql.TemplateTriple) :
    Fragment.Decides engine graph before (lowering.joined after branches).2.2
      ⟨[.union ((lowering.joined after branches).1.map Fragment.pattern)],
        template (lowering.joined after branches).1, (lowering.joined after branches).2.1⟩
      condition := by
  unfold joined
  split
  · exact each.union engine _ _
  · split
    · exact each.union engine _ _
    · simp only [about.plain.node]
      let next : Scope := { after with nextNode := after.nextNode + 1 }
      have further : after.Precedes next :=
        ⟨rfl, Nat.le_succ _, Nat.le_refl _, Nat.le_refl _⟩
      have target : after.stem = before.stem := each.precedes.stem
      refine ⟨each.precedes.trans further, fun unknown member => ?_, ?_⟩
      · obtain ⟨pattern, found, within⟩ := mem_unknowns_union.1 member
        rw [List.map_map] at found
        obtain ⟨branch, listed, rfl⟩ := List.mem_map.1 found
        rcases mem_unknowns_bound (each.terminals branch listed) within with inBranch | ended | rfl
        · exact (each.owned branch listed unknown inBranch).mono (.refl _) further
        · exact ended.mono (.refl _) further
        · exact ⟨.node after.nextNode, ⟨each.precedes.node, Nat.lt_succ_self _⟩, by rw [target]⟩
      · rw [Group.solvable_union, ← each.solvable, List.map_map]
        simp only [List.mem_map, exists_exists_and_eq_and, Function.comp_apply]
        refine exists_congr fun branch => and_congr_right fun member => ?_
        exact bound_solvable engine (each.fresh engine branch member) (each.terminals branch member)

/-- Choices are decided by where one of them leads. -/
theorem choices_decides (about : lowering.About graph resource) (classes : List Iri)
    (undecided : Bool) (scope : Scope) {choices : List ShapePath}
    (steps : ∀ path ∈ choices, path.path.hops ≠ 0) :
    Fragment.Decides engine graph scope (lowering.choices classes undecided scope choices).2
      (lowering.choices classes undecided scope choices).1
      (choices = [] ∨ ∃ choice ∈ choices,
        choice.Reaches graph resource (if undecided then classes else [])) := by
  unfold Lowering.choices
  split
  · rename_i none
    exact (Fragment.Decides.empty scope).congr
      (iff_of_true trivial (.inl (List.isEmpty_iff.1 none)))
  · rename_i some
    have each := branches_decide engine about classes undecided scope steps
    have same : (∃ choice ∈ choices,
        choice.Reaches graph resource (if undecided then classes else [])) ↔
          (choices = [] ∨ ∃ choice ∈ choices,
            choice.Reaches graph resource (if undecided then classes else [])) :=
      (or_iff_right fun empty => some (List.isEmpty_iff.2 empty)).symm
    cases undecided with
    | true =>
      exact (joined_decide engine about each fun branches =>
        branches.flatMap Fragment.template).congr same
    | false => exact (each.union engine _ _).congr same

/-! ### Conditions -/

/-- A value without an unknown stands for the same term under every valuation. -/
theorem value_of_ground {value : Term} (ground : value.unknown? = none) :
    ∃ term, value.value .empty = some term ∧
      ∀ valuation : Valuation, valuation.term value = term := by
  cases value with
  | var name => cases ground
  | blank label => cases ground
  | iri name => exact ⟨_, rfl, fun _ => rfl⟩
  | literal value => exact ⟨_, rfl, fun _ => rfl⟩

/-- A condition on another property is decided by where its path leads. -/
theorem filter_decides (about : lowering.About graph resource) (scope : Scope)
    {constraint : FilterConstraint}
    (ground : ∀ value ∈ constraint.values, value.unknown? = none) :
    Fragment.Decides engine graph scope (lowering.filter scope constraint).2
      (lowering.filter scope constraint).1 (constraint.Holds graph resource) := by
  have stepMet (valuation : Valuation) (value : Term) :
      (constraint.path.step lowering.focus value).Met graph valuation ↔
        constraint.path.Leads graph (.iri resource) (valuation.term value) := by
    rw [Path.met_step (about.node_focus valuation), about.term_focus]
  have inStep {value : Term} {unknown : Unknown} (member : unknown ∈
      Group.unknowns [.triple (constraint.path.step lowering.focus value)]) :
      value.unknown? = some unknown := by
    refine (Path.mem_unknowns_step member).resolve_left ?_
    rw [about.unknown?_focus]
    exact nofun
  refine ⟨filter_precedes scope constraint, ?_, ?_⟩
  · intro unknown member
    unfold Lowering.filter at member ⊢
    split at member
    · rename_i value single
      rw [single] at ground
      have named := inStep member
      rw [ground value List.mem_cons_self] at named
      cases named
    · have split : unknown ∈ Group.unknowns [.column
            ((Slot.choice scope.nextChoice).toVariable scope.stem) constraint.values] ++
          Group.unknowns [.triple (constraint.path.step lowering.focus
            (.var ((Slot.choice scope.nextChoice).toVariable scope.stem)))] := by
        rw [← Group.unknowns_append]
        exact member
      have choice : unknown = .var ((Slot.choice scope.nextChoice).toVariable scope.stem) := by
        rcases List.mem_append.1 split with inTable | inTriple
        · exact mem_unknowns_column ground inTable
        · exact (Option.some.inj (inStep inTriple)).symm
      exact ⟨.choice scope.nextChoice, ⟨Nat.le_refl _, Nat.lt_succ_self _⟩, choice⟩
  · unfold Lowering.filter
    split
    · rename_i value single
      rw [single] at ground
      obtain ⟨term, known, stands⟩ := value_of_ground (ground value List.mem_cons_self)
      have positive : AllPositive [.triple (constraint.path.step lowering.focus value)] :=
        ⟨trivial, trivial⟩
      have solvable := @Group.solvable_iff_met engine graph _ positive
      refine solvable.trans ?_
      unfold FilterConstraint.Holds
      rw [single]
      simp only [Path.allMet_single, stepMet, stands, exists_const, List.mem_singleton,
        exists_eq_left, known, Option.some.injEq, exists_eq_left']
    · have positive : AllPositive [.column
          ((Slot.choice scope.nextChoice).toVariable scope.stem) constraint.values,
          .triple (constraint.path.step lowering.focus
            (.var ((Slot.choice scope.nextChoice).toVariable scope.stem)))] :=
        ⟨trivial, trivial, trivial⟩
      have solvable := @Group.solvable_iff_met engine graph _ positive
      refine solvable.trans ?_
      constructor
      · rintro ⟨valuation, listed, met, -⟩
        obtain ⟨value, member, named⟩ := Sparql.met_column.1 listed
        obtain ⟨term, known, -⟩ := value_of_ground (ground value member)
        refine ⟨value, member, term, known, ?_⟩
        rw [← named term known]
        exact (stepMet valuation _).1 met
      · rintro ⟨value, member, term, known, leads⟩
        refine ⟨fun _ => term, Sparql.met_column.2 ⟨value, member, fun other same => ?_⟩,
          (stepMet _ _).2 leads, trivial⟩
        rw [known] at same
        exact Option.some.inj same

theorem filters_decides (about : lowering.About graph resource) (scope : Scope)
    {constraints : List FilterConstraint}
    (ground : ∀ constraint ∈ constraints, ∀ value ∈ constraint.values, value.unknown? = none) :
    Fragment.Decides engine graph scope (lowering.filters scope constraints).2
      (lowering.filters scope constraints).1
      (∀ constraint ∈ constraints, constraint.Holds graph resource) := by
  induction constraints generalizing scope with
  | nil => exact (Fragment.Decides.empty scope).congr (iff_of_true trivial nofun)
  | cons first rest inductionHypothesis =>
    rw [List.forall_mem_cons] at ground
    rw [filters_cons]
    refine ((filter_decides engine about scope ground.1).append
      (inductionHypothesis _ ground.2)).congr ?_
    rw [List.forall_mem_cons]

/-! ### Exclusions -/

/-- The solutions of any triple of the focus give its predicate to the variable for it. -/
theorem predicate_of_mem_solutions (about : lowering.About graph resource)
    {predicate value : Variable} {solution : Solution}
    (member : solution ∈
      (lowering.anyTriple predicate value).pattern.solutions engine graph) :
    ∃ triple ∈ graph.triples, triple.subject.term = .iri resource ∧
      solution (.var predicate) = some (.iri triple.predicate) := by
  have extended := (List.mem_filter.1 member).1
  obtain ⟨candidate, found, last⟩ := List.mem_flatMap.1 extended
  rw [Sparql.extendAll, List.mem_singleton] at last
  rw [Sparql.Element.extend, Solution.joined_empty_empty, about.focus] at found
  obtain ⟨triple, located, chosen⟩ := List.mem_filterMap.1 found
  simp only [Option.bind_eq_bind, Option.bind_eq_some_iff] at chosen
  obtain ⟨first, subject, second, verb, object⟩ := chosen
  obtain ⟨focus, -⟩ := Option.ite_none_right_eq_some.1 subject
  refine ⟨triple, located, focus, ?_⟩
  rw [last]
  exact (Solution.extends_of_assign object).2 _ _ (Solution.extends_of_assign verb).1

theorem declared_of_mapM {read : ShapePath → Except Shape.Error Iri}
    (reads : ∀ path predicate, read path = .ok predicate → path.path.predicate? = some predicate)
    {paths : List ShapePath} {predicates : List Iri} (succeeds : paths.mapM read = .ok predicates) :
    predicates = paths.filterMap fun path => path.path.predicate? := by
  induction paths generalizing predicates with
  | nil =>
    cases succeeds
    rfl
  | cons first rest inductionHypothesis =>
    obtain ⟨predicate, others, one, further, rfl⟩ := Success.mapM_cons_ok.1 succeeds
    rw [List.filterMap_cons, reads first predicate one, inductionHypothesis further]

theorem mem_unknowns_noneOf {target : Variable} {names : List Iri} {unknown : Unknown}
    (member : unknown ∈ Group.unknowns [.filter (.noneOf (.var target) (names.map .iri))]) :
    unknown = .var target := by
  have ground (names : List Iri) :
      Sparql.Atom.unknowns (Sparql.listAtoms (names.map .iri)) = [] := by
    induction names with
    | nil => rfl
    | cons first rest inductionHypothesis =>
      rw [List.map_cons, Sparql.listAtoms, Sparql.Atom.unknowns_append, inductionHypothesis]
      rfl
  rw [Group.unknowns, Sparql.groupAtoms, Sparql.groupAtoms, List.append_nil, Sparql.Element.atoms,
    Sparql.Expression.atoms, Sparql.Atom.unknowns_append, ground, List.append_nil] at member
  exact List.mem_singleton.1 member

/-- A property shape without values is lowered to a triple whose predicate is not declared. -/
theorem exclusion_ok {scope next : Scope} {shape : PropertyShape} {fragment : Fragment}
    (lowered : lowering.exclusion scope shape = .ok (fragment, next)) :
    fragment = lowering.anyTriple ((Slot.predicate scope.nextPredicate).toVariable scope.stem)
        ((Slot.excludedValue scope.nextPredicate).toVariable scope.stem)
      ++ .hidden [.filter (.noneOf
        (.var ((Slot.predicate scope.nextPredicate).toVariable scope.stem))
        (shape.declared.map .iri))] ∧
      next = { scope with nextPredicate := scope.nextPredicate + 1 } := by
  obtain ⟨predicates, read, total⟩ := Success.bind_ok.1 lowered
  cases total
  have declared : predicates = shape.declared := by
    refine declared_of_mapM (fun path predicate succeeds => ?_) read
    split at succeeds
    · rename_i found
      cases succeeds
      exact found
    · cases succeeds
  exact ⟨declared ▸ rfl, rfl⟩

/-- A property shape without values is decided by a triple with another predicate. -/
theorem exclusion_decides (about : lowering.About graph resource) {scope next : Scope}
    {shape : PropertyShape} {fragment : Fragment}
    (lowered : lowering.exclusion scope shape = .ok (fragment, next)) :
    Fragment.Decides engine graph scope next fragment
      (∃ triple ∈ graph.triples,
        triple.subject.term = .iri resource ∧ triple.predicate ∉ shape.declared) := by
  obtain ⟨rfl, rfl⟩ := exclusion_ok lowered
  let predicate := (Slot.predicate scope.nextPredicate).toVariable scope.stem
  let value := (Slot.excludedValue scope.nextPredicate).toVariable scope.stem
  have bounds : scope.nextPredicate ≤ scope.nextPredicate ∧
      scope.nextPredicate < scope.nextPredicate + 1 := ⟨Nat.le_refl _, Nat.lt_succ_self _⟩
  refine ⟨⟨rfl, Nat.le_refl _, Nat.le_succ _, Nat.le_refl _⟩, fun unknown member => ?_, ?_⟩
  · have split : unknown ∈ (lowering.anyTriple predicate value).pattern.unknowns ++
        Group.unknowns [.filter (.noneOf (.var predicate) (shape.declared.map .iri))] := by
      rw [← Group.unknowns_append]
      exact member
    rcases List.mem_append.1 split with inTriple | inFilter
    · rcases mem_unknowns_anyTriple about inTriple with rfl | rfl
      · exact ⟨.predicate scope.nextPredicate, bounds, rfl⟩
      · exact ⟨.excludedValue scope.nextPredicate, bounds, rfl⟩
    · rw [mem_unknowns_noneOf inFilter]
      exact ⟨.predicate scope.nextPredicate, bounds, rfl⟩
  · refine (Group.solvable_append_filter engine graph).trans ?_
    constructor
    · rintro ⟨solution, member, holds⟩
      obtain ⟨triple, located, subject, known⟩ :=
        predicate_of_mem_solutions engine about member
      exact ⟨triple, located, subject,
        (Sparql.truth_noneOf engine graph shape.declared known).1 holds⟩
    · rintro ⟨triple, located, subject, undeclared⟩
      have different : predicate ≠ value := fun same => by
        cases Slot.toVariable_injective _ same
      obtain ⟨valuation, met, named⟩ := exists_met_anyTriple about different located subject
      have positive : AllPositive (lowering.anyTriple predicate value).pattern :=
        ⟨trivial, trivial⟩
      obtain ⟨solution, member, fits⟩ := Group.exists_solution engine positive met
      obtain ⟨other, -, -, known⟩ := predicate_of_mem_solutions engine about member
      have same : triple.predicate = other.predicate :=
        Rdf.Term.iri.inj (named.symm.trans (fits _ _ known))
      rw [← same] at known
      exact ⟨solution, member,
        (Sparql.truth_noneOf engine graph shape.declared known).2 undeclared⟩

end Lowering

end ShapeQuery
