/-
This file tells which triples of a graph stand behind the triples that a lowered shape shows. An
alternative is shown by each of its members and a repetition by what it repeats, so that the path
only suggests what it shows; any other triple is shown because it was found.
-/
import ShapeQuery.Proofs.Shape.Scoping
import ShapeQuery.Proofs.Shape.Selection
import ShapeQuery.Proofs.Sparql.Vouching
import ShapeQuery.Sparql.Query

namespace ShapeQuery

open Sparql (Path Term Variable Group TriplePattern TemplateTriple Solution Valuation Unknown Engine
  Query
  groupAsks groupAsks_append groupAsks_single groupAsks_ofTriples branchesAsk_iff groupVouches
  groupTemplateTriples groupTemplateTriples_append mem_branchesTemplateTriples)
open Shape (Scope Slot)

/-! ### Suggestions -/

namespace Sparql.Path

/-- The paths that a path is shown by in its place: those of an alternative, and what a repetition
repeats. -/
def parts : Path → List Path
  | .alternative members => members ++ members.filterMap repeated?
  | path => path.repeated?.toList

/-- The paths that are matched one by one. -/
def elements : Path → List Path
  | .sequence paths => paths
  | path => [path]

/-- Whether a single predicate leads from a term to another one by a triple. -/
def Follows (path : Path) (first last : Rdf.Term) (triple : Rdf.Triple) : Prop :=
  path.predicate? = some triple.predicate ∧ triple.subject.term = first ∧ triple.object = last ∨
    path.inversePredicate? = some triple.predicate ∧ triple.subject.term = last ∧
      triple.object = first

/-- Whether a path leads from a term to another one in a graph, and a triple would show it as a step
along one of its parts. -/
def Suggests (graph : Rdf.Graph) (path : Path) (triple : Rdf.Triple) : Prop :=
  ∃ first last, path.Leads graph first last ∧ ∃ part ∈ path.parts, part.Follows first last triple

end Sparql.Path

/-- Whether a triple is in a graph, or some path of the graph suggests it. -/
def Rdf.Graph.Supports (graph : Graph) (loose : Path → Prop) (triple : Triple) : Prop :=
  triple ∈ graph.triples ∨ ∃ path, loose path ∧ path.Suggests graph triple

/-- Whether a template triple shows a triple of a pattern: as it is, or as a step along a part of a
path. -/
def Sparql.TemplateTriple.Shows (loose : Path → Prop) (shown : TemplateTriple)
    (triple : TriplePattern) : Prop :=
  triple.template? = some shown ∨
    ∃ path subject object, loose path ∧
      (triple = path.step subject object ∨
        ∃ members, path = .alternative members ∧
          ∃ member ∈ members, triple = member.step subject object) ∧
      ∃ part ∈ path.parts, (part.step subject object).template? = some shown

namespace Sparql

variable {graph : Rdf.Graph} {valuation : Valuation} {solution : Solution} {subject object : Term}
  {shown : TemplateTriple} {made : Rdf.Triple}

theorem Path.leads_of_met {path : Path} (met : (path.step subject object).Met graph valuation) :
    path.Leads graph (valuation.term subject) (valuation.term object) := by
  unfold step at met
  split at met
  · rename_i iri backwards
    cases path with
    | inverse inner =>
      cases inner with
      | predicate name =>
        cases backwards
        exact met
      | _ => cases backwards
    | _ => cases backwards
  · exact leads_of_mem_pairs path met

theorem Path.follows_of_instance? {path : Path}
    (same : (path.step subject object).template? = some shown) (fits : valuation.Fits solution)
    (told : shown.instance? solution = some made) :
    path.Follows (valuation.term subject) (valuation.term object) made := by
  obtain ⟨first, predicate, last⟩ := TemplateTriple.terms_of_instance? fits told
  unfold step at same
  split at same
  · rename_i iri backwards
    cases same
    exact .inr ⟨backwards.trans (congrArg some (Rdf.Term.iri.inj predicate)), first.symm, last.symm⟩
  · obtain ⟨verb, written, rfl⟩ := Option.map_eq_some_iff.1 same
    obtain ⟨iri, direct, rfl⟩ := Option.map_eq_some_iff.1 written
    exact .inl ⟨direct.trans (congrArg some (Rdf.Term.iri.inj predicate)), first.symm, last.symm⟩

/-- What is shown of a triple that is met has the support of the graph. -/
theorem TemplateTriple.Shows.supports {loose : Path → Prop} {triple : TriplePattern}
    (shows : shown.Shows loose triple) (met : triple.Met graph valuation)
    (fits : valuation.Fits solution) (told : shown.instance? solution = some made) :
    graph.Supports loose made := by
  rcases shows with same | ⟨path, subject, object, free, taken, part, among, same⟩
  · exact .inl (TriplePattern.mem_of_met met same fits told)
  · refine .inr ⟨path, free, _, _, ?_, part, among, Path.follows_of_instance? same fits told⟩
    rcases taken with rfl | ⟨members, rfl, member, listed, rfl⟩
    · exact Path.leads_of_met met
    · exact Path.someLeads_iff.2 ⟨member, listed, Path.leads_of_met met⟩

/-- A solution that meets what a template triple shows makes a triple with the support of the
graph. -/
theorem Solution.Meets.supports {loose : Path → Prop}
    (meets : solution.Meets graph (shown.Shows loose))
    (told : shown.instance? solution = some made) : graph.Supports loose made := by
  have fits := Valuation.fits_ofSolution solution
  obtain ⟨triple, shows, met⟩ := meets _ fits
  exact shows.supports met fits told

/-- Whether every triple that a query makes of its solutions in a graph has the support of the graph,
unless its template triple is excepted. -/
def Query.Supported (engine : Engine) (graph : Rdf.Graph) (loose : Path → Prop)
    (excepted : TemplateTriple → Prop) (query : Query) : Prop :=
  ∀ solution ∈ query.pattern.solutions engine graph, ∀ shown ∈ query.template,
    ∀ made, shown.instance? solution = some made → graph.Supports loose made ∨ excepted shown

/-- A query that upholds what it shows makes triples with the support of the graph. -/
theorem Query.supported_of_upholds (engine : Engine) {loose : Path → Prop}
    {excepted : TemplateTriple → Prop} {query : Query} {owns : Variable → Prop}
    (upholds : ∀ shown ∈ query.template,
      query.pattern.Upholds (shown.Shows loose) shown.names owns ∨ excepted shown) :
    query.Supported engine graph loose excepted := by
  intro solution member shown among made told
  refine (upholds shown among).imp_left fun held => ?_
  exact (held.meets member fun _ named => TemplateTriple.binds_of_instance? told named).supports told

end Sparql

/-- Whether a path is matched by itself in a property shape. -/
def PropertyShape.Matches (shape : PropertyShape) (path : Path) : Prop :=
  ∃ declared ∈ shape.paths ++ shape.choices, path ∈ declared.path.elements

/-- Whether a path is matched by itself in a node shape. -/
def NodeShape.Matches (shape : NodeShape) (path : Path) : Prop :=
  ∃ property ∈ shape.properties, property.Matches path

/-- Whether all paths of a property shape are shown by their steps. -/
def PropertyShape.Literal (shape : PropertyShape) : Prop :=
  ∀ path ∈ shape.paths ++ shape.choices, path.synonym = none

/-! ### Fragments -/

namespace Fragment

/-- Whether a fragment shows a triple: its pattern gives rise to it, or its template has it, if that
counts. -/
def Shows (templated : Prop) (fragment : Fragment) (shown : TemplateTriple) : Prop :=
  shown ∈ groupTemplateTriples fragment.pattern ∨ templated ∧ shown ∈ fragment.template

/-- Whether all that a fragment shows was found in every solution, and names one of some ends. -/
def Tells (templated : Prop) (loose : Path → Prop) (ends : Term → Prop) (fragment : Fragment) :
    Prop :=
  ∀ shown, fragment.Shows templated shown →
    groupAsks False (shown.Shows loose) fragment.pattern ∧
      ∃ node, ends node ∧ ∀ name ∈ node.names, name ∈ shown.names

variable {templated : Prop} {loose : Path → Prop} {ends : Term → Prop} {shown : TemplateTriple}

theorem shows_append {first second : Fragment} :
    (first ++ second).Shows templated shown ↔
      first.Shows templated shown ∨ second.Shows templated shown := by
  show shown ∈ groupTemplateTriples (first.pattern ++ second.pattern) ∨
    templated ∧ shown ∈ first.template ++ second.template ↔ _
  rw [groupTemplateTriples_append, List.mem_append, List.mem_append, Shows, Shows]
  tauto

theorem not_shows_empty : ¬ empty.Shows templated shown := by
  simp [Shows, empty, groupTemplateTriples]

theorem not_shows_hidden {pattern : Group} (plain : groupTemplateTriples pattern = []) :
    ¬ (hidden pattern).Shows templated shown := by
  simp [Shows, hidden, plain]

theorem shows_ofTriple {triple : TriplePattern} :
    (ofTriple triple).Shows templated shown ↔ triple.template? = some shown := by
  simp only [Shows, ofTriple, groupTemplateTriples, Sparql.Element.templateTriples,
    List.append_nil, Option.mem_toList]
  tauto

theorem Tells.mono {more : Term → Prop} {fragment : Fragment}
    (tells : fragment.Tells templated loose ends) (weaker : ∀ node, ends node → more node) :
    fragment.Tells templated loose more := fun shown shows => by
  obtain ⟨asks, node, ended, named⟩ := tells shown shows
  exact ⟨asks, node, weaker node ended, named⟩

theorem Tells.append {first second : Fragment} (one : first.Tells templated loose ends)
    (other : second.Tells templated loose ends) : (first ++ second).Tells templated loose ends := by
  intro shown shows
  rcases shows_append.1 shows with inFirst | inSecond
  · obtain ⟨asks, named⟩ := one shown inFirst
    exact ⟨groupAsks_append.2 (.inl asks), named⟩
  · obtain ⟨asks, named⟩ := other shown inSecond
    exact ⟨groupAsks_append.2 (.inr asks), named⟩

theorem tells_empty : empty.Tells templated loose ends :=
  fun _ shows => absurd shows not_shows_empty

theorem tells_hidden {pattern : Group} (plain : groupTemplateTriples pattern = []) :
    (hidden pattern).Tells templated loose ends :=
  fun _ shows => absurd shows (not_shows_hidden plain)

theorem tells_ofTriple {triple : TriplePattern} {node : Term} (ended : ends node)
    (named : ∀ name ∈ node.names, name ∈ triple.names) :
    (ofTriple triple).Tells templated loose ends := by
  intro shown shows
  have same := shows_ofTriple.1 shows
  exact ⟨groupAsks_single.2 (.inl same), node, ended, fun name inNode =>
    (TriplePattern.names_of_template? same) ▸ named name inNode⟩

theorem Tells.ended {fragment : Fragment} (tells : fragment.Tells templated loose ends)
    {terminal : Option Term} :
    Tells templated loose ends { fragment with terminal := terminal } :=
  tells

theorem tells_classified {node : Term} (ended : ends node) (classVariable : Variable)
    (classes : List Iri) : (classified node classVariable classes).Tells templated loose ends := by
  unfold classified
  split
  · exact tells_empty
  · exact tells_ofTriple ended fun name named =>
      List.mem_append_left _ (List.mem_append_left _ named)
  · exact (tells_ofTriple ended fun name named =>
      List.mem_append_left _ (List.mem_append_left _ named)).append (tells_hidden rfl)

/-- A union shows what its branches show. -/
theorem shows_union {branches : List Fragment} {terminal : Option Term} :
    Shows templated ⟨[.union (branches.map Fragment.pattern)], branches.flatMap Fragment.template,
      terminal⟩ shown ↔ ∃ branch ∈ branches, branch.Shows templated shown := by
  simp only [Shows, groupTemplateTriples, Sparql.Element.templateTriples, List.append_nil,
    mem_branchesTemplateTriples, List.mem_map, exists_exists_and_eq_and, List.mem_flatMap]
  constructor
  · rintro (⟨branch, among, found⟩ | ⟨counts, branch, among, found⟩)
    · exact ⟨branch, among, .inl found⟩
    · exact ⟨branch, among, .inr ⟨counts, found⟩⟩
  · rintro ⟨branch, among, found | ⟨counts, found⟩⟩
    · exact .inl ⟨branch, among, found⟩
    · exact .inr ⟨counts, branch, among, found⟩

/-- Whether a triple that a fragment shows is found in every solution, or names a variable that
vouches for it and is not where the fragment leads. The triples of an optional fragment may name
nothing but known variables and the one to which the fragment leads. -/
def Backed (loose : Path → Prop) (known : List Variable) (owns : Unknown → Prop)
    (fragment : Fragment) (shown : TemplateTriple) : Prop :=
  groupAsks False (shown.Shows loose) fragment.pattern ∨
  (∃ key ∈ shown.names, owns (.var key) ∧
    fragment.pattern.Backs (shown.Shows loose) key ∧ fragment.terminal ≠ some (.var key)) ∨
  ∃ inner, fragment.pattern = [.optional inner] ∧ groupAsks False (shown.Shows loose) inner ∧
    (shown ∈ groupTemplateTriples inner ∨ ∃ key ∈ shown.names, owns (.var key)) ∧
    ∀ name ∈ shown.names, name ∈ known ∨ fragment.terminal = some (.var name)

/-- Whether a triple that a fragment shows is upheld by its pattern, or is a triple of an optional
pattern and names no variable. -/
def Upheld (loose : Path → Prop) (owns : Variable → Prop) (fragment : Fragment)
    (shown : TemplateTriple) : Prop :=
  fragment.pattern.Upholds (shown.Shows loose) shown.names owns ∨
  ∃ inner, .optional inner ∈ fragment.pattern ∧ shown ∈ groupTemplateTriples inner ∧
    shown.names = []

section Upheld

variable {owns more : Variable → Prop} {first second : Fragment}

theorem Upheld.mono (upheld : first.Upheld loose owns shown)
    (weaker : ∀ name, owns name → more name) : first.Upheld loose more shown :=
  upheld.imp_left fun upholds => upholds.mono weaker

theorem Upheld.append_left (upheld : first.Upheld loose owns shown)
    (named : Sparql.Atom.NamedIn more (Sparql.groupAtoms second.pattern))
    (apart : ∀ name, owns name → ¬ more name) : (first ++ second).Upheld loose owns shown :=
  upheld.imp (fun upholds => upholds.append_left named apart) fun ⟨inner, member, exposed⟩ =>
    ⟨inner, List.mem_append_left _ member, exposed⟩

theorem Upheld.append_right (upheld : second.Upheld loose owns shown)
    (named : Sparql.Atom.NamedIn more (Sparql.groupAtoms first.pattern))
    (apart : ∀ name, owns name → ¬ more name) : (first ++ second).Upheld loose owns shown :=
  upheld.imp (fun upholds => upholds.append_right named apart) fun ⟨inner, member, exposed⟩ =>
    ⟨inner, List.mem_append_right _ member, exposed⟩

/-- A variable that is named in an optional fragment has a value only where the fragment matches. -/
theorem Backed.upheld {known : List Variable} {owned : Unknown → Prop} {fragment : Fragment}
    (backed : fragment.Backed loose known owned shown)
    (weaker : ∀ name, owned (.var name) → owns name) (every : ∀ name ∈ shown.names, owns name) :
    fragment.Upheld loose owns shown := by
  rcases backed with asks | ⟨key, named, owned, backs, -⟩ | ⟨inner, same, asks, inside, -⟩
  · exact .inl (.inl asks)
  · exact .inl (.inr ⟨key, named, weaker key owned, backs⟩)
  · cases named : shown.names with
    | nil =>
      refine .inr ⟨inner, same ▸ List.mem_cons_self, inside.resolve_right ?_, named⟩
      rintro ⟨key, among, -⟩
      exact absurd (named ▸ among) List.not_mem_nil
    | cons key rest =>
      have among : key ∈ shown.names := named ▸ List.mem_cons_self
      refine .inl (.inr ⟨key, among, every key among, ?_⟩)
      rw [same]
      exact Group.Backs.optional (.inl asks)

end Upheld

theorem Scoped.owns_of_shows {owns : Variable → Prop} {fragment : Fragment}
    (kept : fragment.Scoped owns) (shows : fragment.Shows templated shown) :
    ∀ name ∈ shown.names, owns name := fun name named =>
  kept.pattern.owned name (shows.elim
    (fun inPattern => Sparql.scope_groupTemplateTriples _ shown inPattern name named)
    fun inTemplate => kept.shown shown inTemplate.2 name named)

end Fragment

/-! ### Steps -/

namespace Sparql.Path

variable {templated : Prop} {loose : Path → Prop} {subject object : Term} {shown : TemplateTriple}

theorem mem_names_of_step {path : Path}
    (same : (path.step subject object).template? = some shown) :
    ∀ name ∈ object.names, name ∈ shown.names := fun name named => by
  rw [TriplePattern.names_of_template? same]
  exact mem_names_step.2 (.inr named)

/-- A step shows itself, or what it repeats. -/
theorem mem_of_shownStep? {path : Path} (found : path.shownStep? subject object = some shown) :
    (path.step subject object).template? = some shown ∨
      ∃ inner, path.repeated? = some inner ∧
        (inner.step subject object).template? = some shown := by
  unfold shownStep? at found
  cases direct : (path.step subject object).template? with
  | some single =>
    rw [direct] at found
    exact .inl found
  | none =>
    rw [direct] at found
    exact .inr (Option.bind_eq_some_iff.1 found)

/-- A part of an alternative is shown in place of it. -/
theorem tells_alternative {members : List Path} (free : loose (.alternative members))
    {part : Path} (among : part ∈ (alternative members).parts)
    (same : (part.step subject object).template? = some shown) {triple : TriplePattern}
    (taken : triple = (alternative members).step subject object ∨
      ∃ member ∈ members, triple = member.step subject object) : shown.Shows loose triple := by
  refine .inr ⟨_, subject, object, free, taken.imp_right fun chosen => ⟨members, rfl, chosen⟩, ?_⟩
  exact ⟨part, among, same⟩

theorem tells_hop {path : Path} (free : loose path) :
    (path.hop subject object).Tells templated loose (· = object) := by
  intro shown shows
  by_cases single : ∀ members, path ≠ .alternative members
  · rw [hop_of_single single] at shows ⊢
    have found : (path.step subject object).template? = some shown ∨
        ∃ inner, path.repeated? = some inner ∧
          (inner.step subject object).template? = some shown := by
      rcases shows with inPattern | ⟨-, inTemplate⟩
      · rcases List.mem_append.1 inPattern with same | none
        · exact .inl (Option.mem_toList.1 same)
        · exact absurd none List.not_mem_nil
      · exact mem_of_shownStep? (Option.mem_toList.1 inTemplate)
    rcases found with same | ⟨inner, repeated, same⟩
    · exact ⟨groupAsks_single.2 (.inl same), object, rfl, mem_names_of_step same⟩
    · refine ⟨groupAsks_single.2 (.inr ⟨path, subject, object, free, .inl rfl, inner, ?_, same⟩),
        object, rfl, mem_names_of_step same⟩
      cases path with
      | alternative members => exact absurd rfl (single members)
      | _ => exact Option.mem_toList.2 repeated
  · push Not at single
    obtain ⟨members, rfl⟩ := single
    have found : ∃ part ∈ (alternative members).parts,
        (part.step subject object).template? = some shown := by
      rcases shows with inPattern | ⟨-, inTemplate⟩
      · rcases List.mem_append.1 inPattern with inUnion | none
        · obtain ⟨branch, among, inBranch⟩ := mem_branchesTemplateTriples.1 inUnion
          obtain ⟨member, listed, rfl⟩ := List.mem_map.1 among
          rcases List.mem_append.1 inBranch with same | none
          · exact ⟨member, List.mem_append_left _ listed, Option.mem_toList.1 same⟩
          · exact absurd none List.not_mem_nil
        · exact absurd none List.not_mem_nil
      · obtain ⟨member, listed, made⟩ := List.mem_filterMap.1 inTemplate
        rcases mem_of_shownStep? made with same | ⟨inner, repeated, same⟩
        · exact ⟨member, List.mem_append_left _ listed, same⟩
        · exact ⟨inner, List.mem_append_right _ (List.mem_filterMap.2 ⟨member, listed, repeated⟩),
            same⟩
    obtain ⟨part, among, same⟩ := found
    refine ⟨groupAsks_single.2 (branchesAsk_iff.2 (List.forall_mem_map.2 fun member listed => ?_)),
      object, rfl, mem_names_of_step same⟩
    exact groupAsks_single.2 (tells_alternative free among same (.inr ⟨member, listed, rfl⟩))

theorem tells_walk {steps : List (Path × Term)} (free : ∀ step ∈ steps, loose step.1) :
    (walk subject steps).Tells templated loose (· ∈ steps.map Prod.snd) := by
  induction steps generalizing subject with
  | nil => exact Fragment.tells_empty
  | cons step rest inductionHypothesis =>
    rw [List.forall_mem_cons] at free
    refine ((tells_hop free.1).mono fun node same => ?_).append
      ((inductionHypothesis free.2).mono fun node member => List.mem_cons_of_mem _ member)
    exact same ▸ List.mem_cons_self

theorem tells_whole {path : Path} (free : ∀ element ∈ path.elements, loose element) :
    (path.whole subject object).Tells templated loose (· = object) := by
  cases path with
  | alternative members =>
    rintro shown (inPattern | ⟨-, inTemplate⟩)
    · cases inPattern
    · obtain ⟨member, listed, same⟩ := List.mem_filterMap.1 inTemplate
      have among : member ∈ (alternative members).parts := List.mem_append_left _ listed
      exact ⟨groupAsks_single.2 (tells_alternative (List.forall_mem_singleton.1 free) among same
        (.inl rfl)), object, rfl, mem_names_of_step same⟩
  | _ => exact Fragment.tells_ofTriple rfl fun name named => mem_names_step.2 (.inr named)

end Sparql.Path

/-! ### Paths -/

/-- Whether a term is a variable with one of the numbers that are free in one scope and taken in a
later one. -/
def Shape.Scope.Numbers (before after : Scope) (node : Term) : Prop :=
  ∃ name, node = .var name ∧ before.Owns after (.var name)

theorem Shape.Scope.Numbers.mono {first before after last : Scope} {node : Term}
    (numbers : before.Numbers after node) (lower : first.Precedes before)
    (higher : after.Precedes last) : first.Numbers last node := by
  obtain ⟨name, same, owns⟩ := numbers
  exact ⟨name, same, owns.mono lower higher⟩

namespace Lowering

variable {lowering : Lowering} {templated : Prop} {loose : Path → Prop}

theorem tells_anyTriple {before after : Scope} {slot : Slot} (between : slot.Between before after)
    (value : Variable) :
    (lowering.anyTriple (slot.toVariable before.stem) value).Tells templated loose
      (before.Numbers after) := by
  refine Fragment.tells_ofTriple ⟨_, rfl, slot, between, rfl⟩ fun name named => ?_
  exact List.mem_append_left _ (List.mem_append_right _ named)

theorem tells_along {path : Path} {nodes : List Term} {terminal : Term} (last : terminal ∈ nodes)
    (free : ∀ element ∈ path.elements, loose element) :
    (lowering.along path nodes terminal).Tells templated loose (· ∈ nodes) := by
  have whole : (path.whole lowering.focus terminal).Tells templated loose (· ∈ nodes) :=
    (Path.tells_whole free).mono fun node same => same ▸ last
  unfold along
  split
  · rename_i paths
    split
    · exact whole
    · refine (Path.tells_walk fun step member => free step.1 (List.of_mem_zip member).1).mono ?_
      intro node member
      obtain ⟨step, among, rfl⟩ := List.mem_map.1 member
      exact (List.of_mem_zip among).2
  · exact whole

/-- A path without a synonym is shown by its steps. -/
theorem tells_shown {synonym : Option Iri} (literal : templated → synonym = none) (terminal : Term)
    {walked : Fragment} {ends : Term → Prop} (tells : walked.Tells templated loose ends) :
    (lowering.shown synonym terminal walked).Tells templated loose ends := by
  unfold shown
  split
  · rintro shown (inPattern | ⟨counts, -⟩)
    · exact tells shown (.inl inPattern)
    · cases literal counts
  · exact tells

theorem not_mem_of_owns {before after : Scope}
    (other : ∀ slot : Slot, slot.toVariable before.stem ∉ lowering.focus.names) {key : Variable}
    (owns : before.Owns after (.var key)) : key ∉ lowering.focus.names := by
  obtain ⟨slot, -, same⟩ := owns
  cases same
  exact other slot

theorem free_of_named {before after : Scope} {group : Group} {key : Variable}
    (named : Sparql.Atom.NamedIn (lowering.Reserves before after) (Sparql.groupAtoms group))
    (outside : key ∉ lowering.focus.names) (apart : ¬ before.Owns after (.var key)) :
    .var key ∉ group.unknowns :=
  fun member => (named key member).elim outside apart

theorem shows_bound {target : Variable} {branch : Fragment} {shown : TemplateTriple} :
    (bound target branch).Shows templated shown ↔ branch.Shows templated shown := by
  unfold bound
  split
  · exact Fragment.shows_append.trans (or_iff_left (Fragment.not_shows_hidden rfl))
  · exact Fragment.shows_append.trans (or_iff_left (Fragment.not_shows_hidden rfl))
  · exact Iff.rfl

theorem asks_bound {sort : TriplePattern → Prop} {target : Variable} {branch : Fragment}
    (asks : groupAsks False sort branch.pattern) :
    groupAsks False sort (bound target branch).pattern := by
  unfold bound
  split
  · exact groupAsks_append.2 (.inl asks)
  · exact groupAsks_append.2 (.inl asks)
  · exact asks

theorem backs_bound {sort : TriplePattern → Prop} {target key : Variable} {branch : Fragment}
    (backs : branch.pattern.Backs sort key) (other : key ≠ target) :
    (bound target branch).pattern.Backs sort key := by
  unfold bound
  split
  · exact backs.append ⟨other.symm, trivial⟩
  · exact backs.append ⟨fun member => other (List.mem_singleton.1 member), trivial⟩
  · exact backs

section Plain

variable (plain : lowering.Plain)

include plain

theorem numbers_nodes (scope : Scope) (hops : Nat) :
    ∀ node ∈ lowering.nodes scope.stem scope.nextNode hops,
      scope.Numbers { scope with nextNode := scope.nextNode + hops } node := by
  intro node member
  rw [plain.nodes] at member
  obtain ⟨offset, bounded, rfl⟩ := List.mem_map.1 member
  refine ⟨_, rfl, .node (scope.nextNode + offset), ⟨Nat.le_add_right _ _, ?_⟩, rfl⟩
  exact Nat.add_lt_add_left (List.mem_range.1 bounded) _

/-- All that a path shows is found, and names one of its nodes. -/
theorem tells_path (classes : List Iri) (undecided : Bool) (scope : Scope) {path : ShapePath}
    (step : path.path.hops ≠ 0) (free : ∀ element ∈ path.path.elements, loose element)
    (literal : templated → path.synonym = none) :
    (lowering.path classes undecided scope path).1.Tells templated loose
      (scope.Numbers (lowering.path classes undecided scope path).2) := by
  unfold Lowering.path
  split
  · exact @tells_anyTriple lowering templated loose _ _ (.predicate scope.nextPredicate)
      ⟨Nat.le_refl _, Nat.lt_succ_self _⟩ _
  · dsimp only
    have last := last_mem_nodes plain scope.stem scope.nextNode step
    have nodes := numbers_nodes plain scope path.path.hops
    have walked : (lowering.along path.path _ _).Tells templated loose _ := tells_along last free
    have ended (node : Term) (member : node ∈ lowering.nodes scope.stem scope.nextNode
        path.path.hops) : scope.Numbers { scope with nextNode := scope.nextNode + path.path.hops }
          node := nodes node member
    refine Fragment.Tells.ended (Fragment.Tells.append (tells_shown literal _ (walked.mono ended)) ?_)
    split
    · exact Fragment.tells_classified (ended _ last) _ classes
    · exact Fragment.tells_empty

/-- All that paths show is found, and names one of their nodes. -/
theorem tells_paths (classes : List Iri) (undecided : Bool) (scope : Scope)
    {paths : List ShapePath} (steps : ∀ path ∈ paths, path.path.hops ≠ 0)
    (free : ∀ path ∈ paths, ∀ element ∈ path.path.elements, loose element)
    (literal : templated → ∀ path ∈ paths, path.synonym = none) :
    scope.Precedes (lowering.paths classes undecided scope paths).2 ∧
      (lowering.paths classes undecided scope paths).1.Tells templated loose
        (scope.Numbers (lowering.paths classes undecided scope paths).2) := by
  induction paths generalizing undecided scope with
  | nil => exact ⟨.refl scope, Fragment.tells_empty⟩
  | cons path rest inductionHypothesis =>
    simp only [List.forall_mem_cons] at steps free literal
    have precedes : scope.Precedes (lowering.path classes undecided scope path).2 :=
      path_precedes classes undecided scope path
    obtain ⟨later, others⟩ := inductionHypothesis
      (undecided && (lowering.path classes undecided scope path).1.terminal.isNone)
      (lowering.path classes undecided scope path).2 steps.2 free.2 fun counts => (literal counts).2
    rw [paths_cons]
    refine ⟨precedes.trans later, Fragment.Tells.append ?_ ?_⟩
    · exact (tells_path plain classes undecided scope steps.1 free.1
        fun counts => (literal counts).1).mono fun _ numbers => numbers.mono (.refl _) later
    · exact others.mono fun _ numbers => numbers.mono precedes (.refl _)

/-! ### Unions -/

/-- Whether all that some branches show is found in the branch that shows it, and names a variable
with which every branch vouches for it. -/
def Vouches (templated : Prop) (loose : Path → Prop) (owns : Unknown → Prop)
    (branches : List Fragment) : Prop :=
  ∀ branch ∈ branches, ∀ shown, branch.Shows templated shown →
    groupAsks False (shown.Shows loose) branch.pattern ∧
      ∃ key ∈ shown.names, owns (.var key) ∧
        ∀ other ∈ branches, other.pattern.Backs (shown.Shows loose) key

theorem vouches_branches (classes : List Iri) (undecided : Bool) {scope : Scope}
    (other : ∀ slot : Slot, slot.toVariable scope.stem ∉ lowering.focus.names)
    {paths : List ShapePath} (filled : ∀ path ∈ paths, path.path.Filled)
    (steps : ∀ path ∈ paths, path.path.hops ≠ 0)
    (free : ∀ path ∈ paths, ∀ element ∈ path.path.elements, loose element)
    (literal : templated → ∀ path ∈ paths, path.synonym = none) :
    Vouches templated loose (scope.Owns (lowering.branches classes undecided scope paths).2)
      (lowering.branches classes undecided scope paths).1 := by
  induction paths generalizing scope with
  | nil => exact fun _ member => absurd member List.not_mem_nil
  | cons path rest inductionHypothesis =>
    simp only [List.forall_mem_cons] at filled steps free literal
    have precedes : scope.Precedes (lowering.path classes undecided scope path).2 :=
      path_precedes classes undecided scope path
    have otherThere : ∀ slot : Slot, slot.toVariable
        (lowering.path classes undecided scope path).2.stem ∉ lowering.focus.names :=
      precedes.stem ▸ other
    have first := scoped_path plain classes undecided scope filled.1 steps.1
    obtain ⟨later, others⟩ := scoped_branches plain classes undecided
      (lowering.path classes undecided scope path).2 filled.2 steps.2
    have tells : (lowering.path classes undecided scope path).1.Tells templated loose _ :=
      tells_path plain classes undecided scope steps.1 free.1 fun counts => (literal counts).1
    have vouches := inductionHypothesis otherThere filled.2 steps.2 free.2
      fun counts => (literal counts).2
    rw [branches_cons]
    refine List.forall_mem_cons.2 ⟨fun shown shows => ?_, fun branch member shown shows => ?_⟩
    · obtain ⟨asks, _, ⟨key, rfl, owns⟩, named⟩ := tells shown shows
      refine ⟨asks, key, named key (List.mem_singleton.2 rfl), owns.mono (.refl _) later,
        List.forall_mem_cons.2 ⟨.inl asks, fun branch member => .inr ?_⟩⟩
      exact Sparql.groupVouches_of_free _ (free_of_named (others branch member).pattern.named
        (not_mem_of_owns other owns) (owns.apart precedes))
    · obtain ⟨asks, key, named, owns, backs⟩ := vouches branch member shown shows
      refine ⟨asks, key, named, owns.mono precedes (.refl _),
        List.forall_mem_cons.2 ⟨.inr ?_, backs⟩⟩
      exact Sparql.groupVouches_of_free _ (free_of_named first.pattern.named
        (not_mem_of_owns otherThere owns) fun early => early.apart precedes owns)

/-- Branches lead to nodes of their own, so that they have a terminal in common only if they are one
branch. -/
theorem branches_of_terminal (classes : List Iri) (undecided : Bool) {scope : Scope}
    (other : ∀ slot : Slot, slot.toVariable scope.stem ∉ lowering.focus.names)
    {paths : List ShapePath} (filled : ∀ path ∈ paths, path.path.Filled)
    (steps : ∀ path ∈ paths, path.path.hops ≠ 0) {terminal : Term}
    (same : ∀ branch ∈ (lowering.branches classes undecided scope paths).1,
      branch.terminal = some terminal) :
    ∀ first ∈ (lowering.branches classes undecided scope paths).1,
      ∀ second ∈ (lowering.branches classes undecided scope paths).1, first = second := by
  cases paths with
  | nil => exact fun _ member => absurd member List.not_mem_nil
  | cons path rest =>
    rw [List.forall_mem_cons] at filled steps
    have precedes : scope.Precedes (lowering.path classes undecided scope path).2 :=
      path_precedes classes undecided scope path
    have first := scoped_path plain classes undecided scope filled.1 steps.1
    obtain ⟨-, others⟩ := scoped_branches plain classes undecided
      (lowering.path classes undecided scope path).2 filled.2 steps.2
    rw [branches_cons] at same ⊢
    obtain ⟨here, there⟩ := List.forall_mem_cons.1 same
    have ended := here
    rw [lowering.path_terminal classes undecided scope plain steps.1] at ended
    split at ended
    · cases ended
    · cases ended
      have only : (lowering.branches classes undecided
          (lowering.path classes undecided scope path).2 rest).1 = [] := by
        refine List.eq_nil_iff_forall_not_mem.2 fun branch member => ?_
        have early := (first.leads _ here _ (List.mem_singleton.2 rfl)).resolve_left (other _)
        have late :=
          (others branch member).leads _ (there branch member) _ (List.mem_singleton.2 rfl)
        exact early.apart precedes (late.resolve_left (other _))
      rw [only]
      intro one member second among
      rw [List.mem_singleton.1 member, List.mem_singleton.1 among]

theorem vouches_joined {first scope : Scope} (precedes : first.Precedes scope)
    {branches : List Fragment}
    (vouches : Vouches templated loose (first.Owns scope) branches) :
    Vouches templated loose (first.Owns scope) (lowering.joined scope branches).1 := by
  unfold joined
  split
  · exact vouches
  · split
    · exact vouches
    · simp only [plain.node]
      refine List.forall_mem_map.2 fun branch member shown shows => ?_
      obtain ⟨asks, key, named, owns, backs⟩ := vouches branch member shown (shows_bound.1 shows)
      refine ⟨asks_bound asks, key, named, owns, List.forall_mem_map.2 fun other among => ?_⟩
      refine backs_bound (backs other among) ?_
      rintro rfl
      obtain ⟨slot, between, same⟩ := owns
      rw [← precedes.stem] at same
      cases Slot.toVariable_injective _ (Unknown.var.inj same)
      exact absurd between.2 (Nat.lt_irrefl _)

/-- A variable that branches own is where they lead only if all of them lead there. -/
theorem terminal_of_joined {first scope : Scope} (precedes : first.Precedes scope)
    {branches : List Fragment} {key : Variable} (owns : first.Owns scope (.var key))
    (ended : (lowering.joined scope branches).2.1 = some (.var key)) :
    (lowering.joined scope branches).1 = branches ∧
      ∀ branch ∈ branches, branch.terminal = some (.var key) := by
  unfold joined at ended ⊢
  split at ended
  · cases ended
  · split at ended
    · rename_i same
      cases ended
      rw [if_pos same]
      exact ⟨rfl, fun branch member => of_decide_eq_true (List.all_eq_true.1 same branch member)⟩
    · simp only [plain.node] at ended
      cases ended
      obtain ⟨slot, between, same⟩ := owns
      rw [← precedes.stem] at same
      cases Slot.toVariable_injective _ (Unknown.var.inj same)
      exact absurd between.2 (Nat.lt_irrefl _)

/-- All that choices show names a variable that vouches for it, and is found in every solution if
that is where the choices lead. -/
theorem backs_choices (classes : List Iri) (undecided : Bool) {scope : Scope}
    (other : ∀ slot : Slot, slot.toVariable scope.stem ∉ lowering.focus.names)
    {choices : List ShapePath} (filled : ∀ path ∈ choices, path.path.Filled)
    (steps : ∀ path ∈ choices, path.path.hops ≠ 0)
    (free : ∀ path ∈ choices, ∀ element ∈ path.path.elements, loose element)
    (literal : templated → ∀ path ∈ choices, path.synonym = none) {shown : TemplateTriple}
    (shows : (lowering.choices classes undecided scope choices).1.Shows templated shown) :
    ∃ key ∈ shown.names,
      scope.Owns (lowering.choices classes undecided scope choices).2 (.var key) ∧
      (lowering.choices classes undecided scope choices).1.pattern.Backs (shown.Shows loose) key ∧
      ((lowering.choices classes undecided scope choices).1.terminal = some (.var key) →
        groupAsks False (shown.Shows loose)
          (lowering.choices classes undecided scope choices).1.pattern) := by
  have vouches := vouches_branches plain classes undecided other filled steps free literal
  obtain ⟨precedes, kept⟩ := scoped_branches plain classes undecided scope filled steps
  have single (terminal : Term) :=
    @branches_of_terminal lowering plain classes undecided scope other choices filled steps terminal
  unfold Lowering.choices at shows ⊢
  split at shows
  · exact absurd shows Fragment.not_shows_empty
  · rename_i nonempty
    rw [if_neg nonempty]
    cases undecided with
    | false =>
      obtain ⟨branch, member, within⟩ := Fragment.shows_union.1 shows
      obtain ⟨-, key, named, owns, backs⟩ := vouches branch member shown within
      exact ⟨key, named, owns, .union (List.forall_mem_map.2 backs), nofun⟩
    | true =>
      obtain ⟨branch, member, within⟩ := Fragment.shows_union.1 shows
      obtain ⟨asks, key, named, owns, backs⟩ :=
        vouches_joined plain precedes vouches branch member shown within
      have otherThere : ∀ slot : Slot, slot.toVariable
          (lowering.branches classes true scope choices).2.stem ∉ lowering.focus.names :=
        precedes.stem ▸ other
      obtain ⟨later, -⟩ := scoped_joined plain precedes otherThere kept
      refine ⟨key, named, owns.mono (.refl _) later, .union (List.forall_mem_map.2 backs),
        fun ended => ?_⟩
      obtain ⟨unchanged, ends⟩ := terminal_of_joined plain precedes owns ended
      refine groupAsks_single.2 (branchesAsk_iff.2 (List.forall_mem_map.2 fun only among => ?_))
      rw [if_pos rfl, unchanged] at member among
      exact single _ ends branch member only among ▸ asks

end Plain

/-! ### Property shapes -/

/-- The triple of a condition is found. -/
theorem tells_filter (scope : Scope) (constraint : FilterConstraint) :
    (lowering.filter scope constraint).1.Tells templated loose (· = lowering.focus) := by
  have named {value : Term} : ∀ name ∈ lowering.focus.names,
      name ∈ (constraint.path.step lowering.focus value).names :=
    fun name inFocus => Path.mem_names_step.2 (.inl inFocus)
  unfold Lowering.filter
  split
  · exact Fragment.tells_ofTriple rfl named
  · exact (Fragment.tells_hidden rfl).append (Fragment.tells_ofTriple rfl named)

theorem tells_filters (scope : Scope) (constraints : List FilterConstraint) :
    (lowering.filters scope constraints).1.Tells templated loose (· = lowering.focus) := by
  induction constraints generalizing scope with
  | nil => exact Fragment.tells_empty
  | cons constraint rest inductionHypothesis =>
    rw [filters_cons]
    exact (tells_filter scope constraint).append (inductionHypothesis _)

/-- Conditions show triples of their pattern only. -/
theorem mem_of_shows_filters {scope : Scope} {constraints : List FilterConstraint}
    {shown : TemplateTriple}
    (shows : (lowering.filters scope constraints).1.Shows templated shown) :
    shown ∈ groupTemplateTriples (lowering.filters scope constraints).1.pattern := by
  have single {triple : TriplePattern} (shows : (Fragment.ofTriple triple).Shows templated shown) :
      shown ∈ groupTemplateTriples (Fragment.ofTriple triple).pattern :=
    List.mem_append_left _ (Option.mem_toList.2 (Fragment.shows_ofTriple.1 shows))
  induction constraints generalizing scope with
  | nil => exact absurd shows Fragment.not_shows_empty
  | cons constraint rest inductionHypothesis =>
    rw [filters_cons] at shows ⊢
    show shown ∈ groupTemplateTriples ((lowering.filter scope constraint).1.pattern ++ _)
    rw [groupTemplateTriples_append]
    rcases Fragment.shows_append.1 shows with first | others
    · refine List.mem_append_left _ ?_
      unfold Lowering.filter at first ⊢
      split at first
      · exact single first
      · exact single ((Fragment.shows_append.1 first).resolve_left (Fragment.not_shows_hidden rfl))
    · exact List.mem_append_right _ (inductionHypothesis others)

section Plain

variable (plain : lowering.Plain) {scope : Scope}
  (other : ∀ slot : Slot, slot.toVariable scope.stem ∉ lowering.focus.names)
  {shape : PropertyShape} (regular : shape.Regular) (filled : shape.Filled)
  (free : ∀ path, shape.Matches path → loose path) (literal : templated → shape.Literal)

include plain other regular filled free literal

/-- What the parts of a property shape show is found, or names a variable that vouches for it and
is not where they lead. -/
theorem vouches_together {shown : TemplateTriple}
    (shows : (lowering.together scope shape).Shows templated shown) :
    (groupAsks False (shown.Shows loose) (lowering.together scope shape).pattern ∧
      (shown ∈ groupTemplateTriples (lowering.together scope shape).pattern ∨
        ∃ key ∈ shown.names, scope.Owns (lowering.conditions scope shape).2 (.var key))) ∨
    ∃ key ∈ shown.names, scope.Owns (lowering.conditions scope shape).2 (.var key) ∧
      (lowering.together scope shape).pattern.Backs (shown.Shows loose) key ∧
      (lowering.together scope shape).terminal ≠ some (.var key) := by
  have requiredSteps : ∀ path ∈ longestFirst shape.paths, path.path.hops ≠ 0 :=
    fun path member => regular.paths path (List.mem_mergeSort.1 member)
  obtain ⟨toRequired, required⟩ := scoped_paths plain shape.classes true scope
    (fun path member => filled.paths path (List.mem_mergeSort.1 member)) requiredSteps
  have otherThere : ∀ slot : Slot, slot.toVariable (lowering.required scope shape).2.stem ∉
      lowering.focus.names := toRequired.stem ▸ other
  obtain ⟨toChosen, chosen⟩ := scoped_choices plain shape.classes
    (lowering.required scope shape).1.terminal.isNone (lowering.required scope shape).2
    otherThere filled.choices regular.choices
  obtain ⟨toConditions, conditions⟩ :=
    @scoped_filters lowering (lowering.chosen scope shape).2 _ regular.values
  rcases Fragment.shows_append.1 shows with paths | inConditions
  · rcases Fragment.shows_append.1 paths with inRequired | inChosen
    · obtain ⟨-, tells⟩ := tells_paths plain shape.classes true scope requiredSteps
        (fun path member element inside => free element
          ⟨path, List.mem_append_left _ (List.mem_mergeSort.1 member), inside⟩)
        fun counts path member =>
          literal counts path (List.mem_append_left _ (List.mem_mergeSort.1 member))
      obtain ⟨asks, _, ⟨key, rfl, owns⟩, named⟩ := tells shown inRequired
      exact .inl ⟨groupAsks_append.2 (.inl (groupAsks_append.2 (.inl asks))),
        .inr ⟨key, named key (List.mem_singleton.2 rfl),
          owns.mono (.refl _) (toChosen.trans toConditions)⟩⟩
    · obtain ⟨key, named, owns, backs, only⟩ := backs_choices plain shape.classes _ otherThere
        filled.choices regular.choices
        (fun path member element inside =>
          free element ⟨path, List.mem_append_right _ member, inside⟩)
        (fun counts path member => literal counts path (List.mem_append_right _ member)) inChosen
      have outside := not_mem_of_owns otherThere owns
      by_cases ended : (lowering.chosen scope shape).1.terminal = some (.var key)
      · exact .inl ⟨groupAsks_append.2 (.inl (groupAsks_append.2 (.inr (only ended)))),
          .inr ⟨key, named, owns.mono toRequired toConditions⟩⟩
      · refine .inr ⟨key, named, owns.mono toRequired toConditions, ?_, fun last => ?_⟩
        · exact (backs.append_right (free_of_named required.pattern.named outside
            fun early => early.apart toRequired owns)).append_left
              (free_of_named conditions.pattern.named outside (owns.apart toChosen))
        · rw [together_terminal] at last
          rcases Option.or_eq_some_iff.1 last with early | ⟨-, late⟩
          · have reserved := required.leads _ early key (List.mem_singleton.2 rfl)
            exact (reserved.resolve_left outside).apart toRequired owns
          · exact ended late
  · have asks : groupAsks False (shown.Shows loose) _ := (tells_filters _ _ shown inConditions).1
    refine .inl ⟨groupAsks_append.2 (.inr asks), .inl ?_⟩
    show shown ∈ groupTemplateTriples (_ ++ _)
    rw [groupTemplateTriples_append]
    exact List.mem_append_right _ (mem_of_shows_filters inConditions)

/-- A property shape has the backing of a graph for all that it shows. -/
theorem backed_property {fragment : Fragment} {next : Scope}
    (lowered : lowering.property scope shape = .ok (fragment, next)) {shown : TemplateTriple}
    (shows : fragment.Shows templated shown) :
    fragment.Backed loose lowering.focus.names (scope.Owns next) shown := by
  obtain ⟨-, kept⟩ := scoped_property plain other regular filled lowered
  by_cases values : shape.maxCount = some 0
  · rw [Lowering.property, if_pos values] at lowered
    obtain ⟨predicates, -, made⟩ := Success.bind_ok.1 lowered
    cases made
    rcases Fragment.shows_append.1 shows with inTriple | inFilter
    · exact .inl (groupAsks_append.2
        (.inl (groupAsks_single.2 (.inl (Fragment.shows_ofTriple.1 inTriple)))))
    · exact absurd inFilter (Fragment.not_shows_hidden rfl)
  · rw [lowering.property_of_values scope values] at lowered
    obtain ⟨rfl, rfl⟩ := Prod.mk.inj (Except.ok.inj lowered)
    have together := @vouches_together lowering templated loose plain scope other shape regular
      filled free literal shown
    split at shows
    · rename_i absent
      rw [if_pos absent] at kept ⊢
      have inside : (lowering.together scope shape).Shows templated shown := by
        rcases shows with inPattern | inTemplate
        · exact .inl ((List.mem_append.1 inPattern).resolve_right List.not_mem_nil)
        · exact .inr inTemplate
      rcases together inside with ⟨asks, own⟩ | ⟨key, named, owns, backs, elsewhere⟩
      · by_cases further : ∃ key ∈ shown.names,
            scope.Owns (lowering.conditions scope shape).2 (.var key) ∧
              (lowering.together scope shape).terminal ≠ some (.var key)
        · obtain ⟨key, named, owns, elsewhere⟩ := further
          exact .inr (.inl ⟨key, named, owns, Group.Backs.optional (.inl asks), elsewhere⟩)
        · push Not at further
          refine .inr (.inr ⟨_, rfl, asks, own, fun name named => ?_⟩)
          exact (kept.owns_of_shows shows name named).imp_right (further name named)
      · exact .inr (.inl ⟨key, named, owns, backs.optional, elsewhere⟩)
    · rename_i needed
      rw [if_neg needed]
      rcases together shows with ⟨asks, -⟩ | keyed
      · exact .inl asks
      · exact .inr (.inl keyed)

end Plain

/-! ### Node shapes -/

/-- The levels of a chain have the backing of a graph: what they start with is found wherever they
match, and any other triple has the predicate of a later step. -/
theorem backs_blankLevels {start : List TriplePattern} {depth remaining : Nat}
    (early : ∀ triple ∈ start, ∀ later, depth < later → Shape.blankPredicate later ∉ triple.names)
    {shown : TemplateTriple}
    (shows : (Shape.blankLevels start depth remaining).Shows templated shown) :
    (∃ triple ∈ start, triple.template? = some shown) ∧ (∀ key,
      (Shape.blankLevels start depth remaining).pattern.Backs (shown.Shows loose) key) ∨
    ∃ later, depth < later ∧ Shape.blankPredicate later ∈ shown.names ∧
      (Shape.blankLevels start depth remaining).pattern.Backs (shown.Shows loose)
        (Shape.blankPredicate later) := by
  induction remaining generalizing start depth with
  | zero => exact absurd shows Fragment.not_shows_empty
  | succ remaining inductionHypothesis =>
    rw [Shape.blankLevels] at shows ⊢
    have found : (∃ triple ∈ start ++ [Shape.blankStep (.var (Shape.blankObject depth)) (depth + 1)],
        triple.template? = some shown) ∨
          (Shape.blankLevels [] (depth + 1) remaining).Shows templated shown := by
      rcases shows with inPattern | ⟨counts, inTemplate⟩
      · have inside := (List.mem_append.1 inPattern).resolve_right List.not_mem_nil
        rw [Sparql.Element.templateTriples, groupTemplateTriples_append,
          groupTemplateTriples_append] at inside
        rcases List.mem_append.1 inside with level | deeper
        · exact .inl (Sparql.mem_groupTemplateTriples_ofTriples.1
            ((List.mem_append.1 level).resolve_right List.not_mem_nil))
        · exact .inr (.inl deeper)
      · rcases List.mem_append.1 inTemplate with level | deeper
        · exact .inl (List.mem_filterMap.1 level)
        · exact .inr (.inr ⟨counts, deeper⟩)
    rcases found with ⟨triple, among, same⟩ | deeper
    · have asks (test deeper : Group) : groupAsks False (shown.Shows loose) (Group.ofTriples
          (start ++ [Shape.blankStep (.var (Shape.blankObject depth)) (depth + 1)]) ++ test ++
            deeper) :=
        groupAsks_append.2 (.inl (groupAsks_append.2
          (.inl (groupAsks_ofTriples.2 ⟨triple, among, .inl same⟩))))
      rcases List.mem_append.1 among with inStart | last
      · exact .inl ⟨⟨triple, inStart, same⟩, fun _ => Group.Backs.optional (.inl (asks _ _))⟩
      · refine .inr ⟨depth + 1, Nat.lt_succ_self depth, ?_, Group.Backs.optional (.inl (asks _ _))⟩
        rw [TriplePattern.names_of_template? same, List.mem_singleton.1 last]
        exact List.mem_append_left _ (List.mem_append_right _ List.mem_cons_self)
    · have further := inductionHypothesis (fun _ member => absurd member List.not_mem_nil) deeper
      rcases further with ⟨⟨_, none, -⟩, -⟩ | ⟨later, after, named, backs⟩
      · exact absurd none List.not_mem_nil
      · refine .inr ⟨later, Nat.lt_of_succ_lt after, named, (backs.append_right ?_).optional⟩
        have node : Shape.blankObject depth ≠ Shape.blankPredicate later :=
          (Shape.blankPredicate_ne_blankObject _ _).symm
        have step : ∀ name ∈ (Shape.blankStep (.var (Shape.blankObject depth)) (depth + 1)).names,
            name ≠ Shape.blankPredicate later := by
          simp [Shape.blankStep, TriplePattern.names, Sparql.Verb.names, Term.names, node,
            (Shape.blankPredicate_ne_blankObject later (depth + 1)).symm,
            Shape.blankPredicate_injective.eq_iff, Nat.ne_of_lt after]
        have triples : ∀ triple ∈ start ++ [Shape.blankStep (.var (Shape.blankObject depth))
            (depth + 1)], ∀ name ∈ triple.names, name ≠ Shape.blankPredicate later :=
          List.forall_mem_append.2 ⟨fun triple member name named same =>
            early triple member later (Nat.lt_of_succ_lt after) (same ▸ named),
            List.forall_mem_singleton.2 step⟩
        have tested : Sparql.Expression.ScopedIn (· ≠ Shape.blankPredicate later)
            (.var (Shape.blankObject depth)) := .var node
        have test : Group.ScopedIn (· ≠ Shape.blankPredicate later)
            [.filter (.call .isBlank [.var (Shape.blankObject depth)])] :=
          .filter (.call (List.forall_mem_singleton.2 tested) _)
        exact fun member => ((Group.ScopedIn.ofTriples triples).append test).named _ member rfl

/-- The class of a focus is found. -/
theorem asks_targetClasses {classes : List Iri} {shown : TemplateTriple}
    (shows : (lowering.targetClasses classes).Shows templated shown) :
    groupAsks False (shown.Shows loose) (lowering.targetClasses classes).pattern := by
  unfold targetClasses at shows ⊢
  split
  · rename_i every
    rw [if_pos every] at shows
    exact absurd shows Fragment.not_shows_empty
  · rename_i restricted
    rw [if_neg restricted] at shows
    exact (@Fragment.tells_classified templated loose (· = lowering.focus) _ rfl _ _ shown shows).1

theorem named_targetClasses (ground : lowering.focus.names = []) (classes : List Iri) :
    Sparql.Atom.NamedIn (· = Shape.focusClasses)
      (Sparql.groupAtoms (lowering.targetClasses classes).pattern) := by
  unfold targetClasses
  split
  · exact Sparql.Atom.namedIn_nil
  · have focus : ∀ name ∈ lowering.focus.names, name = Shape.focusClasses := by simp [ground]
    exact (Fragment.scoped_classified focus rfl classes).pattern.named

theorem named_blankChain (ground : lowering.focus.names = []) (depth : Nat) :
    Sparql.Atom.NamedIn
      (fun name => ∃ number, name = Shape.blankPredicate number ∨ name = Shape.blankObject number)
      (Sparql.groupAtoms (Shape.blankChain lowering.focus depth).pattern) := by
  refine (scoped_blankLevels (List.forall_mem_singleton.2 fun name named => ?_)
    (fun number => ⟨number, .inl rfl⟩) (fun number => ⟨number, .inr rfl⟩) 1 depth).pattern.named
  rcases List.mem_append.1 named with ends | inObject
  · rcases List.mem_append.1 ends with inFocus | inPredicate
    · exact absurd (ground ▸ inFocus) List.not_mem_nil
    · exact ⟨1, .inl (List.mem_singleton.1 inPredicate)⟩
  · exact ⟨1, .inr (List.mem_singleton.1 inObject)⟩

section Profile

variable (plain : lowering.Plain) (profile : lowering.kind = .profile)
  (ground : lowering.focus.names = [])

include plain profile ground

/-- The property shapes of a profile uphold all that they show. -/
theorem upheld_properties {index : Nat} {shared : Scope} {properties : List PropertyShape}
    {fragment : Fragment} (regular : ∀ property ∈ properties, property.Regular)
    (filled : ∀ property ∈ properties, property.Filled)
    (free : ∀ property ∈ properties, ∀ path, property.Matches path → loose path)
    (literal : templated → ∀ property ∈ properties, property.Literal)
    (lowered : lowering.properties index shared properties = .ok fragment) :
    Sparql.Atom.NamedIn (fun name => OfShapes .profile index (.var name))
      (Sparql.groupAtoms fragment.pattern) ∧
    ∀ shown, fragment.Shows templated shown →
      fragment.Upheld loose (fun name => OfShapes .profile index (.var name)) shown := by
  induction properties generalizing index shared fragment with
  | nil =>
    cases lowered
    exact ⟨Sparql.Atom.namedIn_nil, fun _ shows => absurd shows Fragment.not_shows_empty⟩
  | cons property rest inductionHypothesis =>
    simp only [List.forall_mem_cons] at regular filled free literal
    obtain ⟨⟨first, next⟩, firstLowered, further⟩ := Success.bind_ok.1 lowered
    obtain ⟨others, othersLowered, made⟩ := Success.bind_ok.1 further
    cases made
    rw [profile, if_neg (by decide)] at firstLowered
    have other : ∀ slot : Slot, slot.toVariable (Scope.start (ShapeKind.profile.stem index)).stem ∉
        lowering.focus.names := by simp [ground]
    obtain ⟨-, kept⟩ := scoped_property plain other regular.1 filled.1 firstLowered
    obtain ⟨othersNamed, othersUpheld⟩ := inductionHypothesis regular.2 filled.2 free.2
      (fun counts => (literal counts).2) othersLowered
    have firstOwned : ∀ name, lowering.Reserves (Scope.start (ShapeKind.profile.stem index)) next
        name → ∃ slot : Slot, name = slot.toVariable (ShapeKind.profile.stem index) := by
      rintro name (inFocus | ⟨slot, -, same⟩)
      · exact absurd (ground ▸ inFocus) List.not_mem_nil
      · exact ⟨slot, Unknown.var.inj same⟩
    have firstNamed : Sparql.Atom.NamedIn _ (Sparql.groupAtoms first.pattern) :=
      fun name member => firstOwned name (kept.pattern.named name member)
    have apart (name : Variable) : (∃ slot : Slot, name = slot.toVariable
        (ShapeKind.profile.stem index)) → ¬ OfShapes .profile (index + 1) (.var name) := by
      rintro ⟨slot, rfl⟩ ⟨later, after, other, same⟩
      exact absurd (profile_stem_inj (Unknown.var.inj same)) (Nat.ne_of_lt after)
    have here (name : Variable) : (∃ slot : Slot, name = slot.toVariable
        (ShapeKind.profile.stem index)) → OfShapes .profile index (.var name) :=
      fun ⟨slot, same⟩ => ⟨index, Nat.le_refl _, slot, congrArg _ same⟩
    have there (name : Variable) (later : OfShapes .profile (index + 1) (.var name)) :
        OfShapes .profile index (.var name) := by
      obtain ⟨number, after, owned⟩ := later
      exact ⟨number, Nat.le_of_succ_le after, owned⟩
    refine ⟨?_, fun shown shows => ?_⟩
    · show Sparql.Atom.NamedIn _ (Sparql.groupAtoms (first.pattern ++ others.pattern))
      rw [Sparql.groupAtoms_append]
      exact Sparql.Atom.namedIn_append.2 ⟨fun name member => here name (firstNamed name member),
        fun name member => there name (othersNamed name member)⟩
    · rcases Fragment.shows_append.1 shows with inFirst | inOthers
      · have backed := backed_property plain other regular.1 filled.1 free.1
          (fun counts => (literal counts).1) firstLowered inFirst
        have upheld := backed.upheld (fun name owns => firstOwned name (.inr owns))
          ((kept.mono firstOwned).owns_of_shows inFirst)
        exact (upheld.append_left othersNamed apart).mono here
      · refine ((othersUpheld shown inOthers).append_right firstNamed fun name later owned => ?_).mono
          there
        exact apart name owned later

omit plain profile in
/-- What a chain of blank nodes shows names the predicate of the step that vouches for it. -/
theorem upheld_blankChain {depth : Nat} {shown : TemplateTriple}
    (shows : (Shape.blankChain lowering.focus depth).Shows templated shown) :
    (Shape.blankChain lowering.focus depth).Upheld loose
      (fun name => ∃ number, name = Shape.blankPredicate number) shown := by
  have early : ∀ triple ∈ [Shape.blankStep lowering.focus 1], ∀ later, 1 < later →
      Shape.blankPredicate later ∉ triple.names := by
    refine List.forall_mem_singleton.2 fun later after named => ?_
    rcases List.mem_append.1 named with ends | inObject
    · rcases List.mem_append.1 ends with inFocus | inPredicate
      · exact absurd (ground ▸ inFocus) List.not_mem_nil
      · have same := Shape.blankPredicate_injective (List.mem_singleton.1 inPredicate)
        exact absurd same (Nat.ne_of_gt after)
    · exact Shape.blankPredicate_ne_blankObject _ _ (List.mem_singleton.1 inObject)
  rcases backs_blankLevels early shows with ⟨⟨triple, first, same⟩, backs⟩ | ⟨later, -, named, backs⟩
  · refine .inl (.inr ⟨_, ?_, ⟨1, rfl⟩, backs _⟩)
    rw [TriplePattern.names_of_template? same, List.mem_singleton.1 first]
    exact List.mem_append_left _ (List.mem_append_right _ List.mem_cons_self)
  · exact .inl (.inr ⟨_, named, ⟨later, rfl⟩, backs⟩)

/-- The lowered shape of a profile upholds all that it shows. -/
theorem upheld_nodeShape {shape : NodeShape} {fragment : Fragment}
    (regular : ∀ property ∈ shape.properties, property.Regular)
    (filled : ∀ property ∈ shape.properties, property.Filled)
    (free : ∀ path, shape.Matches path → loose path)
    (literal : templated → ∀ property ∈ shape.properties, property.Literal)
    (lowered : lowering.nodeShape shape = .ok fragment) {shown : TemplateTriple}
    (shows : fragment.Shows templated shown) : fragment.Upheld loose (fun _ => True) shown := by
  unfold nodeShape at lowered
  split at lowered
  · cases lowered
  · split at lowered
    · cases lowered
    · obtain ⟨properties, propertiesLowered, made⟩ := Success.bind_ok.1 lowered
      cases made
      obtain ⟨propertiesNamed, propertiesUpheld⟩ := upheld_properties plain profile ground regular
        filled (fun property member path matched => free path ⟨property, member, matched⟩) literal
        propertiesLowered
      have targetsNamed := named_targetClasses ground shape.classes
      have chainNamed := named_blankChain ground (shape.blankDepth.getD 0)
      have propertyLetter {name : Variable} (owned : OfShapes .profile 0 (.var name)) :
          initial? (.var name) = some 'p' := by
        obtain ⟨number, -, slot, same⟩ := owned
        rw [same]
        exact initial?_slot .profile number slot
      have blankLetter {name : Variable} (owned : ∃ number, name = Shape.blankPredicate number ∨
          name = Shape.blankObject number) : initial? (.var name) = some 'b' := by
        obtain ⟨number, rfl | rfl⟩ := owned
        · exact (initial?_blank number).1
        · exact (initial?_blank number).2
      have classLetter {name : Variable} (same : name = Shape.focusClasses) :
          initial? (.var name) = some 'f' := by
        rw [same]
        rfl
      rcases Fragment.shows_append.1 shows with described | inChain
      · rcases Fragment.shows_append.1 described with inTargets | inProperties
        · exact .inl (.inl (groupAsks_append.2 (.inl (groupAsks_append.2
            (.inl (asks_targetClasses inTargets))))))
        · refine Fragment.Upheld.mono (Fragment.Upheld.append_left (Fragment.Upheld.append_right
            (propertiesUpheld shown inProperties) targetsNamed ?_) chainNamed ?_) fun _ _ => trivial
          · exact fun name owned same => absurd
              ((propertyLetter owned).symm.trans (classLetter same)) (by decide)
          · exact fun name owned blank => absurd
              ((propertyLetter owned).symm.trans (blankLetter blank)) (by decide)
      · have describedNamed : Sparql.Atom.NamedIn
            (fun name => name = Shape.focusClasses ∨ OfShapes .profile 0 (.var name))
            (Sparql.groupAtoms ((lowering.targetClasses shape.classes).pattern ++
              properties.pattern)) := by
          rw [Sparql.groupAtoms_append]
          exact Sparql.Atom.namedIn_append.2 ⟨fun name member => .inl (targetsNamed name member),
            fun name member => .inr (propertiesNamed name member)⟩
        refine Fragment.Upheld.mono (Fragment.Upheld.append_right
          (upheld_blankChain ground inChain) describedNamed ?_) fun _ _ => trivial
        rintro name ⟨number, rfl⟩ (same | owned)
        · exact absurd ((initial?_blank number).1.symm.trans (classLetter same)) (by decide)
        · exact absurd ((initial?_blank number).1.symm.trans (propertyLetter owned)) (by decide)

end Profile

end Lowering

end ShapeQuery
