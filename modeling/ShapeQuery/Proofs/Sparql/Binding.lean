/-
This file tells what holds of every solution of a group because of the triples that the group asks
for, such as which variables have a value. A union asks for what each of its branches asks for;
filters and optional patterns ask for nothing.
-/
import Mathlib.Data.Fintype.EquivFin
import ShapeQuery.Proofs.Sparql.Matching
import ShapeQuery.Proofs.Sparql.Scope

namespace ShapeQuery.Sparql

open Solution (mem_joined merge_of_some merge_of_none)

/-! ### Asking -/

mutual

/-- Whether an element asks for a triple of some sort wherever it has a solution. Whether the
patterns of services count is up to the caller. -/
def Element.Asks (served : Prop) (sort : TriplePattern → Prop) : Element → Prop
  | .triple triple => sort triple
  | .union branches => branchesAsk served sort branches
  | .group pattern => groupAsks served sort pattern
  | .service _ _ pattern => served ∧ groupAsks served sort pattern
  | _ => False

/-- Whether one of some elements asks for a triple of some sort. -/
def groupAsks (served : Prop) (sort : TriplePattern → Prop) : List Element → Prop
  | [] => False
  | element :: rest => element.Asks served sort ∨ groupAsks served sort rest

/-- Whether each of some branches asks for a triple of some sort. -/
def branchesAsk (served : Prop) (sort : TriplePattern → Prop) : List (List Element) → Prop
  | [] => True
  | branch :: rest => groupAsks served sort branch ∧ branchesAsk served sort rest

end

/-- Whether a solution gives a value to a variable. -/
def Solution.Binds (solution : Solution) (name : Variable) : Prop :=
  ∃ value, solution (.var name) = some value

/-- Whether an element has a triple with a variable wherever it has a solution. -/
def Element.Binds (name : Variable) (element : Element) : Prop :=
  element.Asks True fun triple => name ∈ triple.names

/-- Whether one of some elements has a triple with a variable. -/
def groupBinds (name : Variable) (group : List Element) : Prop :=
  groupAsks True (fun triple => name ∈ triple.names) group

/-- Whether each of some branches has a triple with a variable. -/
def branchesBind (name : Variable) (branches : List (List Element)) : Prop :=
  branchesAsk True (fun triple => name ∈ triple.names) branches

/-- The services of an engine give values to what the triples of their patterns name. -/
def Engine.Serves (engine : Engine) : Prop :=
  ∀ service pattern, ∀ solution ∈ engine.service service pattern,
    ∀ name, groupBinds name pattern → solution.Binds name

theorem Engine.plain_serves : Engine.plain.Serves :=
  fun _ _ _ member => absurd member List.not_mem_nil

/-! ### Parts of groups -/

section

variable {served : Prop} {sort : TriplePattern → Prop}

theorem groupAsks_iff {group : Group} :
    groupAsks served sort group ↔ ∃ element ∈ group, element.Asks served sort := by
  induction group with
  | nil => simp [groupAsks]
  | cons element rest inductionHypothesis => simp [groupAsks, inductionHypothesis]

theorem branchesAsk_iff {branches : List Group} :
    branchesAsk served sort branches ↔ ∀ branch ∈ branches, groupAsks served sort branch := by
  induction branches with
  | nil => simp [branchesAsk]
  | cons branch rest inductionHypothesis => simp [branchesAsk, inductionHypothesis]

theorem groupAsks_append {first second : Group} :
    groupAsks served sort (first ++ second) ↔
      groupAsks served sort first ∨ groupAsks served sort second := by
  simp only [groupAsks_iff, List.mem_append, or_and_right, exists_or]

theorem groupAsks_single {element : Element} :
    groupAsks served sort [element] ↔ element.Asks served sort :=
  or_iff_left id

theorem groupAsks_ofTriples {triples : List TriplePattern} :
    groupAsks served sort (Group.ofTriples triples) ↔ ∃ triple ∈ triples, sort triple := by
  rw [groupAsks_iff, Group.ofTriples]
  simp [Element.Asks]

end

section

variable {name : Variable}

theorem groupBinds_append {first second : Group} :
    groupBinds name (first ++ second) ↔ groupBinds name first ∨ groupBinds name second :=
  groupAsks_append

theorem groupBinds_single {element : Element} :
    groupBinds name [element] ↔ element.Binds name :=
  groupAsks_single

theorem groupBinds_ofTriples {triples : List TriplePattern} :
    groupBinds name (Group.ofTriples triples) ↔ ∃ triple ∈ triples, name ∈ triple.names :=
  groupAsks_ofTriples

theorem branchesBind_iff {branches : List Group} :
    branchesBind name branches ↔ ∀ branch ∈ branches, groupBinds name branch :=
  branchesAsk_iff

end

/-! ### Growing solutions -/

namespace Solution

/-- Whether a solution has all values of another one. -/
def Extends (more fewer : Solution) : Prop :=
  ∀ unknown value, fewer unknown = some value → more unknown = some value

theorem Extends.refl (solution : Solution) : solution.Extends solution :=
  fun _ _ => id

theorem Extends.trans {first second third : Solution} (one : third.Extends second)
    (other : second.Extends first) : third.Extends first :=
  fun unknown value known => one unknown value (other unknown value known)

theorem Binds.extends {more fewer : Solution} {name : Variable} (binds : fewer.Binds name)
    (grows : more.Extends fewer) : more.Binds name :=
  binds.imp fun value known => grows _ value known

theorem extends_merge_left (first second : Solution) : (first.merge second).Extends first :=
  fun _ _ known => merge_of_some known second

theorem extends_merge_right {first second : Solution} (compatible : first.Compatible second) :
    (first.merge second).Extends second := by
  intro unknown value known
  cases before : first unknown with
  | none => exact (merge_of_none before second).trans known
  | some earlier =>
    rw [merge_of_some before, compatible unknown earlier value before known]

/-- What is joined has the values of the current solution and of a candidate, and no others. -/
theorem exists_of_mem_joined {context current solution : Solution} {candidates : List Solution}
    (member : solution ∈ joined context current candidates) :
    solution.Extends current ∧ ∃ candidate ∈ candidates, solution.Extends candidate ∧
      ∀ unknown, solution unknown = (current unknown).or (candidate unknown) := by
  obtain ⟨candidate, among, compatible, rfl⟩ := mem_joined.1 member
  refine ⟨extends_merge_left current candidate, candidate, among, extends_merge_right ?_,
    fun _ => rfl⟩
  exact fun unknown left right known => compatible unknown left right (merge_of_some known context)

end Solution

section

variable {engine : Engine} {graph : Rdf.Graph} {context : Solution}

/-- What has a value keeps it when an element is added. -/
theorem Element.extends_of_extend {element : Element} {current solution : Solution}
    (member : solution ∈ element.extend engine graph context current) :
    solution.Extends current := by
  cases element with
  | optional pattern =>
    simp only [Element.extend] at member
    split at member
    · exact List.mem_singleton.1 member ▸ .refl current
    · exact (Solution.exists_of_mem_joined (List.mem_filter.1 member).1).1
  | filter condition => exact List.mem_singleton.1 member ▸ .refl current
  | bind expression target =>
    simp only [Element.extend] at member
    split at member
    · exact List.mem_singleton.1 member ▸ .refl current
    · exact (Solution.exists_of_mem_joined member).1
  | _ => exact (Solution.exists_of_mem_joined member).1

theorem extends_of_extendAll {group : Group} {current solution : Solution}
    (member : solution ∈ extendAll engine graph context current group) :
    solution.Extends current := by
  induction group generalizing current with
  | nil => exact List.mem_singleton.1 member ▸ .refl current
  | cons element rest inductionHypothesis =>
    obtain ⟨next, extended, further⟩ := List.mem_flatMap.1 member
    exact (inductionHypothesis further).trans (Element.extends_of_extend extended)

end

/-! ### What solutions have -/

/-- A property of solutions that further values do not change and that holds of the solutions of
triples of some sort, and of services if their patterns count. -/
structure Inherent (engine : Engine) (graph : Rdf.Graph) (context : Solution) (served : Prop)
    (sort : TriplePattern → Prop) (holds : Solution → Prop) : Prop where
  grows : ∀ {more fewer : Solution}, more.Extends fewer → holds fewer → holds more
  triples : ∀ triple, sort triple → ∀ solution ∈ triple.solutions graph context, holds solution
  services : served → ∀ service pattern, groupAsks served sort pattern →
    ∀ solution ∈ engine.service service pattern, holds solution

section

variable {engine : Engine} {graph : Rdf.Graph} {context : Solution} {served : Prop}
  {sort : TriplePattern → Prop} {holds : Solution → Prop}

theorem Inherent.joined (inherent : Inherent engine graph context served sort holds)
    {current solution : Solution} {candidates : List Solution}
    (hold : ∀ candidate ∈ candidates, holds candidate)
    (member : solution ∈ Solution.joined context current candidates) : holds solution := by
  obtain ⟨-, candidate, among, grown, -⟩ := Solution.exists_of_mem_joined member
  exact inherent.grows grown (hold candidate among)

mutual

theorem Element.holds_of_asks (inherent : Inherent engine graph context served sort holds)
    (element : Element) (asks : element.Asks served sort) {current solution : Solution}
    (member : solution ∈ element.extend engine graph context current) : holds solution := by
  match element with
  | .triple triple => exact inherent.joined (inherent.triples triple asks) member
  | .union branches => exact inherent.joined (holds_of_branchesAsk inherent branches asks) member
  | .group pattern =>
    exact inherent.joined (fun _ found =>
      holds_of_groupAsks inherent pattern asks (List.mem_filter.1 found).1) member
  | .service service _ pattern =>
    exact inherent.joined (inherent.services asks.1 service pattern asks.2) member
  | .optional _ | .filter _ | .values _ | .bind _ _ | .select _ => exact absurd asks id

theorem holds_of_groupAsks (inherent : Inherent engine graph context served sort holds)
    (group : List Element) (asks : groupAsks served sort group) {current solution : Solution}
    (member : solution ∈ extendAll engine graph context current group) : holds solution := by
  match group with
  | [] => exact absurd asks id
  | element :: rest =>
    obtain ⟨next, extended, further⟩ := List.mem_flatMap.1 member
    rcases asks with first | later
    · exact inherent.grows (extends_of_extendAll further)
        (element.holds_of_asks inherent first extended)
    · exact holds_of_groupAsks inherent rest later further

theorem holds_of_branchesAsk (inherent : Inherent engine graph context served sort holds)
    (branches : List (List Element)) (asks : branchesAsk served sort branches) :
    ∀ solution ∈ branchSolutions engine graph context branches, holds solution := by
  match branches with
  | [] => exact fun _ member => absurd member List.not_mem_nil
  | branch :: rest =>
    intro solution member
    rcases List.mem_append.1 member with first | later
    · exact holds_of_groupAsks inherent branch asks.1 (List.mem_filter.1 first).1
    · exact holds_of_branchesAsk inherent rest asks.2 solution later

end

end

/-! ### Values -/

section

variable {name : Variable} {solution extended : Solution}

theorem Solution.extends_of_assign {unknown : Unknown} {value : Rdf.Term}
    (assigned : solution.assign unknown value = some extended) :
    extended unknown = some value ∧ extended.Extends solution := by
  unfold Solution.assign at assigned
  split at assigned
  · rename_i free
    cases assigned
    refine ⟨Function.update_self .., fun other known found => ?_⟩
    rw [Function.update_of_ne, found]
    rintro rfl
    rw [free] at found
    cases found
  · rename_i known found
    obtain ⟨rfl, same⟩ := Option.ite_none_right_eq_some.1 assigned
    cases same
    exact ⟨found, .refl solution⟩

theorem Term.extends_of_assign {term : Term} {value : Rdf.Term}
    (assigned : term.assign solution value = some extended) :
    extended.Extends solution ∧ ∀ name ∈ term.names, extended.Binds name := by
  cases term with
  | var other =>
    obtain ⟨known, grown⟩ := Solution.extends_of_assign assigned
    exact ⟨grown, List.forall_mem_singleton.2 ⟨value, known⟩⟩
  | blank label => exact ⟨(Solution.extends_of_assign assigned).2, List.forall_mem_nil _⟩
  | iri iri =>
    rw [Term.assign, Option.ite_none_right_eq_some, Option.some_inj] at assigned
    exact ⟨assigned.2 ▸ .refl solution, List.forall_mem_nil _⟩
  | literal written =>
    rw [Term.assign, Option.ite_none_right_eq_some, Option.some_inj] at assigned
    exact ⟨assigned.2 ▸ .refl solution, List.forall_mem_nil _⟩

/-- A solution of a triple gives values to all of its variables. -/
theorem TriplePattern.binds_of_solution {triple : TriplePattern} (named : name ∈ triple.names)
    {graph : Rdf.Graph} {context : Solution}
    (member : solution ∈ triple.solutions graph context) : solution.Binds name := by
  simp only [names, List.mem_append] at named
  unfold solutions at member
  split at member
  · rename_i verb written
    obtain ⟨found, -, chosen⟩ := List.mem_filterMap.1 member
    simp only [Option.bind_eq_bind, Option.bind_eq_some_iff] at chosen
    obtain ⟨first, subjectAssigned, second, verbAssigned, objectAssigned⟩ := chosen
    obtain ⟨afterVerb, objectBinds⟩ := Term.extends_of_assign objectAssigned
    obtain ⟨verbKnown, afterSubject⟩ := Solution.extends_of_assign verbAssigned
    rcases named with (inSubject | inVerb) | inObject
    · exact (((Term.extends_of_assign subjectAssigned).2 name inSubject).extends
        afterSubject).extends afterVerb
    · rw [written, Verb.names, List.mem_singleton] at inVerb
      exact inVerb ▸ Solution.Binds.extends ⟨_, verbKnown⟩ afterVerb
    · exact objectBinds name inObject
  · rename_i route written
    obtain ⟨pair, -, chosen⟩ := List.mem_filterMap.1 member
    simp only [Option.bind_eq_bind, Option.bind_eq_some_iff] at chosen
    obtain ⟨first, subjectAssigned, objectAssigned⟩ := chosen
    obtain ⟨afterSubject, objectBinds⟩ := Term.extends_of_assign objectAssigned
    rcases named with (inSubject | inVerb) | inObject
    · exact ((Term.extends_of_assign subjectAssigned).2 name inSubject).extends afterSubject
    · rw [written] at inVerb
      cases inVerb
    · exact objectBinds name inObject

variable {engine : Engine} {graph : Rdf.Graph}

theorem Engine.Serves.inherent (serves : engine.Serves) (graph : Rdf.Graph) (context : Solution)
    (name : Variable) : Inherent engine graph context True (fun triple => name ∈ triple.names)
      fun solution => solution.Binds name where
  grows grown binds := binds.extends grown
  triples _ named _ member := TriplePattern.binds_of_solution named member
  services _ service pattern binds solution member := serves service pattern solution member name binds

theorem binds_of_extendAll (serves : engine.Serves) {group : Group} (binds : groupBinds name group)
    {context current : Solution}
    (member : solution ∈ extendAll engine graph context current group) : solution.Binds name :=
  holds_of_groupAsks (serves.inherent graph context name) group binds member

/-- Every solution of a group gives a value to what the group has a triple with. -/
theorem Group.binds_of_solution (serves : engine.Serves) {group : Group}
    (binds : groupBinds name group) :
    ∀ solution ∈ group.solutions engine graph, solution.Binds name :=
  fun _ member => binds_of_extendAll serves binds (List.mem_filter.1 member).1

instance : Infinite Rdf.Term :=
  .of_injective Rdf.Term.blank fun _ _ => Rdf.Term.blank.inj

/-- A variable that a group confines to some terms has a value in each of its solutions; without a
value, it could be any term. -/
theorem binds_of_confined {group : Group} (positive : AllPositive group) {terms : List Rdf.Term}
    (confined : ∀ valuation : Valuation, AllMet graph valuation group →
      valuation (.var name) ∈ terms)
    {current : Solution} (member : solution ∈ extendAll engine graph .empty current group) :
    solution.Binds name := by
  by_contra unbound
  obtain ⟨other, absent⟩ := Infinite.exists_notMem_finset terms.toFinset
  let valuation : Valuation := Function.update (Valuation.ofSolution solution) (.var name) other
  have named : valuation (.var name) = other := Function.update_self ..
  have fits : valuation.Fits solution := by
    intro unknown value known
    have different : unknown ≠ .var name := fun same => unbound ⟨value, same ▸ known⟩
    exact (Function.update_of_ne different ..).trans
      (Valuation.fits_ofSolution solution unknown value known)
  have within := confined valuation (allMet_of_fits engine group positive member fits).1
  rw [named] at within
  exact absent (List.mem_toFinset.2 within)

/-- A triple of a graph is a solution of the pattern for its predicate. -/
theorem Group.exists_solution_of_edge (engine : Engine) {subject object : Variable}
    {predicate : Iri} {first last : Rdf.Term} (edge : (first, last) ∈ graph.edges predicate)
    (different : object ≠ subject) :
    ∃ solution ∈ Group.solutions engine graph
        [.ofTriple (.var subject) (.predicate predicate) (.var object)],
      solution (.var subject) = some first ∧ solution (.var object) = some last := by
  let valuation : Valuation := Function.update (fun _ => first) (.var object) last
  have start : valuation (.var subject) = first :=
    Function.update_of_ne (fun same => different (Unknown.var.inj same).symm) _ _
  have finish : valuation (.var object) = last := Function.update_self _ _ _
  have met : AllMet graph valuation
      [.ofTriple (.var subject) (.predicate predicate) (.var object)] := by
    refine ⟨?_, trivial⟩
    show (valuation (.var subject), valuation (.var object)) ∈ graph.edges predicate
    rwa [start, finish]
  have positive : AllPositive [.ofTriple (.var subject) (.predicate predicate) (.var object)] :=
    ⟨trivial, trivial⟩
  obtain ⟨solution, member, fits⟩ := Group.exists_solution engine positive met
  have known (name : Variable) (value : Rdf.Term) (given : valuation (.var name) = value)
      (named : name ∈ [subject, object]) : solution (.var name) = some value := by
    have inTriple : name ∈ TriplePattern.names
        ⟨.var subject, .predicate predicate, .var object⟩ := by
      simpa [TriplePattern.names, Term.names] using named
    have extended := (List.mem_filter.1 member).1
    rw [extendAll, List.mem_flatMap] at extended
    obtain ⟨next, found, same⟩ := extended
    rw [List.mem_singleton.1 same] at fits ⊢
    obtain ⟨-, candidate, among, grown, -⟩ := Solution.exists_of_mem_joined found
    obtain ⟨bound, is⟩ := (TriplePattern.binds_of_solution inTriple among).extends grown
    rw [is, ← given, fits _ _ is]
  exact ⟨solution, member, known subject first start List.mem_cons_self,
    known object last finish (List.mem_cons_of_mem _ List.mem_cons_self)⟩

/-- Filters by themselves give values to nothing. -/
theorem Group.eq_empty_of_filters {conditions : List Expression} :
    ∀ solution ∈ Group.solutions engine graph (conditions.map .filter), solution = .empty := by
  intro solution member
  have extended := (List.mem_filter.1 member).1
  clear member
  induction conditions with
  | nil => exact List.mem_singleton.1 extended
  | cons condition rest inductionHypothesis =>
    obtain ⟨next, same, further⟩ := List.mem_flatMap.1 extended
    rw [List.mem_singleton.1 same] at further
    exact inductionHypothesis further

theorem Solution.not_binds_empty (name : Variable) : ¬ Solution.empty.Binds name :=
  fun ⟨_, known⟩ => by cases known

end

end ShapeQuery.Sparql
