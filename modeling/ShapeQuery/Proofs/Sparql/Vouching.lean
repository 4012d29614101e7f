/-
This file tells which triples of a graph stand behind the solutions of a group. A variable that only
triples of some sort give a value to vouches for one of them: wherever it has a value, even from an
optional pattern or from one branch of a union, such a triple is met.
-/
import ShapeQuery.Proofs.Sparql.Binding

namespace ShapeQuery.Sparql

/-! ### Instances -/

/-- What a term of a template stands for. A blank node of a template is a new one for each
solution. -/
def Term.shown (solution : Solution) : Term → Option Rdf.Term
  | .blank _ => none
  | term => term.value solution

/-- The triple that a triple of a template stands for. -/
def TemplateTriple.instance? (solution : Solution) (shown : TemplateTriple) : Option Rdf.Triple :=
  match shown.subject.shown solution, shown.predicate.shown solution,
    shown.object.shown solution with
  | some subject, some (.iri predicate), some object =>
    subject.node?.map fun node => ⟨node, predicate, object⟩
  | _, _, _ => none

theorem groupTemplateTriples_append (first second : Group) :
    groupTemplateTriples (first ++ second) =
      groupTemplateTriples first ++ groupTemplateTriples second := by
  induction first with
  | nil => rfl
  | cons element rest inductionHypothesis =>
    rw [List.cons_append, groupTemplateTriples, inductionHypothesis, groupTemplateTriples,
      List.append_assoc]

theorem mem_groupTemplateTriples {group : Group} {shown : TemplateTriple} :
    shown ∈ groupTemplateTriples group ↔ ∃ element ∈ group, shown ∈ element.templateTriples := by
  induction group with
  | nil => simp [groupTemplateTriples]
  | cons element rest inductionHypothesis => simp [groupTemplateTriples, inductionHypothesis]

theorem mem_branchesTemplateTriples {branches : List Group} {shown : TemplateTriple} :
    shown ∈ branchesTemplateTriples branches ↔
      ∃ branch ∈ branches, shown ∈ groupTemplateTriples branch := by
  induction branches with
  | nil => simp [branchesTemplateTriples]
  | cons branch rest inductionHypothesis =>
    simp [branchesTemplateTriples, inductionHypothesis]

theorem mem_groupTemplateTriples_ofTriples {triples : List TriplePattern} {shown : TemplateTriple} :
    shown ∈ groupTemplateTriples (Group.ofTriples triples) ↔
      ∃ triple ∈ triples, triple.template? = some shown := by
  induction triples with
  | nil => simp [Group.ofTriples, groupTemplateTriples]
  | cons triple rest inductionHypothesis =>
    rw [List.exists_mem_cons_iff, ← inductionHypothesis]
    simp [Group.ofTriples, groupTemplateTriples, Element.templateTriples]

section

variable {valuation : Valuation} {solution : Solution} {shown : TemplateTriple}
  {made : Rdf.Triple}

theorem Valuation.term_of_shown (fits : valuation.Fits solution) {term : Term} {value : Rdf.Term}
    (told : term.shown solution = some value) : valuation.term term = value := by
  cases term with
  | var name => exact fits _ value told
  | blank label => cases told
  | iri name => exact Option.some.inj told
  | literal written => exact Option.some.inj told

/-- What a valuation makes of the parts of a triple that is shown. -/
theorem TemplateTriple.terms_of_instance? (fits : valuation.Fits solution)
    (told : shown.instance? solution = some made) :
    valuation.term shown.subject = made.subject.term ∧
      valuation.term shown.predicate = .iri made.predicate ∧
        valuation.term shown.object = made.object := by
  unfold instance? at told
  split at told
  · rename_i subject predicate object subjectShown predicateShown objectShown
    obtain ⟨node, found, rfl⟩ := Option.map_eq_some_iff.1 told
    refine ⟨?_, Valuation.term_of_shown fits predicateShown, Valuation.term_of_shown fits objectShown⟩
    rw [Rdf.Term.term_of_node? found]
    exact Valuation.term_of_shown fits subjectShown
  · cases told

theorem Term.binds_of_shown {name : Variable} {term : Term} {value : Rdf.Term}
    (told : term.shown solution = some value) (named : name ∈ term.names) : solution.Binds name := by
  cases term with
  | var other => exact List.mem_singleton.1 named ▸ ⟨value, told⟩
  | _ => cases named

theorem TemplateTriple.binds_of_instance? (told : shown.instance? solution = some made)
    {name : Variable} (named : name ∈ shown.names) : solution.Binds name := by
  unfold instance? at told
  split at told
  · rename_i subject predicate object subjectShown predicateShown objectShown
    rcases List.mem_append.1 named with ends | inObject
    · rcases List.mem_append.1 ends with inSubject | inPredicate
      · exact Term.binds_of_shown subjectShown inSubject
      · exact Term.binds_of_shown predicateShown inPredicate
    · exact Term.binds_of_shown objectShown inObject
  · cases told

/-- A pattern that is shown and met stands for a triple of the graph. -/
theorem TriplePattern.mem_of_met {graph : Rdf.Graph} {triple : TriplePattern}
    (met : triple.Met graph valuation) (same : triple.template? = some shown)
    (fits : valuation.Fits solution) (told : shown.instance? solution = some made) :
    made ∈ graph.triples := by
  obtain ⟨subject, predicate, object⟩ := TemplateTriple.terms_of_instance? fits told
  obtain ⟨verb, written, rfl⟩ := Option.map_eq_some_iff.1 same
  have located {found : Rdf.Triple} (member : found ∈ graph.triples)
      (starts : valuation.term triple.subject = found.subject.term)
      (leads : made.predicate = found.predicate)
      (ends : valuation.term triple.object = found.object) : made ∈ graph.triples := by
    have same : made = found := by
      obtain ⟨madeSubject, madePredicate, madeObject⟩ := made
      obtain ⟨foundSubject, foundPredicate, foundObject⟩ := found
      have subjects : madeSubject.term = foundSubject.term := subject.symm.trans starts
      have nodes : madeSubject = foundSubject := by
        have images := congrArg Rdf.Term.node? subjects
        rwa [Rdf.Node.node?_term, Rdf.Node.node?_term, Option.some_inj] at images
      cases nodes
      cases (show madePredicate = foundPredicate from leads)
      cases (show madeObject = foundObject from object.symm.trans ends)
      rfl
    exact same ▸ member
  unfold Met at met
  cases kind : triple.verb with
  | var name =>
    rw [kind] at met written
    cases written
    obtain ⟨found, member, starts, named, ends⟩ := met
    exact located member starts (Rdf.Term.iri.inj (predicate.symm.trans named)) ends
  | path route =>
    rw [kind] at met written
    obtain ⟨iri, direct, rfl⟩ := Option.map_eq_some_iff.1 written
    cases route with
    | predicate other =>
      cases direct
      obtain ⟨found, member, leads, starts, ends⟩ := Rdf.Graph.mem_edges.1 met
      exact located member starts.symm ((Rdf.Term.iri.inj predicate).symm.trans leads.symm) ends.symm
    | _ => cases direct

end

/-! ### Parts that may be left out -/

/-- Whether an element stands in a group, by itself or in a branch of a union. -/
inductive Group.Has : Group → Element → Prop
  | here {group : Group} {element : Element} (member : element ∈ group) : Group.Has group element
  | branch {group branch : Group} {branches : List Group} {element : Element}
    (member : .union branches ∈ group) (among : branch ∈ branches)
    (inside : Group.Has branch element) : Group.Has group element

theorem Group.Has.mono {group larger : Group} {element : Element} (stands : group.Has element)
    (within : group ⊆ larger) : larger.Has element := by
  cases stands with
  | here member => exact .here (within member)
  | branch member among inside => exact .branch (within member) among inside

/-- Whether an element may give a value to a variable when a part that need not match does not. -/
def Element.Gives (name : Variable) : Element → Prop
  | .triple pattern => name ∈ pattern.names
  | .values data => name ∈ data.columns
  | .bind _ target => target = name
  | .group pattern => .var name ∈ Group.unknowns pattern
  | .service _ _ pattern => .var name ∈ Group.unknowns pattern
  | .select query => .var name ∈ Atom.unknowns query.atoms
  | .optional _ => False
  | .union _ => False
  | .filter _ => False

/-- Whether a group may give a value to a variable outside of its optional patterns. -/
def Group.Gives (group : Group) (name : Variable) : Prop :=
  ∃ element, group.Has element ∧ element.Gives name

theorem Group.Gives.mono {group larger : Group} {name : Variable} (gives : group.Gives name)
    (within : group ⊆ larger) : larger.Gives name :=
  gives.imp fun _ => And.imp_left fun stands => stands.mono within

theorem Group.Gives.union {branch : Group} {branches : List Group} {name : Variable}
    (gives : branch.Gives name) (among : branch ∈ branches) :
    Group.Gives [.union branches] name :=
  gives.imp fun _ => And.imp_left (.branch List.mem_cons_self among)

/-- Whether a group may show a triple that it has not found, because the triple stands in a part
that need not match and names too little to tell whether it did: in a branch of a union, nothing but
known variables, and in an optional pattern, nothing but those and one that has its value from
elsewhere. -/
def Group.Exposes (known : List Variable) (group : Group) (shown : TemplateTriple) : Prop :=
  (∃ branches, group.Has (.union branches) ∧
    (∃ branch ∈ branches, shown ∈ groupTemplateTriples branch) ∧
      ∀ name ∈ shown.names, name ∈ known) ∨
  ∃ inner, group.Has (.optional inner) ∧ shown ∈ groupTemplateTriples inner ∧
    ((∀ name ∈ shown.names, name ∈ known) ∨
      ∃ value, group.Gives value ∧ ∀ name ∈ shown.names, name ∈ known ∨ name = value)

theorem Group.Exposes.mono {known : List Variable} {group larger : Group} {shown : TemplateTriple}
    (exposes : group.Exposes known shown) (within : group ⊆ larger) :
    larger.Exposes known shown :=
  exposes.imp (fun ⟨branches, stands, rest⟩ => ⟨branches, stands.mono within, rest⟩)
    fun ⟨inner, stands, shows, names⟩ => ⟨inner, stands.mono within, shows, names.imp_right
      fun ⟨value, gives, rest⟩ => ⟨value, gives.mono within, rest⟩⟩

theorem Group.Exposes.union {known : List Variable} {branch : Group} {branches : List Group}
    {shown : TemplateTriple} (exposes : branch.Exposes known shown) (among : branch ∈ branches) :
    Group.Exposes known [.union branches] shown :=
  exposes.imp
    (fun ⟨others, stands, rest⟩ => ⟨others, .branch List.mem_cons_self among stands, rest⟩)
    fun ⟨inner, stands, shows, names⟩ =>
      ⟨inner, .branch List.mem_cons_self among stands, shows, names.imp_right
        fun ⟨value, gives, rest⟩ => ⟨value, gives.union among, rest⟩⟩

/-! ### Vouching -/

mutual

/-- Whether only triples of some sort give a value to a variable in an element. -/
def Element.Vouches (sort : TriplePattern → Prop) (key : Variable) : Element → Prop
  | .triple triple => key ∈ triple.names → sort triple
  | .optional pattern => groupAsks False sort pattern ∨ groupVouches sort key pattern
  | .union branches => branchesVouch sort key branches
  | .group pattern => groupAsks False sort pattern ∨ groupVouches sort key pattern
  | .filter _ => True
  | .values data => key ∉ data.columns
  | .bind _ target => target ≠ key
  | .service _ _ pattern => .var key ∉ Group.unknowns pattern
  | .select query => .var key ∉ Atom.unknowns query.atoms

/-- Whether only triples of some sort give a value to a variable in some elements. -/
def groupVouches (sort : TriplePattern → Prop) (key : Variable) : List Element → Prop
  | [] => True
  | element :: rest => element.Vouches sort key ∧ groupVouches sort key rest

/-- Whether branches that give a value to a variable ask for a triple of some sort, or give it from
such triples only. -/
def branchesVouch (sort : TriplePattern → Prop) (key : Variable) : List (List Element) → Prop
  | [] => True
  | branch :: rest =>
    (groupAsks False sort branch ∨ groupVouches sort key branch) ∧ branchesVouch sort key rest

end

/-- Whether a group has a triple of some sort wherever a variable has a value. -/
def Group.Backs (sort : TriplePattern → Prop) (key : Variable) (group : Group) : Prop :=
  groupAsks False sort group ∨ groupVouches sort key group

section

variable {sort : TriplePattern → Prop} {key : Variable}

theorem groupVouches_iff {group : Group} :
    groupVouches sort key group ↔ ∀ element ∈ group, element.Vouches sort key := by
  induction group with
  | nil => simp [groupVouches]
  | cons element rest inductionHypothesis => simp [groupVouches, inductionHypothesis]

theorem branchesVouch_iff {branches : List Group} :
    branchesVouch sort key branches ↔ ∀ branch ∈ branches, branch.Backs sort key := by
  induction branches with
  | nil => simp [branchesVouch]
  | cons branch rest inductionHypothesis =>
    simp [branchesVouch, inductionHypothesis, Group.Backs]

mutual

/-- A variable that an element does not name has no value from it. -/
theorem Element.vouches_of_free (element : Element) (free : .var key ∉ element.unknowns) :
    element.Vouches sort key := by
  match element with
  | .triple triple => exact fun named => absurd (triple.mem_unknowns_of_names named) free
  | .optional pattern => exact .inr (groupVouches_of_free pattern free)
  | .union branches => exact branchesVouch_of_free branches free
  | .group pattern => exact .inr (groupVouches_of_free pattern free)
  | .filter _ => trivial
  | .values data =>
    exact fun member => free (mem_unknowns_of_target
      (List.mem_append_left _ (List.mem_map_of_mem member)))
  | .bind value target =>
    rintro rfl
    exact free (mem_unknowns_of_target (List.mem_append_right _ List.mem_cons_self))
  | .service _ _ _ => exact free
  | .select _ => exact free

theorem groupVouches_of_free (group : List Element) (free : .var key ∉ Group.unknowns group) :
    groupVouches sort key group := by
  match group with
  | [] => trivial
  | element :: rest =>
    rw [Group.unknowns_cons, List.mem_append, not_or] at free
    exact ⟨element.vouches_of_free free.1, groupVouches_of_free rest free.2⟩

theorem branchesVouch_of_free (branches : List (List Element))
    (free : .var key ∉ Atom.unknowns (branchAtoms branches)) : branchesVouch sort key branches := by
  match branches with
  | [] => trivial
  | branch :: rest =>
    rw [branchAtoms, Atom.unknowns_append, List.mem_append, not_or] at free
    exact ⟨.inr (groupVouches_of_free branch free.1), branchesVouch_of_free rest free.2⟩

end

theorem Group.Backs.append {first second : Group} (backs : first.Backs sort key)
    (vouches : groupVouches sort key second) : Group.Backs sort key (first ++ second) := by
  refine backs.imp (fun asks => groupAsks_append.2 (.inl asks)) fun firstVouches => ?_
  exact groupVouches_iff.2 (List.forall_mem_append.2
    ⟨groupVouches_iff.1 firstVouches, groupVouches_iff.1 vouches⟩)

theorem Group.Backs.append_left {first second : Group} (backs : first.Backs sort key)
    (free : .var key ∉ second.unknowns) : Group.Backs sort key (first ++ second) :=
  backs.append (groupVouches_of_free second free)

theorem Group.Backs.append_right {first second : Group} (backs : second.Backs sort key)
    (free : .var key ∉ first.unknowns) : Group.Backs sort key (first ++ second) := by
  refine backs.imp (fun asks => groupAsks_append.2 (.inr asks)) fun vouches => ?_
  exact groupVouches_iff.2 (List.forall_mem_append.2
    ⟨groupVouches_iff.1 (groupVouches_of_free first free), groupVouches_iff.1 vouches⟩)

theorem Group.Backs.optional {group : Group} (backs : group.Backs sort key) :
    Group.Backs sort key [.optional group] :=
  .inr ⟨backs, trivial⟩

theorem Group.Backs.union {branches : List Group}
    (backs : ∀ branch ∈ branches, branch.Backs sort key) :
    Group.Backs sort key [.union branches] :=
  .inr ⟨branchesVouch_iff.2 backs, trivial⟩

end

/-- Whether an element is no part that need not match. -/
def Element.Steady : Element → Prop
  | .optional _ => False
  | .union _ => False
  | _ => True

/-- A variable has its values from triples of some sort, or some other element may give it one. -/
theorem Group.vouches_or_gives {group : Group} (sort : TriplePattern → Prop) (key : Variable)
    (steady : ∀ element ∈ group, element.Steady) :
    groupVouches sort key group ∨ group.Gives key := by
  refine or_iff_not_imp_left.2 fun silent => ?_
  rw [groupVouches_iff] at silent
  push Not at silent
  obtain ⟨element, member, silent⟩ := silent
  refine ⟨element, .here member, ?_⟩
  cases element with
  | triple triple => exact (Classical.not_imp.1 silent).1
  | optional pattern => exact (steady _ member).elim
  | union branches => exact (steady _ member).elim
  | group pattern =>
    exact Classical.byContradiction fun free => silent (.inr (groupVouches_of_free pattern free))
  | filter condition => exact absurd trivial silent
  | values data => exact Classical.not_not.1 silent
  | bind value target => exact Classical.not_not.1 silent
  | service name silently pattern => exact Classical.not_not.1 silent
  | select query => exact Classical.not_not.1 silent

/-- A triple of an optional pattern with one variable that is not known: the variable backs it unless
the group exposes it. -/
theorem Group.backs_or_exposes {sort : TriplePattern → Prop} {known : List Variable}
    {inner rest : Group} {shown : TemplateTriple} {value : Variable}
    (asks : groupAsks False sort inner) (shows : shown ∈ groupTemplateTriples inner)
    (names : ∀ name ∈ shown.names, name ∈ known ∨ name = value)
    (steady : ∀ element ∈ rest, element.Steady) :
    (value ∈ shown.names ∧ Group.Backs sort value ([.optional inner] ++ rest)) ∨
      Group.Exposes known ([.optional inner] ++ rest) shown := by
  by_cases named : value ∈ shown.names
  · rcases Group.vouches_or_gives sort value steady with vouches | gives
    · exact .inl ⟨named, (Group.Backs.optional (.inl asks)).append vouches⟩
    · exact .inr (.inr ⟨inner, .here List.mem_cons_self, shows,
        .inr ⟨value, gives.mono (List.subset_append_right _ _), names⟩⟩)
  · refine .inr (.inr ⟨inner, .here List.mem_cons_self, shows, .inl fun name member => ?_⟩)
    exact (names name member).resolve_right fun same => named (same ▸ member)

/-- Whether a group has a triple of some sort in every solution, or wherever one of some variables
of a kind has a value. -/
def Group.Upholds (sort : TriplePattern → Prop) (names : List Variable) (owns : Variable → Prop)
    (group : Group) : Prop :=
  groupAsks False sort group ∨ ∃ key ∈ names, owns key ∧ group.Backs sort key

namespace Group.Upholds

variable {sort : TriplePattern → Prop} {names : List Variable} {owns more : Variable → Prop}
  {first second : Group}

theorem mono (upholds : Group.Upholds sort names owns first)
    (weaker : ∀ name, owns name → more name) : Group.Upholds sort names more first :=
  upholds.imp_right fun ⟨key, named, owned, backs⟩ => ⟨key, named, weaker key owned, backs⟩

theorem append_left (upholds : Group.Upholds sort names owns first)
    (named : Atom.NamedIn more (groupAtoms second)) (apart : ∀ name, owns name → ¬ more name) :
    Group.Upholds sort names owns (first ++ second) :=
  upholds.imp (fun asks => groupAsks_append.2 (.inl asks)) fun ⟨key, among, owned, backs⟩ =>
    ⟨key, among, owned, backs.append_left fun member => apart key owned (named key member)⟩

theorem append_right (upholds : Group.Upholds sort names owns second)
    (named : Atom.NamedIn more (groupAtoms first)) (apart : ∀ name, owns name → ¬ more name) :
    Group.Upholds sort names owns (first ++ second) :=
  upholds.imp (fun asks => groupAsks_append.2 (.inr asks)) fun ⟨key, among, owned, backs⟩ =>
    ⟨key, among, owned, backs.append_right fun member => apart key owned (named key member)⟩

end Group.Upholds

/-! ### Values -/

section

variable {engine : Engine} {graph : Rdf.Graph} {sort : TriplePattern → Prop} {key : Variable}

/-- Whether every valuation that fits a solution meets a triple of some sort. -/
def Solution.Meets (graph : Rdf.Graph) (sort : TriplePattern → Prop) (solution : Solution) : Prop :=
  ∀ valuation : Valuation, valuation.Fits solution →
    ∃ triple, sort triple ∧ triple.Met graph valuation

theorem Solution.Meets.extends {more fewer : Solution} (meets : fewer.Meets graph sort)
    (grows : more.Extends fewer) : more.Meets graph sort :=
  fun valuation fits => meets valuation fun unknown value known =>
    fits unknown value (grows unknown value known)

theorem inherent_meets (engine : Engine) (graph : Rdf.Graph) (sort : TriplePattern → Prop) :
    Inherent engine graph .empty False sort (Solution.Meets graph sort) where
  grows grown meets := meets.extends grown
  triples triple kind _ member _ fits := ⟨triple, kind, TriplePattern.met_of_fits member fits⟩
  services := nofun

theorem Solution.not_binds_of_within {solution : Solution} {unknowns : List Unknown}
    (within : solution.Within unknowns) (free : .var key ∉ unknowns) : ¬ solution.Binds key :=
  fun ⟨_, known⟩ => absurd ((within _ free).symm.trans known) nofun

/-- What is joined gives a value to what the current solution or the candidate does. -/
theorem Solution.binds_of_joined {current solution : Solution} {candidates : List Solution}
    (binds : solution.Binds key) (member : solution ∈ Solution.joined .empty current candidates) :
    current.Binds key ∨ ∃ candidate ∈ candidates, candidate.Binds key ∧
      solution.Extends candidate := by
  obtain ⟨-, candidate, among, grown, values⟩ := Solution.exists_of_mem_joined member
  obtain ⟨value, known⟩ := binds
  rw [values] at known
  rcases Option.or_eq_some_iff.1 known with before | ⟨-, found⟩
  · exact .inl ⟨value, before⟩
  · exact .inr ⟨candidate, among, ⟨value, found⟩, grown⟩

theorem Data.not_binds {data : Data} (free : key ∉ data.columns) :
    ∀ solution ∈ data.solutions, ¬ solution.Binds key := by
  intro solution member
  obtain ⟨row, -, assigned⟩ := List.mem_filterMap.1 member
  have within := assignRow_within (fun cell found => (List.of_mem_zip found).1)
    (Solution.within_empty _) assigned
  refine Solution.not_binds_of_within within fun listed => ?_
  obtain ⟨name, among, same⟩ := List.mem_map.1 listed
  exact free (Unknown.var.inj same ▸ among)

theorem Select.not_binds {query : Select} (free : .var key ∉ Atom.unknowns query.atoms) :
    ∀ solution ∈ query.solutions engine graph, ¬ solution.Binds key :=
  fun solution member =>
    Solution.not_binds_of_within (query.solutions_within engine graph solution member) free

/-- A variable of a triple that is met wherever it has a value. -/
theorem Solution.meets_of_joined {current solution : Solution} {candidates : List Solution}
    (meet : ∀ candidate ∈ candidates, candidate.Binds key → candidate.Meets graph sort)
    (binds : solution.Binds key) (member : solution ∈ Solution.joined .empty current candidates) :
    current.Binds key ∨ solution.Meets graph sort :=
  (Solution.binds_of_joined binds member).imp_right fun ⟨candidate, among, found, grown⟩ =>
    (meet candidate among found).extends grown

mutual

/-- A variable that an element vouches with had its value before, or a triple is met. -/
theorem Element.meets_of_vouches (element : Element) (vouches : element.Vouches sort key)
    {current solution : Solution} (binds : solution.Binds key)
    (member : solution ∈ element.extend engine graph .empty current) :
    current.Binds key ∨ solution.Meets graph sort := by
  match element with
  | .triple triple =>
    refine Solution.meets_of_joined (fun candidate found known => ?_) binds member
    have named : key ∈ triple.names := by
      by_contra absent
      have within := triple.solutions_within graph .empty candidate found
      have owned : Atom.NamedIn (· ∈ triple.names) triple.atoms :=
        Atom.namedIn_triple fun _ => id
      exact Solution.not_binds_of_within within (fun inside => absent (owned key inside)) known
    exact fun valuation fits => ⟨triple, vouches named, TriplePattern.met_of_fits found fits⟩
  | .optional pattern =>
    simp only [Element.extend] at member
    split at member
    · exact .inl (List.mem_singleton.1 member ▸ binds)
    · refine Solution.meets_of_joined (fun candidate found known => ?_) binds
        (List.mem_filter.1 member).1
      exact meets_of_backs pattern vouches known found
  | .union branches =>
    exact Solution.meets_of_joined (meets_of_branchesVouch branches vouches) binds member
  | .group pattern =>
    refine Solution.meets_of_joined (fun candidate found known => ?_) binds member
    exact meets_of_backs pattern vouches known (List.mem_filter.1 found).1
  | .filter _ => exact .inl (List.mem_singleton.1 member ▸ binds)
  | .values data =>
    exact Solution.meets_of_joined (fun candidate found known =>
      absurd known (Data.not_binds vouches candidate found)) binds member
  | .bind value target =>
    simp only [Element.extend] at member
    split at member
    · exact .inl (List.mem_singleton.1 member ▸ binds)
    · refine Solution.meets_of_joined (fun candidate found known => ?_) binds member
      obtain ⟨_, known⟩ := known
      rw [List.mem_singleton.1 found, Function.update_of_ne fun same =>
        vouches (Unknown.var.inj same).symm] at known
      cases known
  | .service name _ pattern =>
    exact Solution.meets_of_joined (fun candidate found known => absurd known
      (Solution.not_binds_of_within (engine.service_within name pattern candidate found) vouches))
      binds member
  | .select query =>
    exact Solution.meets_of_joined (fun candidate found known =>
      absurd known (Select.not_binds vouches candidate found)) binds member

theorem meets_of_groupVouches (group : List Element) (vouches : groupVouches sort key group)
    {current solution : Solution} (binds : solution.Binds key)
    (member : solution ∈ extendAll engine graph .empty current group) :
    current.Binds key ∨ solution.Meets graph sort := by
  match group with
  | [] => exact .inl (List.mem_singleton.1 member ▸ binds)
  | element :: rest =>
    obtain ⟨next, extended, further⟩ := List.mem_flatMap.1 member
    rcases meets_of_groupVouches rest vouches.2 binds further with before | meets
    · exact (element.meets_of_vouches vouches.1 before extended).imp_right fun meets =>
        meets.extends (extends_of_extendAll further)
    · exact .inr meets

theorem meets_of_backs (group : List Element)
    (backs : groupAsks False sort group ∨ groupVouches sort key group) {solution : Solution}
    (binds : solution.Binds key) (member : solution ∈ extendAll engine graph .empty .empty group) :
    solution.Meets graph sort := by
  rcases backs with asks | vouches
  · exact holds_of_groupAsks (inherent_meets engine graph sort) group asks member
  · exact (meets_of_groupVouches group vouches binds member).resolve_left
      (Solution.not_binds_empty key)

theorem meets_of_branchesVouch (branches : List (List Element))
    (vouches : branchesVouch sort key branches) :
    ∀ solution ∈ branchSolutions engine graph .empty branches, solution.Binds key →
      solution.Meets graph sort := by
  match branches with
  | [] => exact fun _ member => absurd member List.not_mem_nil
  | branch :: rest =>
    intro solution member binds
    rcases List.mem_append.1 member with first | later
    · exact meets_of_backs branch vouches.1 binds (List.mem_filter.1 first).1
    · exact meets_of_branchesVouch rest vouches.2 solution later binds

end

/-- A group that asks for triples of some sort meets one in every solution. -/
theorem Group.meets_of_asks {group : Group} (asks : groupAsks False sort group) :
    ∀ solution ∈ group.solutions engine graph, solution.Meets graph sort :=
  fun _ member => holds_of_groupAsks (inherent_meets engine graph sort) group asks
    (List.mem_filter.1 member).1

/-- A group that backs a variable with triples of some sort meets one wherever the variable has a
value. -/
theorem Group.Backs.meets {group : Group} (backs : group.Backs sort key) {solution : Solution}
    (member : solution ∈ group.solutions engine graph) (binds : solution.Binds key) :
    solution.Meets graph sort :=
  meets_of_backs group backs binds (List.mem_filter.1 member).1

/-- A group that upholds some variables meets a triple wherever all of them have a value. -/
theorem Group.Upholds.meets {names : List Variable} {owns : Variable → Prop} {group : Group}
    (upholds : group.Upholds sort names owns) {solution : Solution}
    (member : solution ∈ group.solutions engine graph)
    (binds : ∀ name ∈ names, solution.Binds name) : solution.Meets graph sort := by
  rcases upholds with asks | ⟨key, named, -, backs⟩
  · exact Group.meets_of_asks asks solution member
  · exact backs.meets member (binds key named)

end

end ShapeQuery.Sparql
