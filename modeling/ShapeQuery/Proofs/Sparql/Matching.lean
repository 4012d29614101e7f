/-
This file says when patterns without filters have solutions. The triples, tables and unions of such
a pattern are conditions on the values of its unknowns; it has a solution exactly if these
conditions are met by some valuation, which gives a value to every unknown.
-/
import ShapeQuery.Proofs.Sparql.Locality

namespace ShapeQuery.Sparql

/-- A value for every unknown. -/
abbrev Valuation := Unknown → Rdf.Term

namespace Valuation

/-- What a term stands for. -/
def term (valuation : Valuation) : Term → Rdf.Term
  | .var name => valuation (.var name)
  | .iri name => .iri name
  | .literal value => .literal value
  | .blank label => valuation (.blank label)

theorem term_congr {first second : Valuation} {term : Term}
    (same : ∀ unknown, term.unknown? = some unknown → first unknown = second unknown) :
    first.term term = second.term term := by
  cases term with
  | var name => exact same _ rfl
  | blank label => exact same _ rfl
  | iri name => rfl
  | literal value => rfl

/-- Whether a valuation gives unknowns the values that a solution gives them. -/
def Fits (valuation : Valuation) (solution : Solution) : Prop :=
  ∀ unknown value, solution unknown = some value → valuation unknown = value

variable {valuation : Valuation}

theorem fits_empty : valuation.Fits .empty := fun _ _ found => by cases found

theorem fits_merge {first second : Solution} (firstFits : valuation.Fits first)
    (secondFits : valuation.Fits second) : valuation.Fits (first.merge second) := by
  intro unknown value found
  rcases Option.or_eq_some_iff.1 found with inFirst | ⟨-, inSecond⟩
  · exact firstFits unknown value inFirst
  · exact secondFits unknown value inSecond

/-- What fits a join fits its parts. -/
theorem fits_of_merge {first second : Solution} (compatible : first.Compatible second)
    (fits : valuation.Fits (first.merge second)) :
    valuation.Fits first ∧ valuation.Fits second := by
  have firstFits : valuation.Fits first := fun unknown value found =>
    fits unknown value (Solution.merge_of_some found second)
  refine ⟨firstFits, fun unknown value found => ?_⟩
  cases known : first unknown with
  | none => exact fits unknown value ((Solution.merge_of_none known second).trans found)
  | some other =>
    rw [← compatible unknown other value known found]
    exact firstFits unknown other known

theorem compatible_of_fits {first second : Solution} (firstFits : valuation.Fits first)
    (secondFits : valuation.Fits second) : first.Compatible second :=
  fun unknown left right inFirst inSecond =>
    (firstFits unknown left inFirst).symm.trans (secondFits unknown right inSecond)

/-- A valuation that fits a solution. -/
def ofSolution (solution : Solution) : Valuation :=
  fun unknown => (solution unknown).getD default

theorem fits_ofSolution (solution : Solution) : (ofSolution solution).Fits solution := by
  intro unknown value found
  rw [ofSolution, found, Option.getD_some]

/-! ### Assigning -/

theorem exists_assign {solution : Solution} (fits : valuation.Fits solution)
    (unknown : Unknown) :
    ∃ extended, solution.assign unknown (valuation unknown) = some extended ∧
      valuation.Fits extended := by
  unfold Solution.assign
  cases known : solution unknown with
  | none =>
    refine ⟨_, rfl, fun other value found => ?_⟩
    by_cases same : other = unknown
    · subst same
      rw [Function.update_self] at found
      exact Option.some.inj found
    · rw [Function.update_of_ne same] at found
      exact fits other value found
  | some value => exact ⟨solution, if_pos (fits unknown value known).symm, fits⟩

theorem fits_of_assign {solution extended : Solution} {unknown : Unknown} {value : Rdf.Term}
    (assigned : solution.assign unknown value = some extended) (fits : valuation.Fits extended) :
    valuation unknown = value ∧ valuation.Fits solution := by
  unfold Solution.assign at assigned
  split at assigned
  · rename_i free
    cases assigned
    refine ⟨fits unknown value (Function.update_self ..), fun other known found => ?_⟩
    refine fits other known ?_
    rw [Function.update_of_ne, found]
    rintro rfl
    rw [free] at found
    cases found
  · rename_i known found
    rw [Option.ite_none_right_eq_some] at assigned
    obtain ⟨rfl, same⟩ := assigned
    cases same
    exact ⟨fits unknown known found, fits⟩

theorem exists_assign_term {solution : Solution} (fits : valuation.Fits solution) (term : Term) :
    ∃ extended, term.assign solution (valuation.term term) = some extended ∧
      valuation.Fits extended := by
  cases term with
  | var name => exact exists_assign fits (.var name)
  | blank label => exact exists_assign fits (.blank label)
  | iri name => exact ⟨solution, if_pos rfl, fits⟩
  | literal value => exact ⟨solution, if_pos rfl, fits⟩

theorem fits_of_assign_term {solution extended : Solution} {term : Term} {value : Rdf.Term}
    (assigned : term.assign solution value = some extended) (fits : valuation.Fits extended) :
    valuation.term term = value ∧ valuation.Fits solution := by
  cases term with
  | var name => exact fits_of_assign assigned fits
  | blank label => exact fits_of_assign assigned fits
  | iri name =>
    obtain ⟨rfl, same⟩ := Option.ite_none_right_eq_some.1 assigned
    cases same
    exact ⟨rfl, fits⟩
  | literal value =>
    obtain ⟨rfl, same⟩ := Option.ite_none_right_eq_some.1 assigned
    cases same
    exact ⟨rfl, fits⟩

end Valuation

open ShapeQuery.Sparql.Valuation (fits_empty fits_merge fits_of_merge compatible_of_fits)

/-! ### Conditions -/

/-- Whether a valuation meets a triple. -/
def TriplePattern.Met (graph : Rdf.Graph) (valuation : Valuation) (triple : TriplePattern) :
    Prop :=
  match triple.verb with
  | .var name => ∃ found ∈ graph.triples,
      valuation.term triple.subject = found.subject.term ∧
        valuation (.var name) = .iri found.predicate ∧
          valuation.term triple.object = found.object
  | .path path => (valuation.term triple.subject, valuation.term triple.object) ∈
      path.pairs graph (triple.subject.value .empty) (triple.object.value .empty)

/-- Whether a valuation meets a row of a table. -/
def RowMet (valuation : Valuation) (row : List (Variable × Option Term)) : Prop :=
  ∀ cell ∈ row, ∀ value, cell.2.bind (Term.value .empty) = some value →
    valuation (.var cell.1) = value

/-- Whether a valuation meets a table. -/
def Data.Met (valuation : Valuation) (data : Data) : Prop :=
  ∃ row ∈ data.rows, RowMet valuation (data.columns.zip row)

mutual

/-- Whether a valuation meets an element without filters. -/
def Element.Met (graph : Rdf.Graph) (valuation : Valuation) : Element → Prop
  | .triple triple => triple.Met graph valuation
  | .union branches => SomeMet graph valuation branches
  | .values data => data.Met valuation
  | _ => False

/-- Whether a valuation meets all of some elements. -/
def AllMet (graph : Rdf.Graph) (valuation : Valuation) : List Element → Prop
  | [] => True
  | element :: rest => element.Met graph valuation ∧ AllMet graph valuation rest

/-- Whether a valuation meets one of some groups. -/
def SomeMet (graph : Rdf.Graph) (valuation : Valuation) : List (List Element) → Prop
  | [] => False
  | branch :: rest => AllMet graph valuation branch ∨ SomeMet graph valuation rest

end

mutual

/-- Whether an element is made of triples, tables and unions alone. -/
def Element.Positive : Element → Prop
  | .triple _ => True
  | .union branches => BranchesPositive branches
  | .values _ => True
  | _ => False

/-- Whether all of some elements are made of triples, tables and unions alone. -/
def AllPositive : List Element → Prop
  | [] => True
  | element :: rest => element.Positive ∧ AllPositive rest

/-- Whether all of some groups are made of triples, tables and unions alone. -/
def BranchesPositive : List (List Element) → Prop
  | [] => True
  | branch :: rest => AllPositive branch ∧ BranchesPositive rest

end

theorem allMet_append {graph : Rdf.Graph} {valuation : Valuation} {first second : Group} :
    AllMet graph valuation (first ++ second) ↔
      AllMet graph valuation first ∧ AllMet graph valuation second := by
  induction first with
  | nil => rw [List.nil_append, AllMet, true_and]
  | cons element rest inductionHypothesis =>
    rw [List.cons_append, AllMet, inductionHypothesis, AllMet, and_assoc]

theorem someMet_iff {graph : Rdf.Graph} {valuation : Valuation} {branches : List Group} :
    SomeMet graph valuation branches ↔ ∃ branch ∈ branches, AllMet graph valuation branch := by
  induction branches with
  | nil => exact iff_of_false id nofun
  | cons branch rest inductionHypothesis =>
    rw [SomeMet, inductionHypothesis, List.exists_mem_cons_iff]

theorem allPositive_append {first second : Group} :
    AllPositive (first ++ second) ↔ AllPositive first ∧ AllPositive second := by
  induction first with
  | nil => rw [List.nil_append, AllPositive, true_and]
  | cons element rest inductionHypothesis =>
    rw [List.cons_append, AllPositive, inductionHypothesis, AllPositive, and_assoc]

theorem branchesPositive_iff {branches : List Group} :
    BranchesPositive branches ↔ ∀ branch ∈ branches, AllPositive branch := by
  induction branches with
  | nil => exact iff_of_true trivial nofun
  | cons branch rest inductionHypothesis =>
    rw [BranchesPositive, inductionHypothesis, List.forall_mem_cons]

/-- A table with one column is met by the values that it lists. -/
theorem met_column {graph : Rdf.Graph} {valuation : Valuation} {target : Variable}
    {values : List Term} :
    (Element.column target values).Met graph valuation ↔
      ∃ value ∈ values, ∀ term, value.value .empty = some term →
        valuation (.var target) = term := by
  show (Data.column target values).Met valuation ↔ _
  unfold Data.Met Data.column
  simp only [List.mem_map, exists_exists_and_eq_and]
  refine exists_congr fun value => and_congr_right fun _ => ?_
  unfold RowMet
  rw [List.zip_cons_cons, List.zip_nil_right, List.forall_mem_singleton]
  rfl

/-! ### Solutions of the parts -/

section Parts

variable {graph : Rdf.Graph} {valuation : Valuation}

/-- A met triple has a solution that the valuation fits. -/
theorem TriplePattern.exists_solution {triple : TriplePattern}
    (met : triple.Met graph valuation) :
    ∃ solution ∈ triple.solutions graph .empty, valuation.Fits solution := by
  obtain ⟨subject, verb, object⟩ := triple
  obtain ⟨first, subjectAssigned, firstFits⟩ :=
    Valuation.exists_assign_term valuation.fits_empty subject
  cases verb with
  | var name =>
    obtain ⟨found, member, subjectSame, predicateSame, objectSame⟩ := met
    obtain ⟨second, verbAssigned, secondFits⟩ := Valuation.exists_assign firstFits (.var name)
    obtain ⟨third, objectAssigned, thirdFits⟩ := Valuation.exists_assign_term secondFits object
    have subjectSame : valuation.term subject = found.subject.term := subjectSame
    have objectSame : valuation.term object = found.object := objectSame
    rw [subjectSame] at subjectAssigned
    rw [predicateSame] at verbAssigned
    rw [objectSame] at objectAssigned
    refine ⟨third, List.mem_filterMap.2 ⟨found, member, ?_⟩, thirdFits⟩
    simp only [Option.bind_eq_bind, Option.bind_eq_some_iff]
    exact ⟨first, subjectAssigned, second, verbAssigned, objectAssigned⟩
  | path path =>
    obtain ⟨second, objectAssigned, secondFits⟩ := Valuation.exists_assign_term firstFits object
    refine ⟨second, List.mem_filterMap.2 ⟨_, met, ?_⟩, secondFits⟩
    simp only [Option.bind_eq_bind, Option.bind_eq_some_iff]
    exact ⟨first, subjectAssigned, objectAssigned⟩

/-- A triple is met by what fits one of its solutions. -/
theorem TriplePattern.met_of_fits {triple : TriplePattern} {solution : Solution}
    (member : solution ∈ triple.solutions graph .empty) (fits : valuation.Fits solution) :
    triple.Met graph valuation := by
  obtain ⟨subject, verb, object⟩ := triple
  cases verb with
  | var name =>
    obtain ⟨found, located, chosen⟩ := List.mem_filterMap.1 member
    simp only [Option.bind_eq_bind, Option.bind_eq_some_iff] at chosen
    obtain ⟨first, subjectAssigned, second, verbAssigned, objectAssigned⟩ := chosen
    obtain ⟨objectSame, secondFits⟩ := Valuation.fits_of_assign_term objectAssigned fits
    obtain ⟨predicateSame, firstFits⟩ := Valuation.fits_of_assign verbAssigned secondFits
    obtain ⟨subjectSame, -⟩ := Valuation.fits_of_assign_term subjectAssigned firstFits
    exact ⟨found, located, subjectSame, predicateSame, objectSame⟩
  | path path =>
    obtain ⟨⟨start, finish⟩, located, chosen⟩ := List.mem_filterMap.1 member
    simp only [Option.bind_eq_bind, Option.bind_eq_some_iff] at chosen
    obtain ⟨first, subjectAssigned, objectAssigned⟩ := chosen
    obtain ⟨objectSame, firstFits⟩ := Valuation.fits_of_assign_term objectAssigned fits
    obtain ⟨subjectSame, -⟩ := Valuation.fits_of_assign_term subjectAssigned firstFits
    rw [← subjectSame, ← objectSame] at located
    exact located

theorem exists_assignRow {row : List (Variable × Option Term)} {solution : Solution}
    (fits : valuation.Fits solution) (met : RowMet valuation row) :
    ∃ extended, assignRow solution row = some extended ∧ valuation.Fits extended := by
  induction row generalizing solution with
  | nil => exact ⟨solution, rfl, fits⟩
  | cons entry rest inductionHypothesis =>
    obtain ⟨name, cell⟩ := entry
    unfold RowMet at met
    rw [List.forall_mem_cons] at met
    unfold assignRow
    cases found : cell.bind (Term.value .empty) with
    | none => exact inductionHypothesis fits met.2
    | some value =>
      obtain ⟨next, assigned, nextFits⟩ := Valuation.exists_assign fits (.var name)
      rw [met.1 value found] at assigned
      simp only [assigned, Option.bind_eq_bind, Option.bind_some]
      exact inductionHypothesis nextFits met.2

theorem rowMet_of_fits {row : List (Variable × Option Term)} {solution extended : Solution}
    (assigned : assignRow solution row = some extended) (fits : valuation.Fits extended) :
    RowMet valuation row ∧ valuation.Fits solution := by
  induction row generalizing solution with
  | nil =>
    cases assigned
    exact ⟨fun _ member => absurd member List.not_mem_nil, fits⟩
  | cons entry rest inductionHypothesis =>
    obtain ⟨name, cell⟩ := entry
    unfold RowMet
    rw [List.forall_mem_cons]
    unfold assignRow at assigned
    cases found : cell.bind (Term.value .empty) with
    | none =>
      simp only [found] at assigned
      obtain ⟨restMet, solutionFits⟩ := inductionHypothesis assigned
      exact ⟨⟨fun _ same => (by cases same), restMet⟩, solutionFits⟩
    | some value =>
      simp only [found, Option.bind_eq_bind, Option.bind_eq_some_iff] at assigned
      obtain ⟨next, one, others⟩ := assigned
      obtain ⟨restMet, nextFits⟩ := inductionHypothesis others
      obtain ⟨known, solutionFits⟩ := Valuation.fits_of_assign one nextFits
      exact ⟨⟨fun other same => known.trans (Option.some.inj same), restMet⟩, solutionFits⟩

theorem Data.exists_solution {data : Data} (met : data.Met valuation) :
    ∃ solution ∈ data.solutions, valuation.Fits solution := by
  obtain ⟨row, member, rowMet⟩ := met
  obtain ⟨solution, assigned, fits⟩ := exists_assignRow valuation.fits_empty rowMet
  exact ⟨solution, List.mem_filterMap.2 ⟨row, member, assigned⟩, fits⟩

theorem Data.met_of_fits {data : Data} {solution : Solution} (member : solution ∈ data.solutions)
    (fits : valuation.Fits solution) : data.Met valuation := by
  obtain ⟨row, located, assigned⟩ := List.mem_filterMap.1 member
  exact ⟨row, located, (rowMet_of_fits assigned fits).1⟩

end Parts

/-! ### Solutions of positive groups -/

section Groups

variable (engine : Engine) {graph : Rdf.Graph} {valuation : Valuation}

theorem passes_of_positive (view : Solution) {group : Group} (positive : AllPositive group) :
    passes engine graph view group = true := by
  induction group with
  | nil => rfl
  | cons element rest inductionHypothesis =>
    rw [passes, inductionHypothesis positive.2, Bool.and_true]
    cases element with
    | filter condition => exact positive.1.elim
    | _ => rfl

/-- What is fit by a valuation can be joined with what is fit, too. -/
theorem exists_joined {current candidate : Solution} {candidates : List Solution}
    (fits : valuation.Fits current) (member : candidate ∈ candidates)
    (candidateFits : valuation.Fits candidate) :
    ∃ solution ∈ Solution.joined .empty current candidates, valuation.Fits solution := by
  refine ⟨current.merge candidate, Solution.mem_joined.2 ⟨candidate, member, ?_, rfl⟩,
    fits_merge fits candidateFits⟩
  rw [Solution.merge_empty]
  exact compatible_of_fits fits candidateFits

theorem fits_of_mem_joined {current solution : Solution} {candidates : List Solution}
    (member : solution ∈ Solution.joined .empty current candidates)
    (fits : valuation.Fits solution) :
    valuation.Fits current ∧ ∃ candidate ∈ candidates, valuation.Fits candidate := by
  obtain ⟨candidate, found, compatible, rfl⟩ := Solution.mem_joined.1 member
  rw [Solution.merge_empty] at compatible
  obtain ⟨currentFits, candidateFits⟩ := fits_of_merge compatible fits
  exact ⟨currentFits, candidate, found, candidateFits⟩

mutual

theorem Element.exists_extension (element : Element) {current : Solution}
    (positive : element.Positive) (fits : valuation.Fits current)
    (met : element.Met graph valuation) :
    ∃ solution ∈ element.extend engine graph .empty current, valuation.Fits solution := by
  match element with
  | .triple triple =>
    obtain ⟨candidate, member, candidateFits⟩ := TriplePattern.exists_solution met
    exact exists_joined fits member candidateFits
  | .values data =>
    obtain ⟨candidate, member, candidateFits⟩ := Data.exists_solution met
    exact exists_joined fits member candidateFits
  | .union branches =>
    obtain ⟨candidate, member, candidateFits⟩ := exists_branchSolution branches positive met
    exact exists_joined fits member candidateFits

theorem exists_extendAll (group : Group) {current : Solution} (positive : AllPositive group)
    (fits : valuation.Fits current) (met : AllMet graph valuation group) :
    ∃ solution ∈ extendAll engine graph .empty current group, valuation.Fits solution := by
  match group with
  | [] => exact ⟨current, List.mem_singleton_self _, fits⟩
  | element :: rest =>
    obtain ⟨next, one, nextFits⟩ := Element.exists_extension element positive.1 fits met.1
    obtain ⟨solution, others, solutionFits⟩ :=
      exists_extendAll rest positive.2 nextFits met.2
    exact ⟨solution, List.mem_flatMap.2 ⟨next, one, others⟩, solutionFits⟩

theorem exists_branchSolution (branches : List Group) (positive : BranchesPositive branches)
    (met : SomeMet graph valuation branches) :
    ∃ solution ∈ branchSolutions engine graph .empty branches, valuation.Fits solution := by
  match branches with
  | [] => exact met.elim
  | branch :: rest =>
    rw [branchSolutions]
    rcases met with one | others
    · obtain ⟨solution, member, fits⟩ :=
        exists_extendAll branch positive.1 valuation.fits_empty one
      exact ⟨solution, List.mem_append_left _
        (List.mem_filter.2 ⟨member, passes_of_positive engine _ positive.1⟩), fits⟩
    · obtain ⟨solution, member, fits⟩ := exists_branchSolution rest positive.2 others
      exact ⟨solution, List.mem_append_right _ member, fits⟩

end

mutual

theorem Element.met_of_fits (element : Element) {current solution : Solution}
    (positive : element.Positive)
    (member : solution ∈ element.extend engine graph .empty current)
    (fits : valuation.Fits solution) :
    element.Met graph valuation ∧ valuation.Fits current := by
  match element with
  | .triple triple =>
    obtain ⟨currentFits, candidate, found, candidateFits⟩ := fits_of_mem_joined member fits
    exact ⟨TriplePattern.met_of_fits found candidateFits, currentFits⟩
  | .values data =>
    obtain ⟨currentFits, candidate, found, candidateFits⟩ := fits_of_mem_joined member fits
    exact ⟨Data.met_of_fits found candidateFits, currentFits⟩
  | .union branches =>
    obtain ⟨currentFits, candidate, found, candidateFits⟩ := fits_of_mem_joined member fits
    exact ⟨someMet_of_fits branches positive found candidateFits, currentFits⟩

theorem allMet_of_fits (group : Group) {current solution : Solution}
    (positive : AllPositive group)
    (member : solution ∈ extendAll engine graph .empty current group)
    (fits : valuation.Fits solution) :
    AllMet graph valuation group ∧ valuation.Fits current := by
  match group with
  | [] =>
    rw [extendAll, List.mem_singleton] at member
    exact ⟨trivial, member ▸ fits⟩
  | element :: rest =>
    obtain ⟨next, one, others⟩ := List.mem_flatMap.1 member
    obtain ⟨restMet, nextFits⟩ := allMet_of_fits rest positive.2 others fits
    obtain ⟨met, currentFits⟩ := Element.met_of_fits element positive.1 one nextFits
    exact ⟨⟨met, restMet⟩, currentFits⟩

theorem someMet_of_fits (branches : List Group) {solution : Solution}
    (positive : BranchesPositive branches)
    (member : solution ∈ branchSolutions engine graph .empty branches)
    (fits : valuation.Fits solution) : SomeMet graph valuation branches := by
  match branches with
  | [] => cases member
  | branch :: rest =>
    rw [branchSolutions] at member
    rcases List.mem_append.1 member with one | others
    · exact .inl (allMet_of_fits branch positive.1 (List.mem_filter.1 one).1 fits).1
    · exact .inr (someMet_of_fits rest positive.2 others fits)

end

/-- A met group has a solution that the valuation fits. -/
theorem Group.exists_solution {group : Group} (positive : AllPositive group)
    (met : AllMet graph valuation group) :
    ∃ solution ∈ group.solutions engine graph, valuation.Fits solution := by
  obtain ⟨solution, member, fits⟩ :=
    exists_extendAll engine group positive valuation.fits_empty met
  exact ⟨solution, List.mem_filter.2 ⟨member, passes_of_positive engine _ positive⟩, fits⟩

/-- A group without filters has a solution exactly if some valuation meets it. -/
theorem Group.solvable_iff_met {group : Group} (positive : AllPositive group) :
    group.Solvable engine graph ↔ ∃ valuation, AllMet graph valuation group := by
  constructor
  · rintro ⟨solution, member⟩
    exact ⟨.ofSolution solution, (allMet_of_fits engine group positive (List.mem_filter.1 member).1
      (Valuation.fits_ofSolution solution)).1⟩
  · rintro ⟨valuation, met⟩
    obtain ⟨solution, member, -⟩ := Group.exists_solution engine positive met
    exact ⟨solution, member⟩

end Groups

/-! ### Elements that keep solutions -/

section Additions

variable (engine : Engine) (graph : Rdf.Graph)

/-- An optional pattern takes no solution away. -/
theorem Group.solvable_optional (pattern : Group) :
    Group.Solvable engine graph [.optional pattern] := by
  have nonempty : Element.extend engine graph .empty .empty (.optional pattern) ≠ [] := by
    rw [Element.extend]
    split
    · exact List.cons_ne_nil _ _
    · rename_i found
      exact fun none => found (by rw [none]; rfl)
  obtain ⟨solution, member⟩ := List.exists_mem_of_ne_nil _ nonempty
  exact ⟨solution, List.mem_filter.2
    ⟨List.mem_flatMap.2 ⟨solution, member, List.mem_singleton_self _⟩, rfl⟩⟩

/-- Binding a variable that a solution gives no value adds the value of the expression to it. -/
theorem Element.extend_bind_value {current : Solution} {expression : Expression}
    {target : Variable} {value : Rdf.Term} (free : current (.var target) = none)
    (known : expression.value engine graph [] current = some value) :
    Element.extend engine graph .empty current (.bind expression target) =
      [current.merge (Function.update Solution.empty (.var target) (some value))] := by
  have compatible : (current.merge .empty).Compatible
      (Function.update Solution.empty (.var target) (some value)) := by
    intro unknown left right found added
    rw [Solution.merge_empty] at found
    by_cases same : unknown = .var target
    · rw [same, free] at found
      cases found
    · rw [Function.update_of_ne same] at added
      cases added
  have kept : ∀ candidate ∈ [Function.update Solution.empty (.var target) (some value)],
      decide ((current.merge .empty).Compatible candidate) = true :=
    List.forall_mem_singleton.2 (decide_eq_true compatible)
  rw [Element.extend, Solution.merge_empty, known]
  show Solution.joined .empty current _ = _
  rw [Solution.joined, List.filter_eq_self.2 kept]
  rfl

/-- Binding a variable that a solution gives no value adds at most that value to it. -/
theorem Element.extend_bind {current : Solution} {expression : Expression} {target : Variable}
    (free : current (.var target) = none) :
    ∃ solution, Element.extend engine graph .empty current (.bind expression target) = [solution] ∧
      ∀ unknown, unknown ≠ .var target → solution unknown = current unknown := by
  cases known : expression.value engine graph [] current with
  | none =>
    refine ⟨current, ?_, fun _ _ => rfl⟩
    rw [Element.extend, Solution.merge_empty, known]
  | some value =>
    refine ⟨_, Element.extend_bind_value engine graph free known, fun unknown other => ?_⟩
    rw [Solution.merge, Function.update_of_ne other]
    exact Option.or_none

/-- Binding a variable that a group does not name takes no solution of the group away. -/
theorem Group.mem_solutions_append_bind {group : Group} {expression : Expression}
    {target : Variable} (fresh : .var target ∉ group.unknowns) {solution : Solution} :
    solution ∈ Group.solutions engine graph (group ++ [.bind expression target]) ↔
      ∃ current ∈ group.solutions engine graph,
        solution ∈ Element.extend engine graph .empty current (.bind expression target) := by
  have within := extendAll_within engine graph group .empty .empty
    (Solution.within_empty group.unknowns) (List.Subset.refl _)
  -- The filters of the group do not see the new value.
  have kept {current : Solution} (member : current ∈ extendAll engine graph .empty .empty group)
      (extended : solution ∈
        Element.extend engine graph .empty current (.bind expression target)) :
      passes engine graph solution (group ++ [.bind expression target]) =
        passes engine graph current group := by
    obtain ⟨only, found, same⟩ := Element.extend_bind engine graph (within current member _ fresh)
    rw [found, List.mem_singleton] at extended
    rw [passes_append, show passes engine graph solution [.bind expression target] = true from rfl,
      Bool.and_true, extended]
    exact passes_congr engine graph group fun unknown member =>
      same unknown fun equal => fresh (equal ▸ member)
  simp only [solutions, accepted, List.mem_filter, extendAll_append, List.mem_flatMap,
    extendAll, List.mem_singleton, exists_eq_right', Solution.merge_empty]
  constructor
  · rintro ⟨⟨current, member, extended⟩, holds⟩
    exact ⟨current, ⟨member, (kept member extended).symm.trans holds⟩, extended⟩
  · rintro ⟨current, ⟨member, holds⟩, extended⟩
    exact ⟨⟨current, member, extended⟩, (kept member extended).trans holds⟩

/-- Binding a variable that a group does not name neither adds a solution nor takes one away. -/
theorem Group.solvable_append_bind {group : Group} {expression : Expression} {target : Variable}
    (fresh : .var target ∉ group.unknowns) :
    Group.Solvable engine graph (group ++ [.bind expression target]) ↔
      group.Solvable engine graph := by
  simp only [Solvable, Group.mem_solutions_append_bind engine graph fresh]
  constructor
  · rintro ⟨_, current, member, -⟩
    exact ⟨current, member⟩
  · rintro ⟨current, member⟩
    obtain ⟨only, found, -⟩ := Element.extend_bind engine graph
      (accepted_within engine graph .empty group current member _ fresh)
    exact ⟨only, current, member, found ▸ List.mem_singleton_self _⟩

/-- A filter keeps the solutions for which its condition is true. -/
theorem Group.solvable_append_filter {group : Group} {condition : Expression} :
    Group.Solvable engine graph (group ++ [.filter condition]) ↔
      ∃ solution ∈ group.solutions engine graph,
        engine.truth? (condition.value engine graph [] solution) = some true := by
  simp only [Solvable, solutions, accepted, List.mem_filter, extendAll_append, List.mem_flatMap,
    extendAll, Element.extend, List.mem_singleton, List.flatMap_cons, List.flatMap_nil,
    List.append_nil, exists_eq_right', Solution.merge_empty, passes_append, passes,
    Element.holds, Bool.and_true, Bool.and_eq_true, decide_eq_true_eq, and_assoc]

/-- Whether an IRI is one of some IRIs is never an error. -/
theorem Engine.isOneOf_iris (name : Iri) (names : List Iri) :
    engine.isOneOf (some (.iri name)) (names.map fun other => some (.iri other)) =
      some (decide (name ∈ names)) := by
  unfold Engine.isOneOf
  induction names with
  | nil => rfl
  | cons first rest inductionHypothesis =>
    rw [List.map_cons, List.map_cons, List.foldr_cons, inductionHypothesis]
    simp only [Option.bind_eq_bind, Option.bind_some, engine.compare_iri, List.mem_cons,
      Bool.decide_or]
    cases decide (name = first) <;> cases decide (name ∈ rest) <;> rfl

theorem listValues_iris (rows : List Solution) (view : Solution) (names : List Iri) :
    listValues engine graph rows view (names.map .iri) =
      names.map fun name => some (.iri name) := by
  induction names with
  | nil => rfl
  | cons first rest inductionHypothesis =>
    rw [List.map_cons, listValues, inductionHypothesis, List.map_cons]
    rfl

/-- A filter that excludes IRIs is true for any other IRI. -/
theorem truth_noneOf {view : Solution} {target : Variable} {name : Iri} (names : List Iri)
    (known : view (.var target) = some (.iri name)) :
    engine.truth? (Expression.value engine graph [] view
      (.noneOf (.var target) (names.map .iri))) = some true ↔ name ∉ names := by
  have value : Expression.value engine graph [] view (.var target) = some (.iri name) := by
    rw [Expression.value, known]
  rw [Expression.value, value, listValues_iris, Engine.isOneOf_iris, Option.map_some,
    Engine.truth?, Option.bind_some, engine.truth_ofBool, Option.some_inj]
  simp

end Additions

end ShapeQuery.Sparql
