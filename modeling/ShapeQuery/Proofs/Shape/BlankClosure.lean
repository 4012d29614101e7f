/-
This file tells what a chain of blank nodes constructs. Every level of the chain is optional, so a
solution follows a trail through the graph: triples one after another over blank nodes, until none
follows or the levels are used up. What is shown of a solution are the triples of its trail, and
each triple that few enough steps over blank nodes lead to lies on a trail.
-/
import ShapeQuery.Proofs.Shape.Naming
import ShapeQuery.Proofs.Sparql.Selecting
import ShapeQuery.Proofs.Sparql.Vouching
import ShapeQuery.Shape.BlankChain

namespace ShapeQuery

/-! ### Trails -/

namespace Rdf.Graph

/-- Whether a number of steps, each of them to a blank node, leads from one node to another one. -/
inductive BlankWalk (graph : Graph) : Nat → Node → Node → Prop
  | stay (node : Node) : graph.BlankWalk 0 node node
  | step {start last : Node} {predicate : Iri} {label : String} {count : Nat} :
    ⟨start, predicate, .blank label⟩ ∈ graph.triples →
      graph.BlankWalk count (.blank label) last → graph.BlankWalk (count + 1) start last

/-- Whether triples follow each other from a node on, over blank nodes. At most `room` of them
follow the first one, and fewer only where the graph has none that follows. -/
inductive BlankTrail (graph : Graph) : Nat → Node → List Triple → Prop
  | last {room : Nat} {triple : Triple} :
    triple ∈ graph.triples →
      (room = 0 ∨ ∀ label, triple.object = .blank label → ¬ graph.hasSubject (.blank label)) →
        graph.BlankTrail room triple.subject [triple]
  | step {room : Nat} {triple : Triple} {label : String} {rest : List Triple} :
    triple ∈ graph.triples → triple.object = .blank label →
      graph.BlankTrail room (.blank label) rest →
        graph.BlankTrail (room + 1) triple.subject (triple :: rest)

variable {graph : Graph}

theorem hasSubject_iff {subject : Node} :
    graph.hasSubject subject ↔ ∃ triple ∈ graph.triples, triple.subject = subject := by
  simp [hasSubject]

theorem BlankTrail.exists_head {room : Nat} {start : Node} {trail : List Triple}
    (along : graph.BlankTrail room start trail) :
    ∃ triple ∈ graph.triples, triple.subject = start ∧ ∃ rest, trail = triple :: rest := by
  cases along with
  | last member => exact ⟨_, member, rfl, _, rfl⟩
  | step member => exact ⟨_, member, rfl, _, rfl⟩

/-- A trail leads on from every triple. -/
theorem exists_blankTrail {triple : Triple} (member : triple ∈ graph.triples) (room : Nat) :
    ∃ rest, graph.BlankTrail room triple.subject (triple :: rest) := by
  induction room generalizing triple with
  | zero => exact ⟨[], .last member (.inl rfl)⟩
  | succ room inductionHypothesis =>
    by_cases further : ∃ label, triple.object = .blank label ∧ graph.hasSubject (.blank label)
    · obtain ⟨label, leads, more⟩ := further
      obtain ⟨next, among, same⟩ := hasSubject_iff.1 more
      obtain ⟨rest, along⟩ := inductionHypothesis among
      exact ⟨next :: rest, .step member leads (same ▸ along)⟩
    · exact ⟨[], .last member (.inr fun label leads more => further ⟨label, leads, more⟩)⟩

theorem exists_blankTrail_iff {room : Nat} {start : Node} :
    (∃ trail, graph.BlankTrail room start trail) ↔ graph.hasSubject start := by
  rw [hasSubject_iff]
  constructor
  · rintro ⟨trail, along⟩
    obtain ⟨triple, member, same, -⟩ := along.exists_head
    exact ⟨triple, member, same⟩
  · rintro ⟨triple, member, rfl⟩
    obtain ⟨rest, along⟩ := exists_blankTrail member room
    exact ⟨_, along⟩

/-- The triples on the trails from a node are those of the nodes that few enough steps lead to. -/
theorem mem_blankTrail_iff {room : Nat} {start : Node} {made : Triple} :
    (∃ trail, graph.BlankTrail room start trail ∧ made ∈ trail) ↔
      made ∈ graph.triples ∧ ∃ count ≤ room, graph.BlankWalk count start made.subject := by
  constructor
  · rintro ⟨trail, along, within⟩
    induction along with
    | last member =>
      cases List.mem_singleton.1 within
      exact ⟨member, 0, Nat.zero_le _, .stay _⟩
    | @step _ triple label _ member leads _ inductionHypothesis =>
      have edge : ⟨triple.subject, triple.predicate, .blank label⟩ ∈ graph.triples :=
        leads ▸ member
      rcases List.mem_cons.1 within with rfl | later
      · exact ⟨member, 0, Nat.zero_le _, .stay _⟩
      · obtain ⟨among, count, bound, walk⟩ := inductionHypothesis later
        exact ⟨among, count + 1, Nat.succ_le_succ bound, .step edge walk⟩
  · rintro ⟨among, count, bound, walk⟩
    generalize last : made.subject = finish at walk
    induction walk generalizing room with
    | stay node =>
      obtain ⟨rest, along⟩ := exists_blankTrail among room
      exact ⟨_, last ▸ along, List.mem_cons_self⟩
    | step member _ inductionHypothesis =>
      obtain ⟨room, rfl⟩ := Nat.exists_eq_add_of_lt bound
      obtain ⟨trail, along, within⟩ := inductionHypothesis (Nat.le_add_right _ room) last
      exact ⟨_, .step member rfl along, List.mem_cons_of_mem _ within⟩

end Rdf.Graph

namespace Sparql

/-! ### Optional patterns -/

/-- The solutions of an optional pattern that can be joined to the current one. -/
noncomputable def offered (engine : Engine) (graph : Rdf.Graph) (current : Solution)
    (pattern : Group) : List Solution :=
  (Solution.joined .empty current (extendAll engine graph .empty .empty pattern)).filter
    fun solution => passes engine graph solution pattern

/-- An optional pattern leaves the current solution as it is only if it offers none. -/
theorem Element.mem_extend_optional {engine : Engine} {graph : Rdf.Graph}
    {current solution : Solution} {pattern : Group} :
    solution ∈ (Element.optional pattern).extend engine graph .empty current ↔
      solution ∈ offered engine graph current pattern ∨
        (∀ other, other ∉ offered engine graph current pattern) ∧ solution = current := by
  have extended : (Element.optional pattern).extend engine graph .empty current =
      if (offered engine graph current pattern).isEmpty then [current]
      else offered engine graph current pattern := by
    rw [Element.extend, offered]
    simp only [Solution.merge_empty]
  rw [extended]
  cases offered engine graph current pattern with
  | nil => simp
  | cons first rest =>
    rw [if_neg (by simp)]
    exact (or_iff_left fun none => none.1 first List.mem_cons_self).symm

end Sparql

/-- Whether a triple is constructed from a solution of a fragment. -/
def Fragment.Constructs (engine : Sparql.Engine) (graph : Rdf.Graph) (fragment : Fragment)
    (made : Rdf.Triple) : Prop :=
  ∃ solution ∈ fragment.pattern.solutions engine graph,
    ∃ shown ∈ fragment.template, shown.instance? solution = some made

namespace Shape

open Sparql (Solution Term Engine Group Element TriplePattern TemplateTriple Unknown extendAll
  passes offered)

/-! ### The values of steps -/

/-- Whether an unknown belongs to the steps beyond a depth. -/
def Beyond (depth : Nat) (unknown : Unknown) : Prop :=
  ∃ later, depth < later ∧
    (unknown = .var (blankPredicate later) ∨ unknown = .var (blankObject later))

namespace Beyond

variable {depth earlier : Nat} {unknown : Unknown}

theorem predicate (depth : Nat) : Beyond depth (.var (blankPredicate (depth + 1))) :=
  ⟨depth + 1, Nat.lt_succ_self depth, .inl rfl⟩

theorem object (depth : Nat) : Beyond depth (.var (blankObject (depth + 1))) :=
  ⟨depth + 1, Nat.lt_succ_self depth, .inr rfl⟩

theorem of_succ (beyond : Beyond (depth + 1) unknown) : Beyond depth unknown :=
  beyond.imp fun _ => And.imp_left Nat.lt_of_succ_lt

theorem ne_predicate (beyond : Beyond depth unknown) (bound : earlier ≤ depth) :
    unknown ≠ .var (blankPredicate earlier) := by
  obtain ⟨later, after, rfl | rfl⟩ := beyond
  · simp only [ne_eq, Unknown.var.injEq, blankPredicate_injective.eq_iff]
    omega
  · simpa using (blankPredicate_ne_blankObject earlier later).symm

theorem ne_object (beyond : Beyond depth unknown) (bound : earlier ≤ depth) :
    unknown ≠ .var (blankObject earlier) := by
  obtain ⟨later, after, rfl | rfl⟩ := beyond
  · simpa using blankPredicate_ne_blankObject later earlier
  · simp only [ne_eq, Unknown.var.injEq, blankObject_injective.eq_iff]
    omega

end Beyond

/-- Whether a solution gives no values to the steps beyond a depth. -/
def EndsAt (depth : Nat) (solution : Solution) : Prop :=
  ∀ unknown, Beyond depth unknown → solution unknown = none

/-- What a step gives values to: its node, the predicate and the further node. -/
def stepSolution (depth : Nat) (triple : Rdf.Triple) : Solution :=
  Function.update (Solution.pair (blankObject depth) (blankPredicate (depth + 1))
    triple.subject.term (.iri triple.predicate))
    (.var (blankObject (depth + 1))) (some triple.object)

/-- What the first step gives values to. -/
def startSolution (triple : Rdf.Triple) : Solution :=
  Solution.pair (blankPredicate 1) (blankObject 1) (.iri triple.predicate) triple.object

/-- What the steps along a trail give values to. -/
def trailSolution : Nat → List Rdf.Triple → Solution
  | _, [] => .empty
  | depth, triple :: rest => (stepSolution depth triple).merge (trailSolution (depth + 1) rest)

section

variable {depth : Nat} {solution current : Solution} {triple : Rdf.Triple}
  {rest : List Rdf.Triple}

theorem stepSolution_subject :
    stepSolution depth triple (.var (blankObject depth)) = some triple.subject.term := by
  have notFurther := ((Beyond.object depth).ne_object (Nat.le_refl depth)).symm
  rw [stepSolution, Function.update_of_ne notFurther,
    Solution.pair_first (blankPredicate_ne_blankObject _ _)]

theorem stepSolution_predicate :
    stepSolution depth triple (.var (blankPredicate (depth + 1))) =
      some (.iri triple.predicate) := by
  rw [stepSolution, Function.update_of_ne (by simp [blankPredicate_ne_blankObject]),
    Solution.pair_last]

theorem stepSolution_object :
    stepSolution depth triple (.var (blankObject (depth + 1))) = some triple.object :=
  Function.update_self ..

theorem startSolution_predicate :
    startSolution triple (.var (blankPredicate 1)) = some (.iri triple.predicate) :=
  Solution.pair_first (blankPredicate_ne_blankObject 1 1).symm

theorem startSolution_object :
    startSolution triple (.var (blankObject 1)) = some triple.object :=
  Solution.pair_last

theorem endsAt_stepSolution : EndsAt (depth + 1) (stepSolution depth triple) := by
  intro unknown beyond
  rw [stepSolution, Function.update_of_ne (beyond.ne_object (Nat.le_refl _)),
    Solution.pair_other (beyond.ne_object (Nat.le_succ depth))
      (beyond.ne_predicate (Nat.le_refl _))]

theorem endsAt_startSolution : EndsAt 1 (startSolution triple) :=
  fun _ beyond => Solution.pair_other (beyond.ne_predicate (Nat.le_refl 1))
    (beyond.ne_object (Nat.le_refl 1))

theorem endsAt_empty (depth : Nat) : EndsAt depth .empty :=
  fun _ _ => rfl

theorem EndsAt.merge (ends : EndsAt depth current) (other : EndsAt depth solution) :
    EndsAt depth (current.merge solution) := fun unknown beyond =>
  (Solution.merge_of_none (ends unknown beyond) solution).trans (other unknown beyond)

theorem EndsAt.succ (ends : EndsAt depth solution) : EndsAt (depth + 1) solution :=
  fun unknown beyond => ends unknown beyond.of_succ

theorem trailSolution_single (depth : Nat) (triple : Rdf.Triple) :
    trailSolution depth [triple] = stepSolution depth triple :=
  Solution.merge_empty _

theorem trailSolution_subject :
    trailSolution depth (triple :: rest) (.var (blankObject depth)) = some triple.subject.term :=
  Solution.merge_of_some stepSolution_subject _

/-- A trail gives values to its first node and to the steps from there on. -/
theorem trailSolution_eq_none {unknown : Unknown} (trail : List Rdf.Triple)
    (notFirst : unknown ≠ .var (blankObject depth)) (notBeyond : ¬ Beyond depth unknown) :
    trailSolution depth trail unknown = none := by
  induction trail generalizing depth with
  | nil => rfl
  | cons triple rest inductionHypothesis =>
    have notPredicate : unknown ≠ .var (blankPredicate (depth + 1)) := fun same =>
      notBeyond (same ▸ .predicate depth)
    have notObject : unknown ≠ .var (blankObject (depth + 1)) := fun same =>
      notBeyond (same ▸ .object depth)
    rw [trailSolution, Solution.merge_of_none]
    · exact inductionHypothesis notObject fun beyond => notBeyond beyond.of_succ
    · rw [stepSolution, Function.update_of_ne notObject,
        Solution.pair_other notFirst notPredicate]

/-- A trail can be joined to what ends before it if they agree on its first node. -/
theorem compatible_trailSolution (ends : EndsAt depth current) :
    current.Compatible (trailSolution depth (triple :: rest)) ↔
      ∀ value, current (.var (blankObject depth)) = some value → value = triple.subject.term := by
  constructor
  · exact fun compatible value known => compatible _ _ _ known trailSolution_subject
  · intro agrees unknown left right known given
    by_cases first : unknown = .var (blankObject depth)
    · rw [first] at known given
      rw [agrees left known]
      exact Option.some.inj (trailSolution_subject.symm.trans given)
    · by_cases beyond : Beyond depth unknown
      · exact absurd ((ends unknown beyond).symm.trans known) nofun
      · exact absurd ((trailSolution_eq_none _ first beyond).symm.trans given) nofun

end

/-! ### The solutions of steps -/

section

variable {graph : Rdf.Graph} {depth : Nat} {solution : Solution}

theorem mem_solutions_blankStep :
    solution ∈ (blankStep (.var (blankObject depth)) (depth + 1)).solutions graph .empty ↔
      ∃ triple ∈ graph.triples, solution = stepSolution depth triple := by
  have notSubject := blankPredicate_ne_blankObject (depth + 1) depth
  have notPredicate := (blankPredicate_ne_blankObject (depth + 1) (depth + 1)).symm
  have notFirst := (Beyond.object depth).ne_object (Nat.le_refl depth)
  simp only [TriplePattern.solutions, blankStep, List.mem_filterMap, Term.assign,
    Option.bind_eq_bind]
  refine exists_congr fun triple => and_congr_right fun _ => ?_
  rw [Solution.assign_of_none rfl, Option.bind_some, Solution.assign_of_none, Option.bind_some,
    Solution.assign_of_none, Option.some_inj]
  · exact eq_comm
  · exact Solution.pair_other notFirst (by simpa using notPredicate)
  · rw [Function.update_of_ne (by simpa using notSubject)]
    rfl

theorem mem_solutions_start {focus : Iri} :
    solution ∈ (blankStep (.iri focus) 1).solutions graph .empty ↔
      ∃ triple ∈ graph.triples, triple.subject = .iri focus ∧
        solution = startSolution triple := by
  have notPredicate := (blankPredicate_ne_blankObject 1 1).symm
  simp only [TriplePattern.solutions, blankStep, List.mem_filterMap, Term.assign,
    Option.bind_eq_bind]
  refine exists_congr fun triple => and_congr_right fun _ => ?_
  have isFocus : triple.subject.term = .iri focus ↔ triple.subject = .iri focus := by
    cases triple.subject <;> simp [Rdf.Node.term]
  by_cases same : triple.subject = .iri focus
  · rw [if_pos (isFocus.2 same), Option.bind_some, Solution.assign_of_none rfl, Option.bind_some,
      Solution.assign_of_none, Option.some_inj, and_iff_right same]
    · exact eq_comm
    · rw [Function.update_of_ne (by simpa using notPredicate)]
      rfl
  · rw [if_neg (isFocus.not.2 same), Option.bind_none]
    exact iff_of_false (Option.some_ne_none solution).symm fun both => same both.1

end

/-! ### The solutions of levels -/

/-- The steps from a depth on, as they stand in their optional pattern. -/
def levels (depth room : Nat) : Group :=
  .triple (blankStep (.var (blankObject depth)) (depth + 1)) ::
    .filter (.call .isBlank [.var (blankObject depth)]) ::
      (blankLevels [] (depth + 1) room).pattern

section

variable {engine : Engine} {graph : Rdf.Graph} {depth room : Nat} {solution current : Solution}

theorem pattern_blankLevels (depth room : Nat) :
    (blankLevels [] depth (room + 1)).pattern = [.optional (levels depth room)] := rfl

theorem passes_further (view : Solution) (depth room : Nat) :
    passes engine graph view (blankLevels [] depth room).pattern = true := by
  cases room <;> rfl

/-- The filter of a level is about its node. -/
theorem passes_levels {view : Solution} :
    passes engine graph view (levels depth room) ↔
      ∃ label, view (.var (blankObject depth)) = some (.blank label) := by
  have unfiltered : Element.holds engine graph view
      (.triple (blankStep (.var (blankObject depth)) (depth + 1))) = true := rfl
  have value : Sparql.Expression.value engine graph [] view
      (.call .isBlank [.var (blankObject depth)]) =
        (view (.var (blankObject depth))).map fun value => .ofBool value.isBlank := rfl
  rw [levels, passes, passes, passes_further, unfiltered, Element.holds, value, Bool.true_and,
    Bool.and_true, decide_eq_true_iff]
  cases view (.var (blankObject depth)) with
  | none => simp [Engine.truth?]
  | some value => cases value <;> simp [Engine.truth?, engine.truth_ofBool, Rdf.Term.isBlank]

/-- A level is reached through a triple of the graph. -/
theorem mem_extendAll_step (ends : EndsAt depth current) :
    solution ∈ extendAll engine graph .empty current (levels depth room) ↔
      ∃ triple ∈ graph.triples,
        (∀ value, current (.var (blankObject depth)) = some value →
          value = triple.subject.term) ∧
        solution ∈ extendAll engine graph .empty (current.merge (stepSolution depth triple))
          (blankLevels [] (depth + 1) room).pattern := by
  have fits (triple : Rdf.Triple) :
      current.Compatible (stepSolution depth triple) ↔
        ∀ value, current (.var (blankObject depth)) = some value → value = triple.subject.term := by
    rw [← trailSolution_single, compatible_trailSolution ends]
  rw [levels, extendAll, List.mem_flatMap]
  simp only [Element.extend, Solution.mem_joined, mem_solutions_blankStep, extendAll,
    List.flatMap_singleton, Solution.merge_empty]
  constructor
  · rintro ⟨_, ⟨_, ⟨triple, member, rfl⟩, compatible, rfl⟩, further⟩
    exact ⟨triple, member, (fits triple).1 compatible, further⟩
  · rintro ⟨triple, member, agrees, further⟩
    exact ⟨_, ⟨_, ⟨triple, member, rfl⟩, (fits triple).2 agrees, rfl⟩, further⟩

section

variable {value : Rdf.Term}
  (each : ∀ solution, solution ∈ extendAll engine graph .empty .empty (levels depth room) ↔
    ∃ start trail, graph.BlankTrail room start trail ∧ solution = trailSolution depth trail)
  (ends : EndsAt depth current) (known : current (.var (blankObject depth)) = some value)

include each ends known

/-- A level offers the trails from its node, if that is blank. -/
theorem mem_offered_levels :
    solution ∈ offered engine graph current (levels depth room) ↔
      ∃ label trail, value = .blank label ∧ graph.BlankTrail room (.blank label) trail ∧
        solution = current.merge (trailSolution depth trail) := by
  simp only [offered, List.mem_filter, Solution.mem_joined, each, Solution.merge_empty,
    passes_levels]
  constructor
  · rintro ⟨⟨_, ⟨start, trail, along, rfl⟩, compatible, rfl⟩, label, isBlank⟩
    obtain ⟨triple, -, rfl, rest, rfl⟩ := along.exists_head
    rw [Solution.merge_of_some known, Option.some_inj] at isBlank
    have same := (compatible_trailSolution ends).1 compatible value known
    have isSubject : triple.subject = .blank label := by
      rw [isBlank] at same
      cases subject : triple.subject <;> simp_all [Rdf.Node.term]
    exact ⟨label, _, isBlank, isSubject ▸ along, rfl⟩
  · rintro ⟨label, trail, rfl, along, rfl⟩
    obtain ⟨triple, -, subject, rest, rfl⟩ := along.exists_head
    refine ⟨⟨_, ⟨_, _, along, rfl⟩, (compatible_trailSolution ends).2 fun other is => ?_, rfl⟩,
      label, Solution.merge_of_some known _⟩
    rw [← Option.some.inj (known.symm.trans is), subject]
    rfl

/-- An optional level goes on along the trails from its node, and is left out where there are
none. -/
theorem mem_extend_levels :
    solution ∈ (Element.optional (levels depth room)).extend engine graph .empty current ↔
      (∃ label trail, value = .blank label ∧ graph.BlankTrail room (.blank label) trail ∧
        solution = current.merge (trailSolution depth trail)) ∨
      (∀ label, value = .blank label → ¬ graph.hasSubject (.blank label)) ∧
        solution = current := by
  have empty : (∀ other, other ∉ offered engine graph current (levels depth room)) ↔
      ∀ label, value = .blank label → ¬ graph.hasSubject (.blank label) := by
    simp only [mem_offered_levels each ends known]
    constructor
    · intro none label leads more
      obtain ⟨trail, along⟩ := Rdf.Graph.exists_blankTrail_iff.2 more
      exact none _ ⟨label, trail, leads, along, rfl⟩
    · rintro none _ ⟨label, trail, leads, along, -⟩
      exact none label leads (Rdf.Graph.exists_blankTrail_iff.1 ⟨trail, along⟩)
  rw [Element.mem_extend_optional, empty, mem_offered_levels each ends known]

end

/-- The solutions of the levels from a depth on are those of the trails from its node. -/
theorem mem_extendAll_levels (ends : EndsAt depth current) :
    solution ∈ extendAll engine graph .empty current (levels depth room) ↔
      ∃ start trail, graph.BlankTrail room start trail ∧
        (∀ value, current (.var (blankObject depth)) = some value → value = start.term) ∧
        solution = current.merge (trailSolution depth trail) := by
  induction room generalizing depth current solution with
  | zero =>
    rw [mem_extendAll_step ends]
    constructor
    · rintro ⟨triple, member, agrees, same⟩
      refine ⟨_, _, .last member (.inl rfl), agrees, ?_⟩
      rw [trailSolution_single]
      exact List.mem_singleton.1 same
    · rintro ⟨_, _, along, agrees, rfl⟩
      cases along with
      | last member =>
        rw [trailSolution_single]
        exact ⟨_, member, agrees, List.mem_singleton.2 rfl⟩
  | succ room inductionHypothesis =>
    -- The optional pattern is evaluated by itself, before it is joined to what is known.
    have each (solution : Solution) :
        solution ∈ extendAll engine graph .empty .empty (levels (depth + 1) room) ↔
          ∃ start trail, graph.BlankTrail room start trail ∧
            solution = trailSolution (depth + 1) trail := by
      rw [inductionHypothesis (endsAt_empty _)]
      simp [Solution.empty]
    have further (triple : Rdf.Triple) :
        EndsAt (depth + 1) (current.merge (stepSolution depth triple)) ∧
          current.merge (stepSolution depth triple) (.var (blankObject (depth + 1))) =
            some triple.object := by
      refine ⟨ends.succ.merge endsAt_stepSolution, ?_⟩
      rw [Solution.merge_of_none (ends _ (.object depth)), stepSolution_object]
    rw [mem_extendAll_step ends]
    simp only [pattern_blankLevels, extendAll, List.flatMap_singleton']
    simp only [mem_extend_levels each (further _).1 (further _).2, Solution.merge_assoc]
    constructor
    · rintro ⟨triple, member, agrees, ⟨label, trail, leads, along, rfl⟩ | ⟨none, rfl⟩⟩
      · exact ⟨_, _, .step member leads along, agrees, rfl⟩
      · refine ⟨_, _, .last member (.inr none), agrees, ?_⟩
        rw [trailSolution_single]
    · rintro ⟨_, _, along, agrees, rfl⟩
      cases along with
      | last member none =>
        refine ⟨_, member, agrees, .inr ⟨none.resolve_left (Nat.succ_ne_zero room), ?_⟩⟩
        rw [trailSolution_single]
      | step member leads along => exact ⟨_, member, agrees, .inl ⟨_, _, leads, along, rfl⟩⟩

end

/-! ### What is shown -/

/-- The triple that shows a step. -/
def shownStep (depth : Nat) : TemplateTriple :=
  ⟨.var (blankObject depth), .var (blankPredicate (depth + 1)), .var (blankObject (depth + 1))⟩

section

variable {graph : Rdf.Graph} {depth room : Nat} {start : Rdf.Node} {trail : List Rdf.Triple}
  {triple made : Rdf.Triple} {solution current : Solution} {shown : TemplateTriple}

theorem template_blankLevels (depth room : Nat) :
    (blankLevels [] depth (room + 1)).template =
      shownStep depth :: (blankLevels [] (depth + 1) room).template := rfl

theorem shownStep_of_mem (member : shown ∈ (blankLevels [] depth room).template) :
    ∃ later, depth ≤ later ∧ shown = shownStep later := by
  induction room generalizing depth with
  | zero => cases member
  | succ room inductionHypothesis =>
    rw [template_blankLevels] at member
    rcases List.mem_cons.1 member with rfl | further
    · exact ⟨depth, Nat.le_refl depth, rfl⟩
    · exact (inductionHypothesis further).imp fun _ => And.imp_left Nat.le_of_succ_le

theorem instance?_shownStep
    (subject : solution (.var (blankObject depth)) = some triple.subject.term)
    (predicate : solution (.var (blankPredicate (depth + 1))) = some (.iri triple.predicate))
    (object : solution (.var (blankObject (depth + 1))) = some triple.object) :
    (shownStep depth).instance? solution = some triple := by
  simp [TemplateTriple.instance?, shownStep, Term.shown, Term.value, subject, predicate, object]

/-- A step that a solution ends before is not shown. -/
theorem instance?_of_endsAt {later : Nat} (ends : EndsAt depth solution) (after : depth ≤ later) :
    (shownStep later).instance? solution = none := by
  have free : solution (.var (blankPredicate (later + 1))) = none :=
    ends _ ⟨later + 1, Nat.lt_succ_of_le after, .inl rfl⟩
  simp [TemplateTriple.instance?, shownStep, Term.shown, Term.value, free]

/-- What is joined before a step does not change how it is shown. -/
theorem instance?_merge (ends : EndsAt depth current)
    (agrees : ∀ value, current (.var (blankObject depth)) = some value →
      solution (.var (blankObject depth)) = some value)
    (member : shown ∈ (blankLevels [] depth room).template) :
    shown.instance? (current.merge solution) = shown.instance? solution := by
  have further {unknown : Unknown} (beyond : Beyond depth unknown) :
      current.merge solution unknown = solution unknown :=
    Solution.merge_of_none (ends unknown beyond) solution
  have first : current.merge solution (.var (blankObject depth)) =
      solution (.var (blankObject depth)) := by
    cases known : current (.var (blankObject depth)) with
    | none => exact Solution.merge_of_none known solution
    | some value => rw [Solution.merge_of_some known, agrees value known]
  obtain ⟨later, after, rfl⟩ := shownStep_of_mem member
  have subject : current.merge solution (.var (blankObject later)) =
      solution (.var (blankObject later)) := by
    rcases Nat.eq_or_lt_of_le after with rfl | beyond
    · exact first
    · exact further ⟨later, beyond, .inr rfl⟩
  have predicate := further ⟨later + 1, Nat.lt_succ_of_le after, .inl rfl⟩
  have object := further ⟨later + 1, Nat.lt_succ_of_le after, .inr rfl⟩
  simp only [TemplateTriple.instance?, shownStep, Term.shown, Term.value, subject, predicate,
    object]

theorem trailSolution_start (along : graph.BlankTrail room start trail) (depth : Nat) :
    trailSolution depth trail (.var (blankObject depth)) = some start.term := by
  obtain ⟨triple, -, rfl, rest, rfl⟩ := along.exists_head
  exact trailSolution_subject

/-- The levels show the triples of a trail. -/
theorem instances_levels (along : graph.BlankTrail room start trail) (depth : Nat) :
    (∃ shown ∈ (blankLevels [] depth (room + 1)).template,
      shown.instance? (trailSolution depth trail) = some made) ↔ made ∈ trail := by
  have first (triple : Rdf.Triple) (rest : List Rdf.Triple) (depth : Nat) :
      (shownStep depth).instance? (trailSolution depth (triple :: rest)) = some triple :=
    instance?_shownStep trailSolution_subject
      (Solution.merge_of_some stepSolution_predicate _)
      (Solution.merge_of_some stepSolution_object _)
  induction along generalizing depth with
  | last member =>
    -- The levels after the last triple have no values.
    rw [template_blankLevels, List.exists_mem_cons_iff, first, Option.some_inj,
      List.mem_singleton, trailSolution_single, eq_comm, or_iff_left]
    rintro ⟨shown, further, told⟩
    obtain ⟨later, after, rfl⟩ := shownStep_of_mem further
    exact absurd ((instance?_of_endsAt endsAt_stepSolution after).symm.trans told) nofun
  | @step _ triple label rest member leads along inductionHypothesis =>
    have agrees (value : Rdf.Term)
        (known : stepSolution depth triple (.var (blankObject (depth + 1))) = some value) :
        trailSolution (depth + 1) rest (.var (blankObject (depth + 1))) = some value := by
      rw [stepSolution_object, leads] at known
      exact (trailSolution_start along _).trans known
    rw [template_blankLevels, List.exists_mem_cons_iff, first, Option.some_inj, List.mem_cons,
      eq_comm]
    refine or_congr_right (.trans (exists_congr fun shown => and_congr_right fun further => ?_)
      (inductionHypothesis (depth + 1)))
    rw [trailSolution, instance?_merge endsAt_stepSolution agrees further]

end

/-! ### The closure -/

section

variable {engine : Engine} {graph : Rdf.Graph} {focus : Iri} {room : Nat} {solution : Solution}
  {first made : Rdf.Triple}

theorem pattern_blankChain (focus : Iri) (room : Nat) :
    (blankChain (.iri focus) (room + 1)).pattern =
      [.optional (.triple (blankStep (.iri focus) 1) :: levels 1 room)] := rfl

theorem template_blankChain (focus : Iri) (room : Nat) :
    (blankChain (.iri focus) (room + 1)).template =
      ⟨.iri focus, .var (blankPredicate 1), .var (blankObject 1)⟩ ::
        (blankLevels [] 1 (room + 1)).template := rfl

/-- A chain offers the trails from the blank nodes that its focus leads to. -/
theorem mem_offered_blankChain :
    solution ∈ offered engine graph .empty (.triple (blankStep (.iri focus) 1) :: levels 1 room) ↔
      ∃ first ∈ graph.triples, first.subject = .iri focus ∧ ∃ label, first.object = .blank label ∧
        ∃ trail, graph.BlankTrail room (.blank label) trail ∧
          solution = (startSolution first).merge (trailSolution 1 trail) := by
  have passed (view : Solution) :
      passes engine graph view (.triple (blankStep (.iri focus) 1) :: levels 1 room) =
        passes engine graph view (levels 1 room) := rfl
  rw [offered, List.mem_filter, Solution.joined_empty_empty, extendAll, List.mem_flatMap, passed,
    passes_levels]
  simp only [Element.extend, Solution.joined_empty_empty, mem_solutions_start]
  constructor
  · rintro ⟨⟨_, ⟨first, member, isFocus, rfl⟩, further⟩, label, isBlank⟩
    obtain ⟨start, trail, along, agrees, rfl⟩ :=
      (mem_extendAll_levels endsAt_startSolution).1 further
    rw [Solution.merge_of_some startSolution_object, Option.some_inj] at isBlank
    have leads : start = .blank label := by
      have same := agrees _ startSolution_object
      rw [isBlank] at same
      cases start <;> simp_all [Rdf.Node.term]
    exact ⟨first, member, isFocus, label, isBlank, trail, leads ▸ along, rfl⟩
  · rintro ⟨first, member, isFocus, label, isBlank, trail, along, rfl⟩
    have known : startSolution first (.var (blankObject 1)) = some (.blank label) :=
      startSolution_object.trans (congrArg some isBlank)
    refine ⟨⟨_, ⟨first, member, isFocus, rfl⟩, (mem_extendAll_levels endsAt_startSolution).2
      ⟨_, trail, along, fun value is => ?_, rfl⟩⟩, label, Solution.merge_of_some known _⟩
    exact Option.some.inj (is.symm.trans known)

/-- A chain shows its first triple and those of a trail. -/
theorem instances_blankChain {label : String} {trail : List Rdf.Triple}
    (isFocus : first.subject = .iri focus) (leads : first.object = .blank label)
    (along : graph.BlankTrail room (.blank label) trail) :
    (∃ shown ∈ (blankChain (.iri focus) (room + 1)).template,
      shown.instance? ((startSolution first).merge (trailSolution 1 trail)) = some made) ↔
      made = first ∨ made ∈ trail := by
  have predicate : (startSolution first).merge (trailSolution 1 trail) (.var (blankPredicate 1)) =
      some (.iri first.predicate) := Solution.merge_of_some startSolution_predicate _
  have object : (startSolution first).merge (trailSolution 1 trail) (.var (blankObject 1)) =
      some first.object := Solution.merge_of_some startSolution_object _
  have shownFirst : TemplateTriple.instance? ((startSolution first).merge (trailSolution 1 trail))
      ⟨.iri focus, .var (blankPredicate 1), .var (blankObject 1)⟩ = some first := by
    simp [TemplateTriple.instance?, Term.shown, Term.value, predicate, object, Rdf.Term.node?,
      ← isFocus]
  have agrees (value : Rdf.Term) (known : startSolution first (.var (blankObject 1)) = some value) :
      trailSolution 1 trail (.var (blankObject 1)) = some value := by
    rw [startSolution_object, leads] at known
    exact (trailSolution_start along 1).trans known
  rw [template_blankChain, List.exists_mem_cons_iff, shownFirst, Option.some_inj, eq_comm]
  refine or_congr_right (.trans (exists_congr fun shown => and_congr_right fun further => ?_)
    (instances_levels along 1))
  rw [instance?_merge endsAt_startSolution agrees further]

/-- Without values, a chain shows nothing. -/
theorem instance?_empty {shown : TemplateTriple}
    (member : shown ∈ (blankChain (.iri focus) (room + 1)).template) :
    shown.instance? .empty = none := by
  rw [template_blankChain, List.mem_cons] at member
  rcases member with rfl | further
  · rfl
  · obtain ⟨later, -, rfl⟩ := shownStep_of_mem further
    rfl

/-- The triples of a chain are those of the trails that it offers. -/
theorem constructs_iff_trail :
    (blankChain (.iri focus) (room + 1)).Constructs engine graph made ↔
      ∃ first ∈ graph.triples, first.subject = .iri focus ∧ ∃ label, first.object = .blank label ∧
        ∃ trail, graph.BlankTrail room (.blank label) trail ∧ (made = first ∨ made ∈ trail) := by
  rw [Fragment.Constructs, pattern_blankChain, Group.solutions_single engine graph fun _ => rfl]
  simp only [Element.mem_extend_optional]
  constructor
  · rintro ⟨solution, offers | ⟨-, rfl⟩, shown, member, told⟩
    · obtain ⟨first, among, isFocus, label, leads, trail, along, rfl⟩ :=
        mem_offered_blankChain.1 offers
      exact ⟨first, among, isFocus, label, leads, trail, along,
        (instances_blankChain isFocus leads along).1 ⟨shown, member, told⟩⟩
    · exact absurd ((instance?_empty member).symm.trans told) nofun
  · rintro ⟨first, among, isFocus, label, leads, trail, along, within⟩
    exact ⟨_, .inl (mem_offered_blankChain.2
      ⟨first, among, isFocus, label, leads, trail, along, rfl⟩),
      (instances_blankChain isFocus leads along).2 within⟩

end

/-- A chain of blank nodes constructs the triples from its focus to blank nodes with triples of
their own, and the triples of all nodes that at least one and at most as many steps as it has
levels lead to. -/
theorem constructs_blankChain (engine : Engine) (graph : Rdf.Graph) (focus : Iri) {depth : Nat}
    (positive : 0 < depth) (made : Rdf.Triple) :
    (blankChain (.iri focus) depth).Constructs engine graph made ↔
      made ∈ graph.triples ∧
        ((made.subject = .iri focus ∧
            ∃ label, made.object = .blank label ∧ graph.hasSubject (.blank label)) ∨
          ∃ count, 1 ≤ count ∧ count ≤ depth ∧
            graph.BlankWalk count (.iri focus) made.subject) := by
  obtain ⟨room, rfl⟩ := Nat.exists_eq_succ_of_ne_zero (Nat.ne_of_gt positive)
  rw [Nat.succ_eq_add_one, constructs_iff_trail]
  constructor
  · rintro ⟨first, among, isFocus, label, leads, trail, along, rfl | within⟩
    · have more := Rdf.Graph.exists_blankTrail_iff.1 ⟨trail, along⟩
      exact ⟨among, .inl ⟨isFocus, label, leads, more⟩⟩
    · have edge : ⟨.iri focus, first.predicate, .blank label⟩ ∈ graph.triples :=
        isFocus ▸ leads ▸ among
      obtain ⟨member, count, bound, walk⟩ :=
        Rdf.Graph.mem_blankTrail_iff.1 ⟨trail, along, within⟩
      exact ⟨member, .inr ⟨count + 1, Nat.succ_pos count, Nat.succ_le_succ bound,
        .step edge walk⟩⟩
  · rintro ⟨member, ⟨isFocus, label, leads, more⟩ | ⟨count, atLeast, atMost, walk⟩⟩
    · obtain ⟨trail, along⟩ := Rdf.Graph.exists_blankTrail_iff.2 more
      exact ⟨made, member, isFocus, label, leads, trail, along, .inl rfl⟩
    · generalize last : made.subject = finish at walk
      cases walk with
      | stay => exact absurd atLeast (Nat.not_succ_le_zero 0)
      | step edge walk =>
        obtain ⟨trail, along, within⟩ := Rdf.Graph.mem_blankTrail_iff.2
          ⟨member, _, Nat.le_of_succ_le_succ atMost, last ▸ walk⟩
        exact ⟨_, edge, rfl, _, rfl, trail, along, .inr within⟩

/-- A thing with nested values. -/
def nestedValues : Rdf.Graph :=
  .ofList [⟨.iri ⟨"http://example.org/thing"⟩, Vocabulary.rdfValue, .blank "outer"⟩,
    ⟨.blank "outer", Vocabulary.rdfValue, .blank "inner"⟩,
    ⟨.blank "inner", Vocabulary.rdfValue, .blank "core"⟩]

/-- A chain of one blank node ends before the value of a value of a value. -/
theorem constructs_blankChain_nestedValues :
    0 < 1 ∧ ∀ made, (blankChain (.iri ⟨"http://example.org/thing"⟩) 1).Constructs Engine.plain
        nestedValues made ↔
      made = ⟨.iri ⟨"http://example.org/thing"⟩, Vocabulary.rdfValue, .blank "outer"⟩ ∨
        made = ⟨.blank "outer", Vocabulary.rdfValue, .blank "inner"⟩ := by
  refine ⟨Nat.one_pos, fun made => (constructs_blankChain _ _ _ Nat.one_pos made).trans ?_⟩
  constructor
  · rintro ⟨member, reached⟩
    simp only [nestedValues, Rdf.Graph.mem_ofList, List.mem_cons, List.not_mem_nil,
      or_false] at member
    rcases member with rfl | rfl | rfl
    · exact .inl rfl
    · exact .inr rfl
    · rcases reached with ⟨isFocus, -⟩ | ⟨count, atLeast, atMost, walk⟩
      · cases isFocus
      · obtain rfl : count = 1 := Nat.le_antisymm atMost atLeast
        cases walk with
        | step edge walk =>
          cases walk
          simp [nestedValues] at edge
  · rintro (rfl | rfl)
    · exact ⟨by decide, .inl ⟨rfl, "outer", rfl, by decide⟩⟩
    · have edge : ⟨.iri ⟨"http://example.org/thing"⟩, Vocabulary.rdfValue, .blank "outer"⟩ ∈
          nestedValues.triples := by decide
      exact ⟨by decide, .inr ⟨1, Nat.le_refl 1, Nat.le_refl 1, .step edge (.stay _)⟩⟩

end Shape

end ShapeQuery
