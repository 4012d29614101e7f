/-
This file tells how the reading of a collection ends, whatever the graph says about its cells. From
every term a walk along the rests passes cells, none of them twice, until it comes to the empty
collection or to a term behind which it cannot go on; it is no longer than the graph has subjects.
The reading succeeds in the first case, with the elements of the passed cells, and in the second it
fails for the reason that stops the walk.
-/
import ShapeQuery.Proofs.Rdf.Collections
import ShapeQuery.Proofs.Shape.Relabelling

namespace ShapeQuery.Rdf.Graph

variable {graph : Graph}

/-! ### Walks -/

/-- Whether a walk continues at a cell: it has an element and a rest, and is not the empty
collection. -/
structure Continues (graph : Graph) (cell : Node) (first rest : Term) : Prop where
  nonempty : cell.term ≠ .iri Vocabulary.rdfNil
  element : ⟨cell, Vocabulary.rdfFirst, first⟩ ∈ graph.triples
  next : ⟨cell, Vocabulary.rdfRest, rest⟩ ∈ graph.triples

/-- Following the rest of each cell from a term passes some cells, each with its element, and comes
to another term. -/
inductive Passes (graph : Graph) : Term → List (Node × Term) → Term → Prop
  | here (head : Term) : graph.Passes head [] head
  | cell {cell : Node} {first rest last : Term} {cells : List (Node × Term)} :
    graph.Continues cell first rest → graph.Passes rest cells last →
      graph.Passes cell.term ((cell, first) :: cells) last

/-- Why a walk cannot go on behind a term that it comes to past the given cells. -/
inductive Stops (graph : Graph) (passed : List Node) : Term → CollectionFault → Prop
  | cycle {cell : Node} : cell ∈ passed → graph.Stops passed cell.term .cycle
  | literalCell {value : Literal} : graph.Stops passed (.literal value) .literalCell
  | noElement {cell : Node} : cell.term ≠ .iri Vocabulary.rdfNil →
      (∀ first, ⟨cell, Vocabulary.rdfFirst, first⟩ ∉ graph.triples) →
      graph.Stops passed cell.term .noElement
  | noRest {cell : Node} {first : Term} : cell.term ≠ .iri Vocabulary.rdfNil →
      ⟨cell, Vocabulary.rdfFirst, first⟩ ∈ graph.triples →
      (∀ rest, ⟨cell, Vocabulary.rdfRest, rest⟩ ∉ graph.triples) →
      graph.Stops passed cell.term .noRest

/-- Whether the walk from a term passes cells with the given elements and comes to the empty
collection. -/
def IsList (graph : Graph) (head : Term) (elements : List Term) : Prop :=
  ∃ cells, graph.Passes head cells (.iri Vocabulary.rdfNil) ∧ cells.map Prod.snd = elements

/-- Whether the walk from a term passes some cells, each of them once, and then stops. -/
def Breaks (graph : Graph) (head : Term) (fault : CollectionFault) : Prop :=
  ∃ cells last, graph.Passes head cells last ∧ (cells.map Prod.fst).Nodup ∧
    graph.Stops (cells.map Prod.fst) last fault

/-! ### Look-ups -/

theorem object?_eq_none {subject : Node} {predicate : Iri} :
    graph.object? subject predicate = none ↔
      ∀ object, ⟨subject, predicate, object⟩ ∉ graph.triples := by
  rw [object?, List.head?_eq_none_iff, List.eq_nil_iff_forall_not_mem]
  exact forall_congr' fun object => not_congr mem_objects

theorem Functional.object?_eq_some {predicate : Iri} (functional : graph.Functional predicate)
    {subject : Node} {object : Term} :
    graph.object? subject predicate = some object ↔
      ⟨subject, predicate, object⟩ ∈ graph.triples := by
  refine ⟨mem_of_object?, fun member => ?_⟩
  have alone := functional.single subject
  have found := mem_objects.2 member
  unfold Single at alone
  rw [object?]
  cases objects : graph.objects subject predicate with
  | nil =>
    rw [objects] at found
    exact absurd found List.not_mem_nil
  | cons other rest =>
    rw [objects, List.length_cons] at alone
    obtain rfl := List.length_eq_zero_iff.1 (Nat.le_zero.1 (Nat.le_of_succ_le_succ alone))
    rw [objects, List.mem_singleton] at found
    rw [found]
    rfl

theorem mem_subjects_of_triple {subject : Node} {predicate : Iri} {object : Term}
    (member : ⟨subject, predicate, object⟩ ∈ graph.triples) : subject ∈ graph.subjects :=
  List.mem_eraseDups.2 (List.mem_map.2 ⟨_, member, rfl⟩)

theorem hasSubject_iff_mem_subjects {subject : Node} :
    graph.hasSubject subject = true ↔ subject ∈ graph.subjects := by
  simp [hasSubject, subjects]

/-! ### Where a reading stands -/

/-- What holds of a reading that has passed some cells: the walk continues at them, and the unused
ones are the other subjects. -/
structure Standing (graph : Graph) (passed unused : List Node) : Prop where
  distinct : unused.Nodup
  unused : ∀ cell, cell ∈ unused ↔ cell ∈ graph.subjects ∧ cell ∉ passed
  passed : ∀ cell ∈ passed, ∃ first rest, graph.Continues cell first rest

variable {passed unused : List Node} {cell : Node} {first rest : Term}

theorem standing_start : graph.Standing [] graph.subjects where
  distinct := Relabels.nodup_eraseDups _
  unused cell := by simp
  passed _ member := absurd member List.not_mem_nil

namespace Standing

/-- One more cell is passed. -/
theorem pass (standing : graph.Standing passed unused)
    (continues : graph.Continues cell first rest) :
    graph.Standing (passed ++ [cell]) (unused.erase cell) where
  distinct := standing.distinct.erase cell
  unused other := by
    rw [standing.distinct.mem_erase_iff, standing.unused, List.mem_append, List.mem_singleton]
    tauto
  passed other member := by
    rcases List.mem_append.1 member with before | here
    · exact standing.passed other before
    · rw [List.mem_singleton.1 here]
      exact ⟨first, rest, continues⟩

/-- A cell with an element is unused unless it was passed. -/
theorem mem_unused (standing : graph.Standing passed unused)
    (element : ⟨cell, Vocabulary.rdfFirst, first⟩ ∈ graph.triples) :
    cell ∈ unused ↔ cell ∉ passed := by
  rw [standing.unused, and_iff_right (mem_subjects_of_triple element)]

end Standing

/-! ### Steps of a reading -/

/-- A reading takes the element of an unused cell and goes on with its rest. -/
theorem chain_cell (firsts : graph.Functional Vocabulary.rdfFirst)
    (rests : graph.Functional Vocabulary.rdfRest) (continues : graph.Continues cell first rest)
    (fresh : cell ∈ unused) :
    graph.chain unused cell.term = (graph.chain (unused.erase cell) rest).map (first :: ·) := by
  rw [chain, if_neg continues.nonempty]
  simp only [Node.node?_term, fresh, dite_true, firsts.object?_eq_some.2 continues.element,
    rests.object?_eq_some.2 continues.next]

/-- A reading fails for the reason that stops the walk. -/
theorem chain_stopped (firsts : graph.Functional Vocabulary.rdfFirst)
    (standing : graph.Standing passed unused) {last : Term} {fault : CollectionFault}
    (stops : graph.Stops passed last fault) : graph.chain unused last = .error fault := by
  cases stops with
  | @literalCell value =>
    have nonempty : Term.literal value ≠ .iri Vocabulary.rdfNil := Term.noConfusion
    rw [chain, if_neg nonempty]
    rfl
  | @cycle cell member =>
    obtain ⟨first, rest, continues⟩ := standing.passed cell member
    have used : cell ∉ unused := fun fresh => (standing.mem_unused continues.element).1 fresh member
    rw [chain, if_neg continues.nonempty]
    simp only [Node.node?_term, used, dite_false,
      hasSubject_iff_mem_subjects.2 (mem_subjects_of_triple continues.element), if_true]
  | @noElement cell nonempty missing =>
    have notPassed : cell ∉ passed := fun member => by
      obtain ⟨first, rest, continues⟩ := standing.passed cell member
      exact missing first continues.element
    rw [chain, if_neg nonempty]
    by_cases fresh : cell ∈ unused
    · simp only [Node.node?_term, fresh, dite_true, object?_eq_none.2 missing]
    · have unknown : cell ∉ graph.subjects := fun known =>
        fresh ((standing.unused cell).2 ⟨known, notPassed⟩)
      simp only [Node.node?_term, fresh, dite_false, hasSubject_iff_mem_subjects, unknown, if_false]
  | @noRest cell first nonempty element missing =>
    have notPassed : cell ∉ passed := fun member => by
      obtain ⟨first, rest, continues⟩ := standing.passed cell member
      exact missing rest continues.next
    rw [chain, if_neg nonempty]
    simp only [Node.node?_term, (standing.mem_unused element).2 notPassed, dite_true,
      firsts.object?_eq_some.2 element, object?_eq_none.2 missing]

/-- Behind the cells of a walk a reading goes on with what they leave unused. -/
theorem chain_passes (firsts : graph.Functional Vocabulary.rdfFirst)
    (rests : graph.Functional Vocabulary.rdfRest) {head last : Term} {cells : List (Node × Term)}
    (passes : graph.Passes head cells last) (standing : graph.Standing passed unused)
    (distinct : (passed ++ cells.map Prod.fst).Nodup) :
    ∃ others, graph.Standing (passed ++ cells.map Prod.fst) others ∧
      graph.chain unused head = (graph.chain others last).map (cells.map Prod.snd ++ ·) := by
  induction passes generalizing passed unused with
  | here head =>
    refine ⟨unused, by simpa using standing, ?_⟩
    cases graph.chain unused head <;> rfl
  | @cell cell first rest last cells continues _ inductionHypothesis =>
    rw [List.map_cons, List.append_cons] at distinct
    have fresh : cell ∉ passed := fun member =>
      List.disjoint_of_nodup_append (List.Nodup.of_append_left distinct) member
        (List.mem_singleton.2 rfl)
    obtain ⟨others, further, same⟩ := inductionHypothesis (standing.pass continues) distinct
    refine ⟨others, by simpa using further, ?_⟩
    rw [chain_cell firsts rests continues ((standing.mem_unused continues.element).2 fresh), same]
    cases graph.chain others last <;> rfl

/-! ### Every walk ends -/

/-- At every term a walk has come to the empty collection, stops, or passes a new cell. -/
theorem stops_or_continues (passed : List Node) (head : Term) :
    head = .iri Vocabulary.rdfNil ∨ (∃ fault, graph.Stops passed head fault) ∨
      ∃ cell first rest, cell.term = head ∧ cell ∉ passed ∧ graph.Continues cell first rest := by
  by_cases empty : head = .iri Vocabulary.rdfNil
  · exact .inl empty
  cases found : head.node? with
  | none =>
    cases head with
    | literal value => exact .inr (.inl ⟨.literalCell, .literalCell⟩)
    | iri name => cases found
    | blank label => cases found
  | some cell =>
    obtain rfl := Term.term_of_node? found
    refine .inr ?_
    by_cases used : cell ∈ passed
    · exact .inl ⟨.cycle, .cycle used⟩
    by_cases element : ∃ first, ⟨cell, Vocabulary.rdfFirst, first⟩ ∈ graph.triples
    · obtain ⟨first, element⟩ := element
      by_cases next : ∃ rest, ⟨cell, Vocabulary.rdfRest, rest⟩ ∈ graph.triples
      · obtain ⟨rest, next⟩ := next
        exact .inr ⟨cell, first, rest, rfl, used, empty, element, next⟩
      · exact .inl ⟨.noRest, .noRest empty element (not_exists.1 next)⟩
    · exact .inl ⟨.noElement, .noElement empty (not_exists.1 element)⟩

/-- Every walk comes to the empty collection or stops, before it runs out of unused cells. -/
theorem exists_passes (standing : graph.Standing passed unused) (distinct : passed.Nodup)
    (head : Term) :
    ∃ cells last, graph.Passes head cells last ∧ (passed ++ cells.map Prod.fst).Nodup ∧
      cells.length ≤ unused.length ∧ (last = .iri Vocabulary.rdfNil ∨
        ∃ fault, graph.Stops (passed ++ cells.map Prod.fst) last fault) := by
  induction size : unused.length using Nat.strongRecOn generalizing passed unused head with
  | ind _ inductionHypothesis =>
    rcases graph.stops_or_continues passed head with
      empty | stops | ⟨cell, first, rest, rfl, fresh, continues⟩
    · exact ⟨[], head, .here head, by simpa using distinct, Nat.zero_le _, .inl empty⟩
    · exact ⟨[], head, .here head, by simpa using distinct, Nat.zero_le _,
        .inr (by simpa using stops)⟩
    · -- The cell is one of the unused ones, so that fewer are left behind it.
      have member := (standing.mem_unused continues.element).2 fresh
      have fewer := List.length_erase_of_mem member
      have positive := List.length_pos_of_mem member
      have further : (passed ++ [cell]).Nodup := by
        rw [List.nodup_append]
        exact ⟨distinct, List.nodup_singleton cell, fun _ before _ here same =>
          fresh (List.mem_singleton.1 here ▸ same ▸ before)⟩
      obtain ⟨cells, last, passes, once, short, ended⟩ :=
        inductionHypothesis _ (by omega) (standing.pass continues) further rest rfl
      rw [← List.append_cons] at once ended
      refine ⟨(cell, first) :: cells, last, .cell continues passes, once, ?_, ended⟩
      rw [List.length_cons]
      omega

/-! ### Readings -/

theorem isList_iff_lists (firsts : graph.Functional Vocabulary.rdfFirst)
    (rests : graph.Functional Vocabulary.rdfRest) {head : Term} {elements : List Term} :
    graph.IsList head elements ↔ graph.Lists head elements := by
  constructor
  · rintro ⟨cells, passes, rfl⟩
    generalize empty : Term.iri Vocabulary.rdfNil = last at passes
    induction passes with
    | here => exact empty ▸ .nil
    | @cell cell _ _ _ _ continues _ inductionHypothesis =>
      exact .cons continues.nonempty cell.node?_term (firsts.object?_eq_some.2 continues.element)
        (rests.object?_eq_some.2 continues.next) (inductionHypothesis empty)
  · intro lists
    induction lists with
    | nil => exact ⟨[], .here _, rfl⟩
    | @cons head first rest cell tail nonempty found firstFound restFound _ inductionHypothesis =>
      obtain ⟨cells, passes, rfl⟩ := inductionHypothesis
      obtain rfl := Term.term_of_node? found
      exact ⟨(cell, first) :: cells,
        .cell ⟨nonempty, mem_of_object? firstFound, mem_of_object? restFound⟩ passes, rfl⟩

/-- A walk that stops is one that cannot be read, for the reason that stops it. -/
theorem collection_error (firsts : graph.Functional Vocabulary.rdfFirst)
    (rests : graph.Functional Vocabulary.rdfRest) {head : Term} {fault : CollectionFault}
    (breaks : graph.Breaks head fault) : graph.collection head = .error fault := by
  obtain ⟨cells, last, passes, once, stops⟩ := breaks
  obtain ⟨others, standing, same⟩ := chain_passes firsts rests passes standing_start once
  rw [collection, same, chain_stopped firsts standing stops]
  rfl

/-- A list is read from every head whose walk comes to the empty collection, with the elements of
the walk; every other walk stops, and the reading fails for the reason that stops it. No walk is
longer than the graph has subjects. -/
theorem elements_exact (firsts : graph.Functional Vocabulary.rdfFirst)
    (rests : graph.Functional Vocabulary.rdfRest) (head : Term) :
    (∀ elements, graph.elements head = .ok elements ↔ graph.IsList head elements) ∧
    (∀ error, graph.elements head = .error error ↔
      ∃ fault, error = .malformedCollection head fault ∧ graph.Breaks head fault) ∧
    ∃ cells last, graph.Passes head cells last ∧ (cells.map Prod.fst).Nodup ∧
      cells.length ≤ graph.subjects.length ∧
      (last = .iri Vocabulary.rdfNil ∨ ∃ fault, graph.Stops (cells.map Prod.fst) last fault) := by
  have walk := exists_passes graph.standing_start List.nodup_nil head
  have read {elements : List Term} :
      graph.elements head = .ok elements ↔ graph.IsList head elements := by
    rw [Graph.elements, Success.mapError_ok, collection_ok, isList_iff_lists firsts rests]
  refine ⟨fun _ => read, fun error => ⟨fun failed => ?_, ?_⟩, walk⟩
  · obtain ⟨cells, last, passes, once, -, rfl | ⟨fault, stops⟩⟩ := walk
    · cases failed.symm.trans (read.2 ⟨cells, passes, rfl⟩)
    · have breaks : graph.Breaks head fault := ⟨cells, last, passes, once, stops⟩
      rw [Graph.elements, collection_error firsts rests breaks] at failed
      exact ⟨fault, (Except.error.inj failed).symm, breaks⟩
  · rintro ⟨fault, rfl, breaks⟩
    rw [Graph.elements, collection_error firsts rests breaks]
    rfl

/-- A chain that enters a cycle behind its first cell. -/
def rho : Graph :=
  .ofList [⟨.blank "a", Vocabulary.rdfFirst, .literal (.plain "x")⟩,
    ⟨.blank "a", Vocabulary.rdfRest, .blank "b"⟩,
    ⟨.blank "b", Vocabulary.rdfFirst, .literal (.plain "y")⟩,
    ⟨.blank "b", Vocabulary.rdfRest, .iri ⟨"http://example.org/c"⟩⟩,
    ⟨.iri ⟨"http://example.org/c"⟩, Vocabulary.rdfFirst, .literal (.plain "z")⟩,
    ⟨.iri ⟨"http://example.org/c"⟩, Vocabulary.rdfRest, .blank "b"⟩]

/-- The cycle is found from outside of it. -/
theorem elements_exact_rho :
    rho.Functional Vocabulary.rdfFirst ∧ rho.Functional Vocabulary.rdfRest ∧
      rho.elements (.blank "a") = .error (.malformedCollection (.blank "a") .cycle) := by
  have firsts : rho.Functional Vocabulary.rdfFirst := by decide
  have rests : rho.Functional Vocabulary.rdfRest := by decide
  have enters : rho.Continues (.blank "a") (.literal (.plain "x")) (.blank "b") :=
    ⟨by decide, by decide, by decide⟩
  have turns : rho.Continues (.blank "b") (.literal (.plain "y"))
      (.iri ⟨"http://example.org/c"⟩) := ⟨by decide, by decide, by decide⟩
  have returns : rho.Continues (.iri ⟨"http://example.org/c"⟩) (.literal (.plain "z"))
      (.blank "b") := ⟨by decide, by decide, by decide⟩
  have breaks : rho.Breaks (.blank "a") .cycle :=
    ⟨_, .blank "b", .cell enters (.cell turns (.cell returns (.here _))), by decide,
      @Stops.cycle rho _ (.blank "b") (by decide)⟩
  exact ⟨firsts, rests, ((elements_exact firsts rests _).2.1 _).2 ⟨.cycle, rfl, breaks⟩⟩

end ShapeQuery.Rdf.Graph
