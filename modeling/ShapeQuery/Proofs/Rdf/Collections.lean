/-
This file tells which collections can be read: those whose cells lead to the empty collection. What
is read of a cell does not depend on the way to it, so that a chain which ends has no cell twice,
and none of its cells is missed because it has been used.
-/
import ShapeQuery.Proofs.Success
import ShapeQuery.Rdf.Collection

namespace ShapeQuery.Rdf.Graph

open Success (map_ok)

variable {graph : Graph}

/-! ### Chains -/

/-- A chain has no elements at the empty collection, and one more at every other cell. -/
theorem chain_ok {unused : List Node} {current : Term} {elements : List Term} :
    graph.chain unused current = .ok elements ↔
      current = .iri Vocabulary.rdfNil ∧ elements = [] ∨
      current ≠ .iri Vocabulary.rdfNil ∧ ∃ cell first rest tail, current.node? = some cell ∧
        cell ∈ unused ∧ graph.object? cell Vocabulary.rdfFirst = some first ∧
        graph.object? cell Vocabulary.rdfRest = some rest ∧
        graph.chain (unused.erase cell) rest = .ok tail ∧ first :: tail = elements := by
  rw [Graph.chain]
  split
  · rename_i empty
    simp [empty, eq_comm]
  · rename_i nonempty
    cases found : current.node? with
    | none => simp [nonempty]
    | some cell =>
      by_cases fresh : cell ∈ unused
      · cases element : graph.object? cell Vocabulary.rdfFirst with
        | none => simp [nonempty, fresh, element]
        | some first =>
          cases next : graph.object? cell Vocabulary.rdfRest with
          | none => simp [nonempty, fresh, element, next]
          | some rest => simp [nonempty, fresh, element, next, map_ok]
      · simp only [fresh, dite_false]
        split <;> simp [nonempty, fresh]

/-! ### Lists -/

/-- The list that starts at a term, as its cells tell it. -/
inductive Lists (graph : Graph) : Term → List Term → Prop
  | nil : graph.Lists (.iri Vocabulary.rdfNil) []
  | cons {head first rest : Term} {cell : Node} {tail : List Term} :
    head ≠ .iri Vocabulary.rdfNil → head.node? = some cell →
      graph.object? cell Vocabulary.rdfFirst = some first →
      graph.object? cell Vocabulary.rdfRest = some rest → graph.Lists rest tail →
        graph.Lists head (first :: tail)

theorem Lists.unique {head : Term} {elements others : List Term}
    (lists : graph.Lists head elements) (other : graph.Lists head others) : elements = others := by
  induction lists generalizing others with
  | nil =>
    cases other with
    | nil => rfl
    | cons nonempty => exact absurd rfl nonempty
  | cons nonempty found firstFound restFound _ inductionHypothesis =>
    cases other with
    | nil => exact absurd rfl nonempty
    | cons _ again firstAgain restAgain further =>
      cases found.symm.trans again
      cases firstFound.symm.trans firstAgain
      cases restFound.symm.trans restAgain
      rw [inductionHypothesis further]

theorem lists_of_chain {unused : List Node} {head : Term} {elements : List Term}
    (read : graph.chain unused head = .ok elements) : graph.Lists head elements := by
  induction elements generalizing unused head with
  | nil =>
    rcases chain_ok.1 read with ⟨rfl, -⟩ | ⟨-, _, _, _, _, -, -, -, -, -, made⟩
    · exact .nil
    · cases made
  | cons element tail inductionHypothesis =>
    rcases chain_ok.1 read with ⟨-, empty⟩ | ⟨nonempty, cell, first, rest, more, found, -,
      firstFound, restFound, further, made⟩
    · cases empty
    · cases made
      exact .cons nonempty found firstFound restFound (inductionHypothesis further)

/-- A chain can be read if no cell with a list of at most its length has been used. -/
theorem chain_of_lists {unused : List Node} {head : Term} {elements : List Term}
    (lists : graph.Lists head elements)
    (fresh : ∀ current cell others, current.node? = some cell → graph.Lists current others →
      others ≠ [] → others.length ≤ elements.length → cell ∈ unused) :
    graph.chain unused head = .ok elements := by
  induction lists generalizing unused with
  | nil => exact chain_ok.2 (.inl ⟨rfl, rfl⟩)
  | @cons head first rest cell tail nonempty found firstFound restFound lists inductionHypothesis =>
    have here : graph.Lists head (first :: tail) :=
      .cons nonempty found firstFound restFound lists
    refine chain_ok.2 (.inr ⟨nonempty, cell, first, rest, tail, found, ?_, firstFound, restFound,
      inductionHypothesis fun current other others same otherLists filled short => ?_, rfl⟩)
    · exact fresh head cell _ found here (List.cons_ne_nil first tail) (Nat.le_refl _)
    · -- The cell that is used has a longer list.
      have different : other ≠ cell := by
        rintro rfl
        have sameTerm : current = head := by
          rw [← Term.term_of_node? same, ← Term.term_of_node? found]
        rw [otherLists.unique (sameTerm ▸ here), List.length_cons] at short
        exact absurd short (Nat.not_succ_le_self _)
      exact (List.mem_erase_of_ne different).2
        (fresh current other others same otherLists filled (Nat.le_succ_of_le short))

theorem mem_subjects_of_object? {subject : Node} {predicate : Iri} {object : Term}
    (found : graph.object? subject predicate = some object) : subject ∈ graph.subjects :=
  List.mem_eraseDups.2 (List.mem_map.2 ⟨_, mem_of_object? found, rfl⟩)

/-- A collection can be read if and only if its cells tell a list. -/
theorem collection_ok {head : Term} {elements : List Term} :
    graph.collection head = .ok elements ↔ graph.Lists head elements := by
  refine ⟨lists_of_chain, fun lists => chain_of_lists lists ?_⟩
  intro current cell others found otherLists filled _
  cases otherLists with
  | nil => exact absurd rfl filled
  | cons _ again firstFound =>
    cases found.symm.trans again
    exact mem_subjects_of_object? firstFound

/-! ### Members -/

/-- Whether following the cells from a term leads to one with the given element, wherever the cells
lead further. -/
inductive HasMember (graph : Graph) : Term → Term → Prop
  | first {head member : Term} {cell : Node} :
    head ≠ .iri Vocabulary.rdfNil → head.node? = some cell →
      graph.object? cell Vocabulary.rdfFirst = some member → graph.HasMember head member
  | rest {head rest member : Term} {cell : Node} :
    head ≠ .iri Vocabulary.rdfNil → head.node? = some cell →
      graph.object? cell Vocabulary.rdfRest = some rest → graph.HasMember rest member →
        graph.HasMember head member

theorem HasMember.mem {head member : Term} (has : graph.HasMember head member)
    {elements : List Term} (lists : graph.Lists head elements) : member ∈ elements := by
  induction has generalizing elements with
  | first nonempty found firstFound =>
    cases lists with
    | nil => exact absurd rfl nonempty
    | cons _ again firstAgain =>
      cases found.symm.trans again
      cases firstFound.symm.trans firstAgain
      exact List.mem_cons_self
  | rest nonempty found restFound _ inductionHypothesis =>
    cases lists with
    | nil => exact absurd rfl nonempty
    | cons _ again _ restAgain further =>
      cases found.symm.trans again
      cases restFound.symm.trans restAgain
      exact List.mem_cons_of_mem _ (inductionHypothesis further)

end ShapeQuery.Rdf.Graph
