/-
This file defines RDF graphs: finite sets of triples, looked up by subject and predicate.
-/
import ShapeQuery.Rdf.Term

namespace ShapeQuery.Rdf

/-- A triple of a graph. -/
structure Triple where
  subject : Node
  predicate : Iri
  object : Term
deriving DecidableEq, Inhabited

/-- A finite set of triples. -/
structure Graph where
  triples : List Triple
  distinct : triples.Nodup

namespace Graph

/-- The graph without triples. -/
def empty : Graph := ⟨[], List.nodup_nil⟩

instance : Inhabited Graph := ⟨empty⟩

/-- The graph with one more triple, unless it has that triple already. -/
def insert (graph : Graph) (triple : Triple) : Graph :=
  if fresh : triple ∈ graph.triples then graph
  else ⟨triple :: graph.triples, List.nodup_cons.2 ⟨fresh, graph.distinct⟩⟩

/-- The graph of some triples. -/
def ofList (triples : List Triple) : Graph :=
  triples.foldl insert empty

/-- The number of triples. -/
def size (graph : Graph) : Nat :=
  graph.triples.length

/-- Whether a node is the subject of a triple. -/
def hasSubject (graph : Graph) (subject : Node) : Bool :=
  graph.triples.any fun triple => triple.subject = subject

/-- The objects of the triples with the given subject and predicate. -/
def objects (graph : Graph) (subject : Node) (predicate : Iri) : List Term :=
  (graph.triples.filter fun triple =>
    triple.subject = subject && triple.predicate = predicate).map Triple.object

/-- An object of a triple with the given subject and predicate, for predicates that have at most
one. -/
def object? (graph : Graph) (subject : Node) (predicate : Iri) : Option Term :=
  (graph.objects subject predicate).head?

/-! ### Membership -/

@[simp] theorem mem_insert {graph : Graph} {triple other : Triple} :
    other ∈ (graph.insert triple).triples ↔ other = triple ∨ other ∈ graph.triples := by
  unfold insert
  split
  · constructor
    · exact Or.inr
    · rintro (rfl | member)
      · assumption
      · exact member
  · exact List.mem_cons

theorem mem_foldl_insert (triples : List Triple) (graph : Graph) (triple : Triple) :
    triple ∈ (triples.foldl insert graph).triples ↔
      triple ∈ triples ∨ triple ∈ graph.triples := by
  induction triples generalizing graph with
  | nil => simp
  | cons head rest inductionHypothesis =>
    rw [List.foldl_cons, inductionHypothesis, mem_insert, List.mem_cons]
    constructor
    · rintro (inRest | rfl | inGraph)
      · exact .inl (.inr inRest)
      · exact .inl (.inl rfl)
      · exact .inr inGraph
    · rintro ((rfl | inRest) | inGraph)
      · exact .inr (.inl rfl)
      · exact .inl inRest
      · exact .inr (.inr inGraph)

@[simp] theorem mem_ofList {triples : List Triple} {triple : Triple} :
    triple ∈ (ofList triples).triples ↔ triple ∈ triples := by
  rw [ofList, mem_foldl_insert]
  simp [empty]

theorem mem_objects {graph : Graph} {subject : Node} {predicate : Iri} {object : Term} :
    object ∈ graph.objects subject predicate ↔ ⟨subject, predicate, object⟩ ∈ graph.triples := by
  simp only [objects, List.mem_map, List.mem_filter, Bool.and_eq_true, decide_eq_true_eq]
  constructor
  · rintro ⟨⟨_, _, _⟩, ⟨member, rfl, rfl⟩, rfl⟩
    exact member
  · intro member
    exact ⟨_, ⟨member, rfl, rfl⟩, rfl⟩

theorem mem_of_object? {graph : Graph} {subject : Node} {predicate : Iri} {object : Term}
    (found : graph.object? subject predicate = some object) :
    ⟨subject, predicate, object⟩ ∈ graph.triples :=
  mem_objects.1 (List.mem_of_head? found)

end Graph

end ShapeQuery.Rdf
