/-
This file says what property paths mean. A path leads from some terms to others; a query finds the
pairs among the nodes of its graph and the ends that are given in the query. A repetition is found
once for each pair, any other path as often as there are ways to follow it. From a node of the
graph, a query finds exactly where the path leads.
-/
import Mathlib.Data.List.Dedup
import Mathlib.Logic.Relation
import ShapeQuery.Rdf.Graph
import ShapeQuery.Sparql.Path

namespace ShapeQuery

open Relation (ReflTransGen TransGen)

namespace Rdf.Graph

/-- The subjects and objects of a graph, each of them once. -/
def nodes (graph : Graph) : List Term :=
  (graph.triples.flatMap fun triple => [triple.subject.term, triple.object]).dedup

/-- The triples with a predicate, as pairs of their ends. -/
def edges (graph : Graph) (predicate : Iri) : List (Term × Term) :=
  (graph.triples.filter fun triple => triple.predicate = predicate).map fun triple =>
    (triple.subject.term, triple.object)

theorem mem_nodes {graph : Graph} {term : Term} :
    term ∈ graph.nodes ↔
      ∃ triple ∈ graph.triples, term = triple.subject.term ∨ term = triple.object := by
  simp [nodes]

theorem mem_edges {graph : Graph} {predicate : Iri} {first last : Term} :
    (first, last) ∈ graph.edges predicate ↔
      ∃ triple ∈ graph.triples,
        triple.predicate = predicate ∧ triple.subject.term = first ∧ triple.object = last := by
  simp [edges, and_assoc]

theorem mem_nodes_of_mem_edges {graph : Graph} {predicate : Iri} {first last : Term}
    (member : (first, last) ∈ graph.edges predicate) :
    first ∈ graph.nodes ∧ last ∈ graph.nodes := by
  obtain ⟨triple, found, -, rfl, rfl⟩ := mem_edges.1 member
  exact ⟨mem_nodes.2 ⟨triple, found, .inl rfl⟩, mem_nodes.2 ⟨triple, found, .inr rfl⟩⟩

end Rdf.Graph

namespace Sparql.Path

/-! ### Where paths lead -/

mutual

/-- Whether a path leads from a term to another one. -/
def Leads (graph : Rdf.Graph) : Path → Rdf.Term → Rdf.Term → Prop
  | .predicate iri, first, last => (first, last) ∈ graph.edges iri
  | .inverse path, first, last => path.Leads graph last first
  | .sequence paths, first, last => ChainLeads graph paths first last
  | .alternative paths, first, last => SomeLeads graph paths first last
  | .zeroOrMore path, first, last => ReflTransGen (path.Leads graph) first last
  | .oneOrMore path, first, last => TransGen (path.Leads graph) first last
  | .zeroOrOne path, first, last => first = last ∨ path.Leads graph first last

/-- Whether paths lead one after another from a term to another one. -/
def ChainLeads (graph : Rdf.Graph) : List Path → Rdf.Term → Rdf.Term → Prop
  | [], first, last => first = last
  | path :: rest, first, last =>
    ∃ middle, path.Leads graph first middle ∧ ChainLeads graph rest middle last

/-- Whether one of some paths leads from a term to another one. -/
def SomeLeads (graph : Rdf.Graph) : List Path → Rdf.Term → Rdf.Term → Prop
  | [], _, _ => False
  | path :: rest, first, last =>
    path.Leads graph first last ∨ SomeLeads graph rest first last

end

mutual

/-- A path leads between nodes of the graph, or between other terms. -/
theorem mem_nodes_iff_of_leads {graph : Rdf.Graph} (path : Path) {first last : Rdf.Term}
    (leads : path.Leads graph first last) : first ∈ graph.nodes ↔ last ∈ graph.nodes := by
  match path with
  | .predicate iri =>
    obtain ⟨firstNode, lastNode⟩ := Rdf.Graph.mem_nodes_of_mem_edges leads
    exact iff_of_true firstNode lastNode
  | .inverse path => exact (mem_nodes_iff_of_leads path leads).symm
  | .sequence paths => exact mem_nodes_iff_of_chainLeads paths leads
  | .alternative paths => exact mem_nodes_iff_of_someLeads paths leads
  | .zeroOrMore path =>
    have step {middle next : Rdf.Term} : path.Leads graph middle next →
        (middle ∈ graph.nodes ↔ next ∈ graph.nodes) := mem_nodes_iff_of_leads path
    induction leads with
    | refl => exact Iff.rfl
    | tail _ last inductionHypothesis => exact inductionHypothesis.trans (step last)
  | .oneOrMore path =>
    have step {middle next : Rdf.Term} : path.Leads graph middle next →
        (middle ∈ graph.nodes ↔ next ∈ graph.nodes) := mem_nodes_iff_of_leads path
    induction leads with
    | single only => exact step only
    | tail _ last inductionHypothesis => exact inductionHypothesis.trans (step last)
  | .zeroOrOne path =>
    rcases leads with rfl | leads
    · exact Iff.rfl
    · exact mem_nodes_iff_of_leads path leads

theorem mem_nodes_iff_of_chainLeads {graph : Rdf.Graph} (paths : List Path)
    {first last : Rdf.Term} (leads : ChainLeads graph paths first last) :
    first ∈ graph.nodes ↔ last ∈ graph.nodes := by
  match paths with
  | [] => exact leads ▸ Iff.rfl
  | path :: rest =>
    obtain ⟨middle, one, others⟩ := leads
    exact (mem_nodes_iff_of_leads path one).trans (mem_nodes_iff_of_chainLeads rest others)

theorem mem_nodes_iff_of_someLeads {graph : Rdf.Graph} (paths : List Path)
    {first last : Rdf.Term} (leads : SomeLeads graph paths first last) :
    first ∈ graph.nodes ↔ last ∈ graph.nodes := by
  match paths with
  | [] => exact leads.elim
  | path :: rest =>
    rcases leads with one | others
    · exact mem_nodes_iff_of_leads path one
    · exact mem_nodes_iff_of_someLeads rest others

end

/-! ### What queries find -/

/-- The terms between which a query looks for repetitions: the nodes of the graph and the given
ends. -/
def ends (graph : Rdf.Graph) (start finish : Option Rdf.Term) : List Rdf.Term :=
  (graph.nodes ++ start.toList ++ finish.toList).dedup

/-- The pairs of some terms that are in a relation. -/
noncomputable def related (terms : List Rdf.Term) (relation : Rdf.Term → Rdf.Term → Prop) :
    List (Rdf.Term × Rdf.Term) :=
  open Classical in
  (terms.product terms).filter fun pair => relation pair.1 pair.2

/-- The pairs that go along a pair of the first list and then along one of the second list. -/
def composed (first second : List (Rdf.Term × Rdf.Term)) : List (Rdf.Term × Rdf.Term) :=
  first.flatMap fun one =>
    (second.filter fun other => one.2 = other.1).map fun other => (one.1, other.2)

mutual

/-- The pairs that a query finds for a path with the given ends. -/
noncomputable def pairs (graph : Rdf.Graph) (start finish : Option Rdf.Term) :
    Path → List (Rdf.Term × Rdf.Term)
  | .predicate iri => graph.edges iri
  | .inverse path => (path.pairs graph finish start).map Prod.swap
  | .sequence paths => chainPairs graph start finish paths
  | .alternative paths => somePairs graph start finish paths
  | .zeroOrMore path =>
    related (ends graph start finish)
      (ReflTransGen fun first last => (first, last) ∈ path.pairs graph start finish)
  | .oneOrMore path =>
    related (ends graph start finish)
      (TransGen fun first last => (first, last) ∈ path.pairs graph start finish)
  | .zeroOrOne path =>
    related (ends graph start finish) fun first last =>
      first = last ∨ (first, last) ∈ path.pairs graph start finish

/-- The pairs that a query finds for paths one after another. The nodes between them are not
given. -/
noncomputable def chainPairs (graph : Rdf.Graph) (start finish : Option Rdf.Term) :
    List Path → List (Rdf.Term × Rdf.Term)
  | [] => related (ends graph start finish) (· = ·)
  | [path] => path.pairs graph start finish
  | path :: rest => composed (path.pairs graph start none) (chainPairs graph none finish rest)

/-- The pairs that a query finds for each of some paths. -/
noncomputable def somePairs (graph : Rdf.Graph) (start finish : Option Rdf.Term) :
    List Path → List (Rdf.Term × Rdf.Term)
  | [] => []
  | path :: rest => path.pairs graph start finish ++ somePairs graph start finish rest

end

theorem mem_ends_of_mem_nodes {graph : Rdf.Graph} {start finish : Option Rdf.Term}
    {term : Rdf.Term} (member : term ∈ graph.nodes) : term ∈ ends graph start finish := by
  simp [ends, member]

theorem mem_related {terms : List Rdf.Term} {relation : Rdf.Term → Rdf.Term → Prop}
    {first last : Rdf.Term} :
    (first, last) ∈ related terms relation ↔
      first ∈ terms ∧ last ∈ terms ∧ relation first last := by
  simp [related, List.pair_mem_product, and_assoc]

theorem mem_composed {left right : List (Rdf.Term × Rdf.Term)} {first last : Rdf.Term} :
    (first, last) ∈ composed left right ↔
      ∃ middle, (first, middle) ∈ left ∧ (middle, last) ∈ right := by
  simp only [composed, List.mem_flatMap, List.mem_map, List.mem_filter, decide_eq_true_eq,
    Prod.mk.injEq, Prod.exists]
  constructor
  · rintro ⟨_, middle, one, _, _, ⟨other, rfl⟩, rfl, rfl⟩
    exact ⟨middle, one, other⟩
  · rintro ⟨middle, one, other⟩
    exact ⟨first, middle, one, middle, last, ⟨other, rfl⟩, rfl, rfl⟩

mutual

/-- A query finds a pair only if the path leads from one to the other. -/
theorem leads_of_mem_pairs {graph : Rdf.Graph} {start finish : Option Rdf.Term} (path : Path)
    {first last : Rdf.Term} (member : (first, last) ∈ path.pairs graph start finish) :
    path.Leads graph first last := by
  match path with
  | .predicate iri => exact member
  | .inverse path =>
    obtain ⟨⟨_, _⟩, found, swapped⟩ := List.mem_map.1 member
    cases swapped
    exact leads_of_mem_pairs path found
  | .sequence paths => exact chainLeads_of_mem_pairs paths member
  | .alternative paths => exact someLeads_of_mem_pairs paths member
  | .zeroOrMore path =>
    exact ReflTransGen.mono (fun _ _ => leads_of_mem_pairs path) _ _
      (mem_related.1 member).2.2
  | .oneOrMore path =>
    exact TransGen.mono (fun _ _ => leads_of_mem_pairs path) _ _
      (mem_related.1 member).2.2
  | .zeroOrOne path =>
    exact (mem_related.1 member).2.2.imp_right (leads_of_mem_pairs path)

theorem chainLeads_of_mem_pairs {graph : Rdf.Graph} {start finish : Option Rdf.Term}
    (paths : List Path) {first last : Rdf.Term}
    (member : (first, last) ∈ chainPairs graph start finish paths) :
    ChainLeads graph paths first last := by
  match paths with
  | [] => exact (mem_related.1 member).2.2
  | [path] => exact ⟨last, leads_of_mem_pairs path member, rfl⟩
  | path :: next :: rest =>
    obtain ⟨middle, one, others⟩ := mem_composed.1 member
    exact ⟨middle, leads_of_mem_pairs path one, chainLeads_of_mem_pairs (next :: rest) others⟩

theorem someLeads_of_mem_pairs {graph : Rdf.Graph} {start finish : Option Rdf.Term}
    (paths : List Path) {first last : Rdf.Term}
    (member : (first, last) ∈ somePairs graph start finish paths) :
    SomeLeads graph paths first last := by
  match paths with
  | [] => exact absurd member List.not_mem_nil
  | path :: rest =>
    rcases List.mem_append.1 member with one | others
    · exact .inl (leads_of_mem_pairs path one)
    · exact .inr (someLeads_of_mem_pairs rest others)

end

/-- A chain of steps from a node is a chain of found steps if every step from a node is found. -/
theorem reflTransGen_of_found {graph : Rdf.Graph} {path : Path}
    {found : Rdf.Term → Rdf.Term → Prop}
    (step : ∀ {first last}, first ∈ graph.nodes → path.Leads graph first last → found first last)
    {first last : Rdf.Term} (node : first ∈ graph.nodes)
    (leads : ReflTransGen (path.Leads graph) first last) :
    last ∈ graph.nodes ∧ ReflTransGen found first last := by
  induction leads with
  | refl => exact ⟨node, .refl⟩
  | tail _ last inductionHypothesis =>
    obtain ⟨middleNode, steps⟩ := inductionHypothesis
    exact ⟨(mem_nodes_iff_of_leads path last).1 middleNode, steps.tail (step middleNode last)⟩

mutual

/-- From a node of the graph a query finds every pair that the path leads along. -/
theorem mem_pairs_of_leads {graph : Rdf.Graph} (path : Path) {first last : Rdf.Term}
    (start finish : Option Rdf.Term) (node : first ∈ graph.nodes)
    (leads : path.Leads graph first last) : (first, last) ∈ path.pairs graph start finish := by
  have lastNode := (mem_nodes_iff_of_leads path leads).1 node
  match path with
  | .predicate iri => exact leads
  | .inverse path =>
    exact List.mem_map.2
      ⟨(last, first), mem_pairs_of_leads path finish start lastNode leads, rfl⟩
  | .sequence paths => exact mem_chainPairs_of_leads paths start finish node leads
  | .alternative paths => exact mem_somePairs_of_leads paths start finish node leads
  | .zeroOrMore path =>
    have step {middle next : Rdf.Term} : middle ∈ graph.nodes → path.Leads graph middle next →
        (middle, next) ∈ path.pairs graph start finish := mem_pairs_of_leads path start finish
    exact mem_related.2 ⟨mem_ends_of_mem_nodes node, mem_ends_of_mem_nodes lastNode,
      (reflTransGen_of_found step node leads).2⟩
  | .oneOrMore path =>
    have step {middle next : Rdf.Term} : middle ∈ graph.nodes → path.Leads graph middle next →
        (middle, next) ∈ path.pairs graph start finish := mem_pairs_of_leads path start finish
    obtain ⟨middle, steps, final⟩ := TransGen.tail'_iff.1 leads
    obtain ⟨middleNode, found⟩ := reflTransGen_of_found step node steps
    exact mem_related.2 ⟨mem_ends_of_mem_nodes node, mem_ends_of_mem_nodes lastNode,
      TransGen.tail' found (step middleNode final)⟩
  | .zeroOrOne path =>
    exact mem_related.2 ⟨mem_ends_of_mem_nodes node, mem_ends_of_mem_nodes lastNode,
      leads.imp_right (mem_pairs_of_leads path start finish node)⟩

theorem mem_chainPairs_of_leads {graph : Rdf.Graph} (paths : List Path)
    {first last : Rdf.Term} (start finish : Option Rdf.Term) (node : first ∈ graph.nodes)
    (leads : ChainLeads graph paths first last) :
    (first, last) ∈ chainPairs graph start finish paths := by
  match paths with
  | [] =>
    have same : first = last := leads
    subst same
    exact mem_related.2
      ⟨mem_ends_of_mem_nodes node, mem_ends_of_mem_nodes node, rfl⟩
  | [path] =>
    obtain ⟨middle, one, same⟩ := leads
    have same : middle = last := same
    subst same
    exact mem_pairs_of_leads path start finish node one
  | path :: next :: rest =>
    obtain ⟨middle, one, others⟩ := leads
    have middleNode := (mem_nodes_iff_of_leads path one).1 node
    exact mem_composed.2 ⟨middle, mem_pairs_of_leads path start none node one,
      mem_chainPairs_of_leads (next :: rest) none finish middleNode others⟩

theorem mem_somePairs_of_leads {graph : Rdf.Graph} (paths : List Path)
    {first last : Rdf.Term} (start finish : Option Rdf.Term) (node : first ∈ graph.nodes)
    (leads : SomeLeads graph paths first last) :
    (first, last) ∈ somePairs graph start finish paths := by
  match paths with
  | [] => exact leads.elim
  | path :: rest =>
    rcases leads with one | others
    · exact List.mem_append.2 (.inl (mem_pairs_of_leads path start finish node one))
    · exact List.mem_append.2 (.inr (mem_somePairs_of_leads rest start finish node others))

end

theorem mem_nodes_of_mem_related {graph : Rdf.Graph} {relation : Rdf.Term → Rdf.Term → Prop}
    {first last : Rdf.Term} (member : (first, last) ∈ related (ends graph none none) relation) :
    first ∈ graph.nodes := by
  simpa [ends] using (mem_related.1 member).1

mutual

/-- Without given ends a query finds pairs of nodes only. -/
theorem mem_nodes_of_mem_pairs {graph : Rdf.Graph} (path : Path) {first last : Rdf.Term}
    (member : (first, last) ∈ path.pairs graph none none) : first ∈ graph.nodes := by
  match path with
  | .predicate iri => exact (Rdf.Graph.mem_nodes_of_mem_edges member).1
  | .inverse path =>
    obtain ⟨⟨_, _⟩, found, swapped⟩ := List.mem_map.1 member
    cases swapped
    exact (mem_nodes_iff_of_leads path (leads_of_mem_pairs path found)).1
      (mem_nodes_of_mem_pairs path found)
  | .sequence paths => exact mem_nodes_of_mem_chainPairs paths member
  | .alternative paths => exact mem_nodes_of_mem_somePairs paths member
  | .zeroOrMore path => exact mem_nodes_of_mem_related member
  | .oneOrMore path => exact mem_nodes_of_mem_related member
  | .zeroOrOne path => exact mem_nodes_of_mem_related member

theorem mem_nodes_of_mem_chainPairs {graph : Rdf.Graph} (paths : List Path)
    {first last : Rdf.Term} (member : (first, last) ∈ chainPairs graph none none paths) :
    first ∈ graph.nodes := by
  match paths with
  | [] => exact mem_nodes_of_mem_related member
  | [path] => exact mem_nodes_of_mem_pairs path member
  | path :: next :: rest =>
    obtain ⟨middle, one, -⟩ := mem_composed.1 member
    exact mem_nodes_of_mem_pairs path one

theorem mem_nodes_of_mem_somePairs {graph : Rdf.Graph} (paths : List Path)
    {first last : Rdf.Term} (member : (first, last) ∈ somePairs graph none none paths) :
    first ∈ graph.nodes := by
  match paths with
  | [] => exact absurd member List.not_mem_nil
  | path :: rest =>
    rcases List.mem_append.1 member with one | others
    · exact mem_nodes_of_mem_pairs path one
    · exact mem_nodes_of_mem_somePairs rest others

end

/-- From a node of the graph a query finds exactly where the path leads, whatever ends are
given. -/
theorem mem_pairs {graph : Rdf.Graph} {start finish : Option Rdf.Term} {path : Path}
    {first last : Rdf.Term} (node : first ∈ graph.nodes) :
    (first, last) ∈ path.pairs graph start finish ↔ path.Leads graph first last :=
  ⟨leads_of_mem_pairs path, mem_pairs_of_leads path start finish node⟩

end Sparql.Path

end ShapeQuery
