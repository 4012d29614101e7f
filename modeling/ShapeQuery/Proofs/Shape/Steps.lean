/-
This file proves that the patterns for the steps of a path are met only where the path leads, and
from the nodes of the graph wherever it does, and the pattern for some classes where a term has one
of them. The nodes of a walk are numbered, so that the values of the nodes before a step do not
depend on those after it.
-/
import ShapeQuery.Proofs.Shape.Conformance
import ShapeQuery.Proofs.Shape.Replacement
import ShapeQuery.Proofs.Sparql.Matching

namespace ShapeQuery

open Sparql (Path Term Variable Group Valuation Unknown AllMet AllPositive met_column)
open Shape (Slot)

namespace Sparql.Path

variable {graph : Rdf.Graph} {valuation : Valuation}

/-! ### Single steps -/

theorem inverse_of_inversePredicate? {path : Path} {iri : Iri}
    (backwards : path.inversePredicate? = some iri) : path = .inverse (.predicate iri) := by
  cases path with
  | inverse inner =>
    cases inner with
    | predicate name =>
      cases backwards
      rfl
    | _ => cases backwards
  | _ => cases backwards

/-- The triple of a step is met only where the path leads. -/
theorem leads_of_met_step {path : Path} {subject object : Term}
    (met : (path.step subject object).Met graph valuation) :
    path.Leads graph (valuation.term subject) (valuation.term object) := by
  unfold step at met
  split at met
  · rename_i iri backwards
    rw [inverse_of_inversePredicate? backwards]
    exact met
  · exact leads_of_mem_pairs path met

/-- From a node of the graph, the triple of a step is met where the path leads. -/
theorem met_step {path : Path} {subject object : Term}
    (node : valuation.term subject ∈ graph.nodes) :
    (path.step subject object).Met graph valuation ↔
      path.Leads graph (valuation.term subject) (valuation.term object) := by
  refine ⟨leads_of_met_step, fun leads => ?_⟩
  unfold step
  split
  · rename_i iri backwards
    rw [inverse_of_inversePredicate? backwards] at leads
    exact leads
  · exact (mem_pairs node).2 leads

theorem someLeads_iff {paths : List Path} {first last : Rdf.Term} :
    SomeLeads graph paths first last ↔ ∃ path ∈ paths, path.Leads graph first last := by
  induction paths with
  | nil => exact iff_of_false id nofun
  | cons path rest inductionHypothesis =>
    rw [SomeLeads, inductionHypothesis, List.exists_mem_cons_iff]

theorem allMet_single {triple : TriplePattern} :
    AllMet graph valuation [.triple triple] ↔ triple.Met graph valuation :=
  and_iff_left trivial

theorem leads_of_met_hop {path : Path} {subject object : Term}
    (met : AllMet graph valuation (path.hop subject object).pattern) :
    path.Leads graph (valuation.term subject) (valuation.term object) := by
  unfold hop at met
  split at met
  · obtain ⟨branch, chosen, branchMet⟩ := someMet_iff.1 met.1
    obtain ⟨member, among, rfl⟩ := List.mem_map.1 chosen
    exact someLeads_iff.2 ⟨member, among, leads_of_met_step (allMet_single.1 branchMet)⟩
  · exact leads_of_met_step (allMet_single.1 met)

theorem met_hop {path : Path} {subject object : Term}
    (node : valuation.term subject ∈ graph.nodes) :
    AllMet graph valuation (path.hop subject object).pattern ↔
      path.Leads graph (valuation.term subject) (valuation.term object) := by
  refine ⟨leads_of_met_hop, fun leads => ?_⟩
  unfold hop
  split
  · obtain ⟨member, among, one⟩ := someLeads_iff.1 leads
    have found := allMet_single.2 ((met_step node).2 one)
    exact ⟨someMet_iff.2 ⟨_, List.mem_map_of_mem among, found⟩, trivial⟩
  · exact allMet_single.2 ((met_step node).2 leads)

theorem leads_of_met_whole {path : Path} {subject object : Term}
    (met : AllMet graph valuation (path.whole subject object).pattern) :
    path.Leads graph (valuation.term subject) (valuation.term object) := by
  unfold whole at met
  split at met
  · exact leads_of_mem_pairs _ (allMet_single.1 met)
  · exact leads_of_met_step (allMet_single.1 met)

theorem met_whole {path : Path} {subject object : Term}
    (node : valuation.term subject ∈ graph.nodes) :
    AllMet graph valuation (path.whole subject object).pattern ↔
      path.Leads graph (valuation.term subject) (valuation.term object) := by
  refine ⟨leads_of_met_whole, fun leads => ?_⟩
  unfold whole
  split
  · exact allMet_single.2 ((mem_pairs node).2 leads)
  · exact allMet_single.2 ((met_step node).2 leads)

/-! ### Steps between variables -/

section Free

variable {subject object : Term} (subjectFree : subject.value .empty = none)
  (objectFree : object.value .empty = none)

include subjectFree objectFree

/-- A step between variables starts at a node of the graph. -/
theorem node_of_met_step {path : Path} (met : (path.step subject object).Met graph valuation) :
    valuation.term subject ∈ graph.nodes := by
  unfold step at met
  split at met
  · exact (Rdf.Graph.mem_nodes_of_mem_edges met).2
  · unfold TriplePattern.Met at met
    rw [subjectFree, objectFree] at met
    exact mem_nodes_of_mem_pairs path met

theorem node_of_met_hop {path : Path}
    (met : AllMet graph valuation (path.hop subject object).pattern) :
    valuation.term subject ∈ graph.nodes := by
  unfold hop at met
  split at met
  · obtain ⟨branch, chosen, branchMet⟩ := someMet_iff.1 met.1
    obtain ⟨member, -, rfl⟩ := List.mem_map.1 chosen
    exact node_of_met_step subjectFree objectFree (allMet_single.1 branchMet)
  · exact node_of_met_step subjectFree objectFree (allMet_single.1 met)

theorem node_of_met_whole {path : Path}
    (met : AllMet graph valuation (path.whole subject object).pattern) :
    valuation.term subject ∈ graph.nodes := by
  unfold whole at met
  split at met
  · have met := allMet_single.1 met
    unfold TriplePattern.Met at met
    rw [subjectFree, objectFree] at met
    exact mem_nodes_of_mem_pairs _ met
  · exact node_of_met_step subjectFree objectFree (allMet_single.1 met)

end Free

/-! ### Walks -/

/-- Nodes with successive numbers. -/
def numbered (stem : String) (first count : Nat) : List Term :=
  (List.range count).map fun offset => .var ((Slot.node (first + offset)).toVariable stem)

theorem numbered_succ (stem : String) (first count : Nat) :
    numbered stem first (count + 1) =
      .var ((Slot.node first).toVariable stem) :: numbered stem (first + 1) count := by
  unfold numbered
  rw [List.range_succ_eq_map, List.map_cons, List.map_map]
  refine congrArg (List.cons _) (List.map_congr_left fun offset _ => ?_)
  rw [Function.comp_apply, Nat.succ_eq_add_one, Nat.add_assoc, Nat.add_comm 1 offset]

/-- A walk that is met goes along its steps. -/
theorem chainLeads_of_met {steps : List (Path × Term)} {subject : Term}
    (met : AllMet graph valuation (walk subject steps).pattern) :
    ChainLeads graph (steps.map Prod.fst) (valuation.term subject)
      (valuation.term ((steps.map Prod.snd).getLast?.getD subject)) := by
  induction steps generalizing subject with
  | nil => rfl
  | cons step rest inductionHypothesis =>
    obtain ⟨path, object⟩ := step
    obtain ⟨one, others⟩ := allMet_append.1 met
    rw [List.map_cons, List.map_cons, List.getLast?_cons, Option.getD_some]
    exact ⟨_, leads_of_met_hop one, inductionHypothesis others⟩

/-- A walk with a step between variables starts at a node of the graph, since it never leaves the
nodes nor comes to them from outside. -/
theorem node_of_met_walk {first second : Path} {subject middle next : Term}
    {rest : List (Path × Term)} (middleFree : middle.value .empty = none)
    (nextFree : next.value .empty = none)
    (met : AllMet graph valuation
      (walk subject ((first, middle) :: (second, next) :: rest)).pattern) :
    valuation.term subject ∈ graph.nodes := by
  obtain ⟨one, others⟩ := allMet_append.1 met
  obtain ⟨two, -⟩ := allMet_append.1 others
  have middleNode := node_of_met_hop middleFree nextFree two
  exact (mem_nodes_iff_of_leads first (leads_of_met_hop one)).2 middleNode

/-- Whether an unknown is no node from a number on. -/
def Earlier (stem : String) (first : Nat) (unknown : Unknown) : Prop :=
  ∀ number, first ≤ number → unknown ≠ .var ((Slot.node number).toVariable stem)

theorem Earlier.later {stem : String} {first : Nat} {unknown : Unknown}
    (earlier : Earlier stem first unknown) : Earlier stem (first + 1) unknown :=
  fun number above => earlier number (Nat.le_of_succ_le above)

theorem earlier_node (stem : String) (number : Nat) :
    Earlier stem (number + 1) (.var ((Slot.node number).toVariable stem)) := by
  intro other above equal
  have slots := Slot.toVariable_injective stem (Unknown.var.inj equal)
  exact absurd (Slot.node.inj slots) (Nat.ne_of_lt above)

/-- Where steps lead, a walk with numbered nodes is met by changing the values of its nodes. -/
theorem exists_met_walk {paths : List Path} {stem : String} {first : Nat} {subject : Term}
    {last : Rdf.Term} (node : valuation.term subject ∈ graph.nodes)
    (earlier : ∀ unknown, subject.unknown? = some unknown → Earlier stem first unknown)
    (leads : ChainLeads graph paths (valuation.term subject) last) :
    ∃ changed : Valuation, (∀ unknown, Earlier stem first unknown →
        changed unknown = valuation unknown) ∧
      AllMet graph changed (walk subject (paths.zip (numbered stem first paths.length))).pattern ∧
      changed.term ((numbered stem first paths.length).getLast?.getD subject) = last := by
  induction paths generalizing valuation subject first with
  | nil => exact ⟨valuation, fun _ _ => rfl, trivial, leads⟩
  | cons path rest inductionHypothesis =>
    obtain ⟨middle, one, others⟩ := leads
    -- The value of the next node is fixed first; the other nodes come after it.
    let next : Term := .var ((Slot.node first).toVariable stem)
    let updated : Valuation :=
      Function.update valuation (.var ((Slot.node first).toVariable stem)) middle
    have nextValue : updated.term next = middle := Function.update_self ..
    have nextNode : updated.term next ∈ graph.nodes := by
      rw [nextValue]
      exact (mem_nodes_iff_of_leads path one).1 node
    have nextEarlier : ∀ unknown, next.unknown? = some unknown →
        Earlier stem (first + 1) unknown := by
      intro unknown same
      cases same
      exact earlier_node stem first
    rw [← nextValue] at others
    obtain ⟨changed, kept, met, ended⟩ := inductionHypothesis nextNode nextEarlier others
    have before {unknown : Unknown} (unnamed : Earlier stem first unknown) :
        changed unknown = valuation unknown := by
      rw [kept unknown unnamed.later]
      exact Function.update_of_ne (unnamed first (Nat.le_refl _)) ..
    have subjectValue : changed.term subject = valuation.term subject :=
      Valuation.term_congr fun unknown named => before (earlier unknown named)
    refine ⟨changed, fun unknown => before, ?_, ?_⟩
    · rw [List.length_cons, numbered_succ, List.zip_cons_cons, walk]
      refine allMet_append.2 ⟨?_, met⟩
      rw [met_hop (by rwa [subjectValue]), subjectValue,
        Valuation.term_congr (fun unknown named => kept unknown (nextEarlier unknown named)),
        nextValue]
      exact one
    · rw [List.length_cons, numbered_succ, List.getLast?_cons, Option.getD_some]
      exact ended

/-! ### Parts of patterns -/

theorem positive_hop (path : Path) (subject object : Term) :
    AllPositive (path.hop subject object).pattern := by
  unfold hop
  split
  · refine ⟨branchesPositive_iff.2 fun branch member => ?_, trivial⟩
    obtain ⟨inner, -, rfl⟩ := List.mem_map.1 member
    exact ⟨trivial, trivial⟩
  · exact ⟨trivial, trivial⟩

theorem positive_whole (path : Path) (subject object : Term) :
    AllPositive (path.whole subject object).pattern := by
  unfold whole
  split <;> exact ⟨trivial, trivial⟩

theorem positive_walk (steps : List (Path × Term)) (subject : Term) :
    AllPositive (walk subject steps).pattern := by
  induction steps generalizing subject with
  | nil => trivial
  | cons step rest inductionHypothesis =>
    exact allPositive_append.2 ⟨positive_hop _ _ _, inductionHypothesis _⟩

end Sparql.Path

/-! ### Classes -/

namespace Fragment

variable {graph : Rdf.Graph} {valuation : Valuation}

theorem positive_classified (node : Term) (classVariable : Variable) (classes : List Iri) :
    AllPositive (classified node classVariable classes).pattern := by
  match classes with
  | [] => trivial
  | [single] => exact ⟨trivial, trivial⟩
  | first :: second :: rest => exact ⟨trivial, trivial, trivial⟩

/-- A term whose class pattern is met has one of the classes, if there are any. -/
theorem hasClass_of_met {node : Term} {classVariable : Variable} {classes : List Iri}
    (met : AllMet graph valuation (classified node classVariable classes).pattern) :
    classes = [] ∨ graph.HasClass (valuation.term node) classes := by
  match classes with
  | [] => exact .inl rfl
  | [single] => exact .inr ⟨single, List.mem_cons_self, met.1⟩
  | first :: second :: rest =>
    obtain ⟨typed, listed, -⟩ := met
    obtain ⟨value, member, named⟩ := met_column.1 listed
    obtain ⟨name, among, rfl⟩ := List.mem_map.1 member
    have same : valuation (.var classVariable) = .iri name := named _ rfl
    refine .inr ⟨name, among, ?_⟩
    rw [← same]
    exact typed

/-- The class pattern is met where a term has the class that its variable stands for. -/
theorem met_classified {node : Term} {classVariable : Variable} {classes : List Iri} {name : Iri}
    (named : valuation (.var classVariable) = .iri name)
    (typed : classes = [] ∨ name ∈ classes ∧
      (valuation.term node, .iri name) ∈ graph.edges Vocabulary.rdfType) :
    AllMet graph valuation (classified node classVariable classes).pattern := by
  match classes with
  | [] => trivial
  | [single] =>
    obtain ⟨among, found⟩ := typed.resolve_left (List.cons_ne_nil _ _)
    rw [List.mem_singleton.1 among] at found
    exact ⟨found, trivial⟩
  | first :: second :: rest =>
    obtain ⟨among, found⟩ := typed.resolve_left (List.cons_ne_nil _ _)
    refine ⟨?_, met_column.2 ⟨.iri name, List.mem_map_of_mem among, fun term same => ?_⟩, trivial⟩
    · show (valuation.term node, valuation (.var classVariable)) ∈ graph.edges _
      rw [named]
      exact found
    · rw [named]
      exact Option.some.inj same

end Fragment

/-! ### Unknowns -/

section Unknowns

theorem mem_unknowns_triple {subject object : Term} {verb : Sparql.Verb} {unknown : Unknown}
    (member : unknown ∈ Group.unknowns [.triple ⟨subject, verb, object⟩]) :
    subject.unknown? = some unknown ∨ (∃ name, verb = .var name ∧ unknown = .var name) ∨
      object.unknown? = some unknown := by
  rw [Group.unknowns, Sparql.groupAtoms, Sparql.groupAtoms, List.append_nil, Sparql.Element.atoms,
    Sparql.TriplePattern.atoms] at member
  obtain ⟨atom, found, named⟩ := List.mem_filterMap.1 member
  rcases List.mem_cons.1 found with rfl | later
  · exact .inl named
  rcases List.mem_append.1 later with inVerb | inObject
  · obtain ⟨term, written, rfl⟩ := List.mem_map.1 inVerb
    cases verb with
    | var name =>
      rw [Sparql.Verb.term?, Option.toList_some, List.mem_singleton] at written
      rw [written] at named
      exact .inr (.inl ⟨name, rfl, (Option.some.inj named).symm⟩)
    | path route =>
      rw [Sparql.Verb.term?, Option.mem_toList, Option.map_eq_some_iff] at written
      obtain ⟨iri, -, rfl⟩ := written
      cases named
  · rw [List.mem_singleton.1 inObject] at named
    exact .inr (.inr named)

theorem Sparql.Path.mem_unknowns_step {path : Path} {subject object : Term} {unknown : Unknown}
    (member : unknown ∈ Group.unknowns [.triple (path.step subject object)]) :
    subject.unknown? = some unknown ∨ object.unknown? = some unknown := by
  unfold step at member
  split at member
  · rcases mem_unknowns_triple member with inObject | ⟨_, verb, -⟩ | inSubject
    · exact .inr inObject
    · cases verb
    · exact .inl inSubject
  · rcases mem_unknowns_triple member with inSubject | ⟨_, verb, -⟩ | inObject
    · exact .inl inSubject
    · cases verb
    · exact .inr inObject

/-- The unknowns of a union are those of its branches. -/
theorem mem_unknowns_union {branches : List Group} {unknown : Unknown} :
    unknown ∈ Group.unknowns [.union branches] ↔
      ∃ branch ∈ branches, unknown ∈ branch.unknowns := by
  rw [Group.unknowns, Sparql.groupAtoms, Sparql.groupAtoms, List.append_nil, Sparql.Element.atoms]
  induction branches with
  | nil => simp [Sparql.branchAtoms, Sparql.Atom.unknowns]
  | cons branch rest inductionHypothesis =>
    rw [Sparql.branchAtoms, Sparql.Atom.unknowns_append, List.mem_append, inductionHypothesis,
      List.exists_mem_cons_iff]
    rfl

theorem Sparql.Path.mem_unknowns_hop {path : Path} {subject object : Term} {unknown : Unknown}
    (member : unknown ∈ (path.hop subject object).pattern.unknowns) :
    subject.unknown? = some unknown ∨ object.unknown? = some unknown := by
  unfold hop at member
  split at member
  · obtain ⟨branch, found, within⟩ := mem_unknowns_union.1 member
    obtain ⟨inner, -, rfl⟩ := List.mem_map.1 found
    exact mem_unknowns_step within
  · exact mem_unknowns_step member

theorem Sparql.Path.mem_unknowns_whole {path : Path} {subject object : Term} {unknown : Unknown}
    (member : unknown ∈ (path.whole subject object).pattern.unknowns) :
    subject.unknown? = some unknown ∨ object.unknown? = some unknown := by
  unfold whole at member
  split at member
  · rcases mem_unknowns_triple member with inSubject | ⟨_, verb, -⟩ | inObject
    · exact .inl inSubject
    · cases verb
    · exact .inr inObject
  · exact mem_unknowns_step member

theorem Sparql.Path.mem_unknowns_walk {steps : List (Path × Term)} {subject : Term}
    {unknown : Unknown} (member : unknown ∈ (walk subject steps).pattern.unknowns) :
    subject.unknown? = some unknown ∨ ∃ step ∈ steps, step.2.unknown? = some unknown := by
  induction steps generalizing subject with
  | nil => cases member
  | cons step rest inductionHypothesis =>
    obtain ⟨path, object⟩ := step
    have split : unknown ∈ (path.hop subject object).pattern.unknowns ++
        (walk object rest).pattern.unknowns := by
      rw [← Group.unknowns_append]
      exact member
    rcases List.mem_append.1 split with inHop | inRest
    · exact (mem_unknowns_hop inHop).imp_right fun inObject =>
        ⟨(path, object), List.mem_cons_self, inObject⟩
    · right
      rcases inductionHypothesis inRest with inObject | ⟨later, found, named⟩
      · exact ⟨(path, object), List.mem_cons_self, inObject⟩
      · exact ⟨later, List.mem_cons_of_mem _ found, named⟩

theorem mem_unknowns_column {target : Variable} {values : List Term} {unknown : Unknown}
    (ground : ∀ value ∈ values, value.unknown? = none)
    (member : unknown ∈ Group.unknowns [.column target values]) : unknown = .var target := by
  rw [Group.unknowns, Sparql.groupAtoms, Sparql.groupAtoms, List.append_nil] at member
  obtain ⟨atom, found, named⟩ := List.mem_filterMap.1 member
  rcases List.mem_cons.1 found with rfl | inRows
  · exact (Option.some.inj named).symm
  · simp only [Sparql.Data.column, List.flatMap_map, List.flatMap_cons, List.flatMap_nil,
      Option.toList_some, List.map_cons, List.map_nil, List.append_nil] at inRows
    obtain ⟨value, listed, same⟩ := List.mem_flatMap.1 inRows
    rw [List.mem_singleton.1 same, Sparql.Atom.unknown?, ground value listed] at named
    cases named

theorem Fragment.mem_unknowns_classified {node : Term} {classVariable : Variable}
    {classes : List Iri} {unknown : Unknown}
    (member : unknown ∈ (classified node classVariable classes).pattern.unknowns) :
    node.unknown? = some unknown ∨ unknown = .var classVariable := by
  match classes with
  | [] => cases member
  | [single] =>
    rcases mem_unknowns_triple member with inNode | ⟨_, verb, -⟩ | inClass
    · exact .inl inNode
    · cases verb
    · cases inClass
  | first :: second :: rest =>
    have split : unknown ∈ Group.unknowns
        [.triple ⟨node, .predicate Vocabulary.rdfType, .var classVariable⟩] ++
          Group.unknowns [.column classVariable ((first :: second :: rest).map .iri)] := by
      rw [← Group.unknowns_append]
      exact member
    rcases List.mem_append.1 split with inTriple | inTable
    · rcases mem_unknowns_triple inTriple with inNode | ⟨_, verb, -⟩ | inClass
      · exact .inl inNode
      · cases verb
      · exact .inr (Option.some.inj inClass).symm
    · exact .inr (mem_unknowns_column (ground_iris _) inTable)

end Unknowns

end ShapeQuery
