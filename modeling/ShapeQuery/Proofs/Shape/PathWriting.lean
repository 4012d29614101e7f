/-
This file writes paths as descriptions in a graph. Every blank node of a description stands for a
place in it, and has the triples of one construct or of one cell. A graph that has a description on
nodes of their own describes the path at each of its places, so that the path is read back.
-/
import Mathlib.Data.List.Basic
import ShapeQuery.Proofs.Shape.PathReading

namespace ShapeQuery

open Sparql (Path)
open Sparql.Path (unaryConstructs)

namespace Sparql.Path

/-! ### Descriptions -/

/-- A turn on the way to a place in a description: into a part, or on to the rest. -/
inductive Turn where
  | part
  | rest
deriving DecidableEq

/-- The term that stands for a path at a place. -/
def root (label : List Turn → String) (place : List Turn) : Path → Rdf.Term
  | .predicate iri => .iri iri
  | _ => .blank (label place)

/-- The term that stands for a list of paths at a place. -/
def listRoot (label : List Turn → String) (place : List Turn) : List Path → Rdf.Term
  | [] => .iri Vocabulary.rdfNil
  | _ :: _ => .blank (label place)

mutual

/-- The triples that describe a path at a place. -/
def triples (label : List Turn → String) (place : List Turn) : Path → List Rdf.Triple
  | .predicate _ => []
  | .inverse path =>
    ⟨.blank (label place), Vocabulary.shInversePath, path.root label (.part :: place)⟩ ::
      path.triples label (.part :: place)
  | .sequence paths => listTriples label place paths
  | .alternative paths =>
    ⟨.blank (label place), Vocabulary.shAlternativePath, listRoot label (.rest :: place) paths⟩ ::
      listTriples label (.rest :: place) paths
  | .zeroOrMore path =>
    ⟨.blank (label place), Vocabulary.shZeroOrMorePath, path.root label (.part :: place)⟩ ::
      path.triples label (.part :: place)
  | .oneOrMore path =>
    ⟨.blank (label place), Vocabulary.shOneOrMorePath, path.root label (.part :: place)⟩ ::
      path.triples label (.part :: place)
  | .zeroOrOne path =>
    ⟨.blank (label place), Vocabulary.shZeroOrOnePath, path.root label (.part :: place)⟩ ::
      path.triples label (.part :: place)

/-- The triples that describe a list of paths at a place. -/
def listTriples (label : List Turn → String) (place : List Turn) : List Path → List Rdf.Triple
  | [] => []
  | path :: paths =>
    ⟨.blank (label place), Vocabulary.rdfFirst, path.root label (.part :: place)⟩ ::
      ⟨.blank (label place), Vocabulary.rdfRest, listRoot label (.rest :: place) paths⟩ ::
        (path.triples label (.part :: place) ++ listTriples label (.rest :: place) paths)

end

mutual

/-- Whether a path has a description: no alternative is empty, no sequence has fewer than two parts,
and no predicate stands for the empty collection. -/
def Writable : Path → Prop
  | .predicate iri => iri ≠ Vocabulary.rdfNil
  | .inverse path => path.Writable
  | .sequence paths => 2 ≤ paths.length ∧ AllWritable paths
  | .alternative paths => paths ≠ [] ∧ AllWritable paths
  | .zeroOrMore path => path.Writable
  | .oneOrMore path => path.Writable
  | .zeroOrOne path => path.Writable

/-- Whether some paths have descriptions. -/
def AllWritable : List Path → Prop
  | [] => True
  | path :: paths => path.Writable ∧ AllWritable paths

end

/-! ### Subjects -/

section

variable {label : List Turn → String} {place : List Turn}

/-- Whether all triples are about the nodes of places that lie behind another one. -/
def Behind (label : List Turn → String) (place : List Turn) (triples : List Rdf.Triple) : Prop :=
  ∀ triple ∈ triples, ∃ turns, triple.subject = .blank (label (turns ++ place))

namespace Behind

theorem nil : Behind label place [] :=
  fun _ member => absurd member List.not_mem_nil

theorem cons {predicate : Iri} {object : Rdf.Term} {triples : List Rdf.Triple}
    (behind : Behind label place triples) :
    Behind label place (⟨.blank (label place), predicate, object⟩ :: triples) :=
  List.forall_mem_cons.2 ⟨⟨[], rfl⟩, behind⟩

theorem append {first second : List Rdf.Triple} (behind : Behind label place first)
    (other : Behind label place second) : Behind label place (first ++ second) :=
  List.forall_mem_append.2 ⟨behind, other⟩

theorem turn {triples : List Rdf.Triple} {turn : Turn}
    (behind : Behind label (turn :: place) triples) : Behind label place triples := by
  intro triple member
  obtain ⟨turns, subject⟩ := behind triple member
  exact ⟨turns ++ [turn], by rw [subject, List.append_assoc, List.singleton_append]⟩

end Behind

mutual

theorem behind_triples (label : List Turn → String) (place : List Turn) (path : Path) :
    Behind label place (path.triples label place) := by
  match path with
  | .predicate _ => exact .nil
  | .inverse path | .zeroOrMore path | .oneOrMore path | .zeroOrOne path =>
    exact (behind_triples label (.part :: place) path).turn.cons
  | .sequence paths => exact behind_listTriples label place paths
  | .alternative paths => exact (behind_listTriples label (.rest :: place) paths).turn.cons

theorem behind_listTriples (label : List Turn → String) (place : List Turn) (paths : List Path) :
    Behind label place (listTriples label place paths) := by
  match paths with
  | [] => exact .nil
  | path :: paths =>
    exact ((behind_triples label (.part :: place) path).turn.append
      (behind_listTriples label (.rest :: place) paths).turn).cons.cons

end

end

end Sparql.Path

open Sparql.Path (Turn Behind root listRoot listTriples behind_triples behind_listTriples
  AllWritable)

namespace Rdf.Graph

/-! ### Graphs with descriptions -/

/-- Whether a graph has some triples, and no others about their subjects. -/
structure Contains (graph : Graph) (triples : List Triple) : Prop where
  all : ∀ triple ∈ triples, triple ∈ graph.triples
  alone : ∀ triple ∈ graph.triples, ∀ own ∈ triples, triple.subject = own.subject →
    triple ∈ triples

theorem contains_ofList (triples : List Triple) : (ofList triples).Contains triples where
  all _ := mem_ofList.2
  alone _ member _ _ _ := mem_ofList.1 member

/-- Whether no two triples of two lists are about the same node. -/
def Apart (first second : List Triple) : Prop :=
  ∀ one ∈ first, ∀ other ∈ second, one.subject ≠ other.subject

namespace Contains

variable {graph : Graph} {first second : List Triple}

theorem left (contains : graph.Contains (first ++ second)) (apart : Apart first second) :
    graph.Contains first where
  all triple member := contains.all triple (List.mem_append_left second member)
  alone triple member own among same := by
    have within := contains.alone triple member own (List.mem_append_left second among) same
    exact (List.mem_append.1 within).resolve_right fun other =>
      apart own among triple other same.symm

theorem right (contains : graph.Contains (first ++ second)) (apart : Apart first second) :
    graph.Contains second where
  all triple member := contains.all triple (List.mem_append_right first member)
  alone triple member own among same := by
    have within := contains.alone triple member own (List.mem_append_right first among) same
    exact (List.mem_append.1 within).resolve_left fun other => apart triple other own among same

end Contains

/-! ### Descriptions in graphs -/

section

variable {graph : Graph} {label : List Turn → String} (injective : Function.Injective label)
  {place : List Turn}

include injective

/-- What lies behind a turn is not about the node of the place before it. -/
theorem apart_of_behind {turn : Turn} {own further : List Triple}
    (here : ∀ triple ∈ own, triple.subject = .blank (label place))
    (behind : Behind label (turn :: place) further) : Apart own further := by
  intro one among other member same
  obtain ⟨turns, subject⟩ := behind other member
  rw [here one among, subject, Node.blank.injEq] at same
  have lengths := congrArg List.length (injective same)
  rw [List.length_append, List.length_cons] at lengths
  omega

/-- What lies behind different turns is about different nodes. -/
theorem apart_of_turns {turn other : Turn} (different : turn ≠ other)
    {first second : List Triple} (behind : Behind label (turn :: place) first)
    (otherBehind : Behind label (other :: place) second) : Apart first second := by
  intro one among next member same
  obtain ⟨turns, subject⟩ := behind one among
  obtain ⟨others, otherSubject⟩ := otherBehind next member
  rw [subject, otherSubject, Node.blank.injEq] at same
  have ends := List.append_inj_right' (injective same) rfl
  exact different (List.cons.inj ends).1

/-- A graph with the description of a construct has the construct, and the description of what it is
made of. -/
theorem Contains.construct {predicate : Iri} {value : Term} {turn : Turn} {further : List Triple}
    (contains : graph.Contains (⟨.blank (label place), predicate, value⟩ :: further))
    (behind : Behind label (turn :: place) further) :
    graph.ConstructedBy (label place) predicate value ∧ graph.Contains further := by
  have apart : Apart [⟨.blank (label place), predicate, value⟩] further :=
    apart_of_behind injective (List.forall_mem_singleton.2 rfl) behind
  have own : graph.Contains [⟨.blank (label place), predicate, value⟩] := contains.left apart
  refine ⟨constructedBy_of_alone (own.all _ List.mem_cons_self) fun triple member subject _ => ?_,
    contains.right apart⟩
  exact List.mem_singleton.1 (own.alone triple member _ List.mem_cons_self subject)

theorem Contains.unary {predicate : Iri} {construct : Path → Path} {path : Path}
    (contains : graph.Contains
      (⟨.blank (label place), predicate, path.root label (.part :: place)⟩ ::
        path.triples label (.part :: place)))
    (known : (predicate, construct) ∈ unaryConstructs)
    (describes : graph.Contains (path.triples label (.part :: place)) →
      graph.DescribesPath path (path.root label (.part :: place))) :
    graph.DescribesPath (construct path) (.blank (label place)) := by
  obtain ⟨constructed, inner⟩ := contains.construct injective (behind_triples label _ path)
  exact .unary known rfl constructed (describes inner)

/-- A graph with the description of a list has its first cell, and the descriptions of the first
member and of the rest. -/
theorem Contains.cell {path : Path} {paths : List Path}
    (contains : graph.Contains (listTriples label place (path :: paths))) :
    graph.ConstructedBy (label place) Vocabulary.rdfFirst (path.root label (.part :: place)) ∧
      graph.object? (.blank (label place)) Vocabulary.rdfRest =
        some (listRoot label (.rest :: place) paths) ∧
      graph.Contains (path.triples label (.part :: place)) ∧
      graph.Contains (listTriples label (.rest :: place) paths) := by
  let cell : List Triple :=
    [⟨.blank (label place), Vocabulary.rdfFirst, path.root label (.part :: place)⟩,
      ⟨.blank (label place), Vocabulary.rdfRest, listRoot label (.rest :: place) paths⟩]
  have here : ∀ triple ∈ cell, triple.subject = .blank (label place) := by simp [cell]
  have split : listTriples label place (path :: paths) =
      cell ++ (path.triples label (.part :: place) ++ listTriples label (.rest :: place) paths) :=
    rfl
  have first := behind_triples label (.part :: place) path
  have rest := behind_listTriples label (.rest :: place) paths
  have siblings := apart_of_turns injective (by decide) first rest
  have apart : Apart cell (path.triples label (.part :: place) ++
      listTriples label (.rest :: place) paths) := by
    intro one among other member
    rcases List.mem_append.1 member with inFirst | inRest
    · exact apart_of_behind injective here first one among other inFirst
    · exact apart_of_behind injective here rest one among other inRest
  rw [split] at contains
  have own : graph.Contains cell := contains.left apart
  have inner := contains.right apart
  have among (triple : Triple) (member : triple ∈ graph.triples)
      (subject : triple.subject = .blank (label place)) : triple ∈ cell :=
    own.alone triple member _ List.mem_cons_self subject
  have firstHeld := own.all _ List.mem_cons_self
  have restHeld := own.all _ (List.mem_cons_of_mem _ List.mem_cons_self)
  refine ⟨constructedBy_of_alone firstHeld fun triple member subject tells => ?_,
    object?_of_unique restHeld fun other member => ?_, inner.left siblings, inner.right siblings⟩
  · rcases List.mem_cons.1 (among triple member subject) with same | later
    · exact same
    · rw [List.mem_singleton.1 later] at tells
      exact absurd tells (show Vocabulary.rdfRest ∉ constructs by decide)
  · simpa +decide [cell] using among _ member rfl

end

mutual

/-- A graph that has the description of a path on nodes of their own describes the path. -/
theorem describesPath_of_contains {graph : Graph} {label : List Turn → String}
    (injective : Function.Injective label) (place : List Turn) (path : Path)
    (writable : path.Writable) (contains : graph.Contains (path.triples label place)) :
    graph.DescribesPath path (path.root label place) := by
  match path with
  | .predicate iri => exact .predicate writable
  | .inverse path =>
    exact contains.unary injective (by simp [unaryConstructs])
      (describesPath_of_contains injective _ path writable)
  | .zeroOrMore path =>
    exact contains.unary injective (by simp [unaryConstructs])
      (describesPath_of_contains injective _ path writable)
  | .oneOrMore path =>
    exact contains.unary injective (by simp [unaryConstructs])
      (describesPath_of_contains injective _ path writable)
  | .zeroOrOne path =>
    exact contains.unary injective (by simp [unaryConstructs])
      (describesPath_of_contains injective _ path writable)
  | .alternative paths =>
    obtain ⟨constructed, inner⟩ := contains.construct injective (behind_listTriples label _ paths)
    exact .alternative writable.1 constructed
      (describesPaths_of_contains injective _ paths writable.2 inner)
  | .sequence (first :: paths) =>
    exact .sequence writable.1 (Contains.cell injective contains).1
      (describesPaths_of_contains injective place (first :: paths) writable.2 contains)
  | .sequence [] => exact absurd writable.1 (by decide)

theorem describesPaths_of_contains {graph : Graph} {label : List Turn → String}
    (injective : Function.Injective label) (place : List Turn) (paths : List Path)
    (writable : AllWritable paths) (contains : graph.Contains (listTriples label place paths)) :
    graph.DescribesPaths paths (listRoot label place paths) := by
  match paths with
  | [] => exact .nil
  | path :: paths =>
    obtain ⟨constructed, restFound, here, further⟩ := Contains.cell injective contains
    have firstFound := (constructed Vocabulary.rdfFirst (by decide)).trans (if_pos rfl)
    exact .cons firstFound restFound (describesPath_of_contains injective _ path writable.1 here)
      (describesPaths_of_contains injective _ paths writable.2 further)

end

/-- A path that is described on nodes of their own is read back if it is nested in at most 32
levels; a path nested deeper is not, nor is any node that leads back to itself. -/
theorem path_of_description :
    (∀ (graph : Graph) (path : Path) (label : List Turn → String), Function.Injective label →
      path.Writable → graph.Contains (path.triples label []) →
        (path.nesting ≤ 32 → graph.path (path.root label []) = .ok path) ∧
        (32 < path.nesting → ∃ place,
          graph.path (path.root label []) = .error (.unsupportedPath place .tooDeep))) ∧
    ∀ (graph : Graph), graph.Unambiguous → ∀ label,
      Relation.TransGen graph.LeadsOn (.blank label) (.blank label) →
        ∃ fault, graph.path (.blank label) = .error fault := by
  constructor
  · intro graph path label injective writable contains
    have reads := (describesPath_of_contains injective [] path writable contains).reads
    refine ⟨fun bound => (reads.ok 33 path).2 ⟨Nat.lt_succ_of_le bound, rfl⟩, fun deep => ?_⟩
    cases result : graph.path (path.root label []) with
    | ok other => exact absurd ((reads.ok 33 other).1 result).1 (Nat.not_lt_of_le deep)
    | error fault =>
      obtain ⟨place, rfl⟩ := reads.fails 33 fault result
      exact ⟨place, rfl⟩
  · intro graph unambiguous label cycle
    cases result : graph.path (.blank label) with
    | ok other => exact absurd result (not_ok_of_cycle unambiguous cycle 33 other)
    | error fault => exact ⟨fault, rfl⟩

/-- The names of places in a description. -/
def placeName (place : List Turn) : String :=
  String.ofList (place.map fun
    | .part => 'p'
    | .rest => 'r')

theorem placeName_injective : Function.Injective placeName := by
  intro first second same
  refine List.map_injective_iff.2 (fun turn other equal => ?_) (String.ofList_injective same)
  match turn, other, equal with
  | .part, .part, _ => rfl
  | .rest, .rest, _ => rfl

/-- A path of several constructs. -/
def mixedPath : Path :=
  .sequence [.inverse (.predicate Vocabulary.rdfValue),
    .alternative [.predicate Vocabulary.rdfType, .zeroOrMore (.predicate Vocabulary.rdfsLabel)]]

/-- A path of one construct more than can be read. -/
def deepPath : Path :=
  Nat.repeat .inverse 33 (.predicate Vocabulary.rdfValue)

/-- A graph with a path that is made of itself. -/
def selfInverse : Graph :=
  .ofList [⟨.blank "self", Vocabulary.shInversePath, .blank "self"⟩]

/-- What is read of a description, of one that is nested too deep, and of a cycle. -/
theorem path_of_description_mixed :
    Function.Injective placeName ∧
    (mixedPath.Writable ∧ mixedPath.nesting ≤ 32 ∧
      (ofList (mixedPath.triples placeName [])).path (.blank "") = .ok mixedPath) ∧
    (deepPath.Writable ∧ 32 < deepPath.nesting ∧ ∃ place,
      (ofList (deepPath.triples placeName [])).path (.blank "") =
        .error (.unsupportedPath place .tooDeep)) ∧
    selfInverse.Unambiguous ∧
    Relation.TransGen selfInverse.LeadsOn (.blank "self") (.blank "self") ∧
    ∃ fault, selfInverse.path (.blank "self") = .error fault := by
  have mixedWritable : mixedPath.Writable :=
    ⟨by decide, (by decide : Vocabulary.rdfValue ≠ Vocabulary.rdfNil), ⟨by simp,
      (by decide : Vocabulary.rdfType ≠ Vocabulary.rdfNil),
      (by decide : Vocabulary.rdfsLabel ≠ Vocabulary.rdfNil), trivial⟩, trivial⟩
  have mixedBound : mixedPath.nesting ≤ 32 := by decide
  have deepWritable : deepPath.Writable := (by decide : Vocabulary.rdfValue ≠ Vocabulary.rdfNil)
  have deepBound : 32 < deepPath.nesting := by decide
  have unambiguous : selfInverse.Unambiguous := by
    intro label first member second other _ _ _ _
    simp only [selfInverse, mem_ofList, List.mem_singleton] at member other
    rw [member, other]
  have inverse : (Vocabulary.shInversePath, Path.inverse) ∈ unaryConstructs := List.mem_cons_self
  have cycle : Relation.TransGen selfInverse.LeadsOn (.blank "self") (.blank "self") :=
    .single (.nested inverse (by decide))
  obtain ⟨described, cyclic⟩ := path_of_description
  have mixed := described _ mixedPath placeName placeName_injective mixedWritable
    (contains_ofList _)
  have deep := described _ deepPath placeName placeName_injective deepWritable (contains_ofList _)
  exact ⟨placeName_injective, ⟨mixedWritable, mixedBound, mixed.1 mixedBound⟩,
    ⟨deepWritable, deepBound, deep.2 deepBound⟩, unambiguous, cycle,
    cyclic selfInverse unambiguous "self" cycle⟩

end Rdf.Graph

end ShapeQuery
