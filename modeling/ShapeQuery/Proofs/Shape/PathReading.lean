/-
This file tells what is read of a blank node with one construct. What the construct is made of is
read with one level less, so that a path is read if and only if it is nested in fewer levels than
there are, and a node that leads back to itself is not read at all.
-/
import ShapeQuery.Proofs.Failure
import ShapeQuery.Proofs.Rdf.Collections
import ShapeQuery.Shape.Path

namespace ShapeQuery

open Sparql (Path)
open Success (bind_ok map_ok mapError_ok mapM_cons_ok pure_ok result_of_mem_mapM)

/-! ### Nesting -/

namespace Sparql.Path

mutual

/-- How deep the parts of a path are nested. -/
def nesting : Path → Nat
  | .predicate _ => 0
  | .inverse path => path.nesting + 1
  | .sequence paths => deepest paths + 1
  | .alternative paths => deepest paths + 1
  | .zeroOrMore path => path.nesting + 1
  | .oneOrMore path => path.nesting + 1
  | .zeroOrOne path => path.nesting + 1

/-- How deep the deepest of some paths is nested. -/
def deepest : List Path → Nat
  | [] => 0
  | path :: rest => max path.nesting (deepest rest)

end

theorem deepest_lt {paths : List Path} (filled : paths ≠ []) {levels : Nat} :
    deepest paths < levels ↔ ∀ path ∈ paths, path.nesting < levels := by
  induction paths with
  | nil => exact absurd rfl filled
  | cons path rest inductionHypothesis =>
    rw [deepest, Nat.max_lt, List.forall_mem_cons]
    cases rest with
    | nil => simpa [deepest] using Nat.zero_lt_of_lt
    | cons next further => rw [inductionHypothesis (List.cons_ne_nil next further)]

/-- The constructs that are made of one path. -/
def unaryConstructs : List (Iri × (Path → Path)) :=
  [(Vocabulary.shInversePath, .inverse), (Vocabulary.shZeroOrMorePath, .zeroOrMore),
    (Vocabulary.shOneOrMorePath, .oneOrMore), (Vocabulary.shZeroOrOnePath, .zeroOrOne)]

theorem nesting_unary {predicate : Iri} {construct : Path → Path}
    (known : (predicate, construct) ∈ unaryConstructs) (path : Path) :
    (construct path).nesting = path.nesting + 1 := by
  simp only [unaryConstructs, List.mem_cons, Prod.mk.injEq, List.not_mem_nil, or_false] at known
  rcases known with ⟨-, rfl⟩ | ⟨-, rfl⟩ | ⟨-, rfl⟩ | ⟨-, rfl⟩ <;> rfl

end Sparql.Path

open Sparql.Path (unaryConstructs nesting_unary deepest deepest_lt)

namespace Rdf.Graph

variable {graph : Graph} {label : String} {predicate : Iri} {value : Term} {levels : Nat}

/-! ### Constructs -/

/-- The predicates that tell the construct of a path. -/
def constructs : List Iri :=
  [Vocabulary.shInversePath, Vocabulary.shZeroOrMorePath, Vocabulary.shOneOrMorePath,
    Vocabulary.shZeroOrOnePath, Vocabulary.shAlternativePath, Vocabulary.rdfFirst]

/-- Whether a blank node has one construct, with the given value. -/
def ConstructedBy (graph : Graph) (label : String) (predicate : Iri) (value : Term) : Prop :=
  ∀ other ∈ constructs, graph.object? (.blank label) other =
    if other = predicate then some value else none

theorem object?_of_unique {node : Node} (member : ⟨node, predicate, value⟩ ∈ graph.triples)
    (unique : ∀ other, ⟨node, predicate, other⟩ ∈ graph.triples → other = value) :
    graph.object? node predicate = some value := by
  cases found : graph.object? node predicate with
  | some other => rw [unique other (mem_of_object? found)]
  | none =>
    rw [object?, List.head?_eq_none_iff] at found
    exact absurd (found ▸ mem_objects.2 member) List.not_mem_nil

/-- A blank node is constructed by a triple if it has no other that tells a construct. -/
theorem constructedBy_of_alone (member : ⟨.blank label, predicate, value⟩ ∈ graph.triples)
    (alone : ∀ triple ∈ graph.triples, triple.subject = .blank label →
      triple.predicate ∈ constructs → triple = ⟨.blank label, predicate, value⟩) :
    graph.ConstructedBy label predicate value := by
  intro other known
  have same (object : Term) (found : ⟨.blank label, other, object⟩ ∈ graph.triples) :
      other = predicate ∧ object = value := by
    simpa using alone _ found rfl known
  split
  · rename_i equal
    subst equal
    exact object?_of_unique member fun object found => (same object found).2
  · rename_i different
    exact Option.eq_none_iff_forall_ne_some.2 fun object found =>
      different (same object (mem_of_object? found)).1

theorem pathWithin_unary {construct : Path → Path}
    (known : (predicate, construct) ∈ unaryConstructs)
    (constructed : graph.ConstructedBy label predicate value) (levels : Nat) :
    graph.pathWithin (levels + 1) (.blank label) =
      (graph.pathWithin levels value).map construct := by
  simp only [ConstructedBy, constructs, List.forall_mem_cons] at constructed
  obtain ⟨inverse, star, plus, optional, -⟩ := constructed
  simp only [unaryConstructs, List.mem_cons, Prod.mk.injEq, List.not_mem_nil, or_false] at known
  rcases known with ⟨rfl, rfl⟩ | ⟨rfl, rfl⟩ | ⟨rfl, rfl⟩ | ⟨rfl, rfl⟩ <;>
    simp +decide only [if_true, if_false] at inverse star plus optional <;>
    simp only [pathWithin, inverse, star, plus, optional]

theorem pathWithin_alternative
    (constructed : graph.ConstructedBy label Vocabulary.shAlternativePath value) (levels : Nat) :
    graph.pathWithin (levels + 1) (.blank label) = (do
      let paths ← (← graph.elements value).mapM (graph.pathWithin levels)
      if paths.isEmpty then
        .error (.unsupportedPath (Term.blank label).text .emptyAlternative)
      else .ok (.alternative paths)) := by
  simp only [ConstructedBy, constructs, List.forall_mem_cons] at constructed
  obtain ⟨inverse, star, plus, optional, alternative, -⟩ := constructed
  simp +decide only [if_true, if_false] at inverse star plus optional alternative
  simp only [pathWithin, inverse, star, plus, optional, alternative]

/-- The sequence of some paths, of which a single one stands for itself. -/
def sequenceOf : List Path → Path
  | [path] => path
  | paths => .sequence paths

theorem pathWithin_sequence
    (constructed : graph.ConstructedBy label Vocabulary.rdfFirst value) (levels : Nat) :
    graph.pathWithin (levels + 1) (.blank label) = (do
      let paths ← (← graph.elements (.blank label)).mapM (graph.pathWithin levels)
      return sequenceOf paths) := by
  simp only [ConstructedBy, constructs, List.forall_mem_cons] at constructed
  obtain ⟨inverse, star, plus, optional, alternative, first, -⟩ := constructed
  simp +decide only [if_true, if_false] at inverse star plus optional alternative first
  simp only [pathWithin, inverse, star, plus, optional, alternative, first, Option.isSome_some,
    if_true]
  refine bind_congr fun members => bind_congr fun paths => ?_
  match paths with
  | [] => rfl
  | [path] => rfl
  | first :: second :: rest => rfl

/-! ### Descriptions -/

mutual

/-- Whether a term of a graph describes a path: an IRI or a blank node with one construct. -/
inductive DescribesPath (graph : Graph) : Path → Term → Prop
  | predicate {iri : Iri} :
    iri ≠ Vocabulary.rdfNil → graph.DescribesPath (.predicate iri) (.iri iri)
  | unary {label : String} {predicate : Iri} {construct : Path → Path} {path made : Path}
    {value : Term} :
    (predicate, construct) ∈ unaryConstructs → construct path = made →
      graph.ConstructedBy label predicate value → graph.DescribesPath path value →
        graph.DescribesPath made (.blank label)
  | alternative {label : String} {paths : List Path} {head : Term} :
    paths ≠ [] → graph.ConstructedBy label Vocabulary.shAlternativePath head →
      graph.DescribesPaths paths head → graph.DescribesPath (.alternative paths) (.blank label)
  | sequence {label : String} {paths : List Path} {first : Term} :
    2 ≤ paths.length → graph.ConstructedBy label Vocabulary.rdfFirst first →
      graph.DescribesPaths paths (.blank label) →
        graph.DescribesPath (.sequence paths) (.blank label)

/-- Whether a term of a graph starts a list whose members describe some paths. -/
inductive DescribesPaths (graph : Graph) : List Path → Term → Prop
  | nil : graph.DescribesPaths [] (.iri Vocabulary.rdfNil)
  | cons {label : String} {path : Path} {paths : List Path} {first rest : Term} :
    graph.object? (.blank label) Vocabulary.rdfFirst = some first →
      graph.object? (.blank label) Vocabulary.rdfRest = some rest →
      graph.DescribesPath path first → graph.DescribesPaths paths rest →
        graph.DescribesPaths (path :: paths) (.blank label)

end

/-- The failure of a path that is nested in too many levels. -/
def IsTooDeep (fault : Shape.Error) : Prop :=
  ∃ place, fault = .unsupportedPath place .tooDeep

/-- What is read of a node that describes a path: the path, if it is nested in fewer levels than
there are. -/
structure ReadsAs (graph : Graph) (path : Path) (node : Term) : Prop where
  ok : ∀ levels result,
    graph.pathWithin levels node = .ok result ↔ path.nesting < levels ∧ result = path
  fails : ∀ levels, FailsOnly IsTooDeep (graph.pathWithin levels node)

/-- What is read of a list whose members describe paths. -/
structure ReadsAllAs (graph : Graph) (paths : List Path) (head : Term) (members : List Term) :
    Prop where
  lists : graph.Lists head members
  ok : ∀ levels results, members.mapM (graph.pathWithin levels) = .ok results ↔
    (∀ path ∈ paths, path.nesting < levels) ∧ results = paths
  fails : ∀ levels, ∀ member ∈ members, FailsOnly IsTooDeep (graph.pathWithin levels member)

theorem ReadsAllAs.nil : graph.ReadsAllAs [] (.iri Vocabulary.rdfNil) [] where
  lists := .nil
  ok levels results := by
    rw [List.mapM_nil, pure_ok]
    simp [eq_comm]
  fails _ _ member := absurd member List.not_mem_nil

theorem ReadsAllAs.cons {path : Path} {paths : List Path} {first rest : Term}
    {members : List Term}
    (firstFound : graph.object? (.blank label) Vocabulary.rdfFirst = some first)
    (restFound : graph.object? (.blank label) Vocabulary.rdfRest = some rest)
    (here : graph.ReadsAs path first) (further : graph.ReadsAllAs paths rest members) :
    graph.ReadsAllAs (path :: paths) (.blank label) (first :: members) where
  lists := .cons nofun rfl firstFound restFound further.lists
  ok levels results := by
    rw [mapM_cons_ok, List.forall_mem_cons]
    simp only [here.ok, further.ok]
    constructor
    · rintro ⟨_, _, ⟨bound, rfl⟩, ⟨bounds, rfl⟩, rfl⟩
      exact ⟨⟨bound, bounds⟩, rfl⟩
    · rintro ⟨⟨bound, bounds⟩, rfl⟩
      exact ⟨path, paths, ⟨bound, rfl⟩, ⟨bounds, rfl⟩, rfl⟩
  fails levels := List.forall_mem_cons.2 ⟨here.fails levels, further.fails levels⟩

theorem elements_of_lists {head : Term} {members : List Term} (lists : graph.Lists head members) :
    graph.elements head = .ok members :=
  mapError_ok.2 (collection_ok.2 lists)

/-! ### Reading descriptions -/

/-- Without levels nothing is read. -/
theorem ReadsAs.of_succ {path : Path} {node : Term}
    (ok : ∀ levels result, graph.pathWithin (levels + 1) node = .ok result ↔
      path.nesting < levels + 1 ∧ result = path)
    (fails : ∀ levels, FailsOnly IsTooDeep (graph.pathWithin (levels + 1) node)) :
    graph.ReadsAs path node where
  ok levels result := by
    cases levels with
    | zero => exact ⟨nofun, fun ⟨bound, _⟩ => absurd bound (Nat.not_lt_zero _)⟩
    | succ levels => exact ok levels result
  fails levels := by
    cases levels with
    | zero => exact .error ⟨_, rfl⟩
    | succ levels => exact fails levels

theorem reads_predicate {iri : Iri} (proper : iri ≠ Vocabulary.rdfNil) :
    graph.ReadsAs (.predicate iri) (.iri iri) := by
  refine .of_succ (fun levels result => ?_) fun levels => ?_
  · rw [pathWithin, if_neg proper, Except.ok.injEq, eq_comm]
    exact (and_iff_right (Nat.succ_pos levels)).symm
  · rw [pathWithin, if_neg proper]
    exact .ok _

theorem reads_unary {construct : Path → Path} {path : Path}
    (known : (predicate, construct) ∈ unaryConstructs)
    (constructed : graph.ConstructedBy label predicate value)
    (inner : graph.ReadsAs path value) : graph.ReadsAs (construct path) (.blank label) := by
  refine .of_succ (fun levels result => ?_) fun levels => ?_
  · rw [pathWithin_unary known constructed, map_ok, nesting_unary known]
    simp only [inner.ok, Nat.add_lt_add_iff_right]
    constructor
    · rintro ⟨_, ⟨bound, rfl⟩, rfl⟩
      exact ⟨bound, rfl⟩
    · rintro ⟨bound, rfl⟩
      exact ⟨path, ⟨bound, rfl⟩, rfl⟩
  · rw [pathWithin_unary known constructed]
    exact (inner.fails levels).map construct

section

variable {paths : List Path} {path : Path} {members : List Term}
  {finish : List Path → Except Shape.Error Path}

/-- A path that is made of the members of a list. -/
theorem ReadsAs.of_members (inner : graph.ReadsAllAs paths value members) (filled : paths ≠ [])
    (nested : path.nesting = deepest paths + 1) (finished : finish paths = .ok path)
    (read : ∀ levels, graph.pathWithin (levels + 1) (.blank label) =
      members.mapM (graph.pathWithin levels) >>= finish) :
    graph.ReadsAs path (.blank label) := by
  refine .of_succ (fun levels result => ?_) fun levels => ?_
  · rw [read, bind_ok, nested, Nat.add_lt_add_iff_right, deepest_lt filled]
    simp only [inner.ok]
    constructor
    · rintro ⟨_, ⟨bounds, rfl⟩, made⟩
      exact ⟨bounds, Except.ok.inj (made.symm.trans finished)⟩
    · rintro ⟨bounds, rfl⟩
      exact ⟨paths, ⟨bounds, rfl⟩, finished⟩
  · rw [read]
    cases result : members.mapM (graph.pathWithin levels) with
    | error fault => exact .error (FailsOnly.mapM (inner.fails levels) fault result)
    | ok results =>
      -- The members are read as the paths, of which the last step makes something.
      obtain ⟨-, rfl⟩ := (inner.ok levels results).1 result
      exact (finished ▸ .ok path : FailsOnly IsTooDeep (finish results))

end

theorem reads_alternative {paths : List Path} {members : List Term} (filled : paths ≠ [])
    (constructed : graph.ConstructedBy label Vocabulary.shAlternativePath value)
    (inner : graph.ReadsAllAs paths value members) :
    graph.ReadsAs (.alternative paths) (.blank label) := by
  have read (levels : Nat) : graph.pathWithin (levels + 1) (.blank label) =
      members.mapM (graph.pathWithin levels) >>= fun paths =>
        if paths.isEmpty then .error (.unsupportedPath (Term.blank label).text .emptyAlternative)
        else .ok (.alternative paths) := by
    rw [pathWithin_alternative constructed, elements_of_lists inner.lists]
    rfl
  exact .of_members inner filled rfl (if_neg (by simpa using filled)) read

theorem reads_sequence {paths : List Path} {members : List Term} (several : 2 ≤ paths.length)
    (constructed : graph.ConstructedBy label Vocabulary.rdfFirst value)
    (inner : graph.ReadsAllAs paths (.blank label) members) :
    graph.ReadsAs (.sequence paths) (.blank label) := by
  have read (levels : Nat) : graph.pathWithin (levels + 1) (.blank label) =
      members.mapM (graph.pathWithin levels) >>= fun paths => .ok (sequenceOf paths) := by
    rw [pathWithin_sequence constructed, elements_of_lists inner.lists]
    rfl
  match paths, several with
  | first :: second :: rest, _ => exact .of_members inner (List.cons_ne_nil _ _) rfl rfl read

mutual

/-- What describes a path is read as the path. -/
theorem DescribesPath.reads {path : Path} {node : Term}
    (describes : graph.DescribesPath path node) : graph.ReadsAs path node :=
  match describes with
  | .predicate proper => reads_predicate proper
  | .unary known made constructed inner => made ▸ reads_unary known constructed inner.reads
  | .alternative filled constructed inner =>
    have ⟨_, read⟩ := inner.reads
    reads_alternative filled constructed read
  | .sequence several constructed inner =>
    have ⟨_, read⟩ := inner.reads
    reads_sequence several constructed read

theorem DescribesPaths.reads {paths : List Path} {head : Term}
    (describes : graph.DescribesPaths paths head) :
    ∃ members, graph.ReadsAllAs paths head members :=
  match describes with
  | .nil => ⟨[], .nil⟩
  | .cons firstFound restFound here further =>
    have ⟨_, read⟩ := further.reads
    ⟨_, .cons firstFound restFound here.reads read⟩

end

/-! ### Cycles -/

/-- Whether no blank node has two constructs. -/
def Unambiguous (graph : Graph) : Prop :=
  ∀ label, ∀ first ∈ graph.triples, ∀ second ∈ graph.triples,
    first.subject = .blank label → second.subject = .blank label →
      first.predicate ∈ constructs → second.predicate ∈ constructs → first = second

/-- Whether the path at one term is made of the path at another one. -/
inductive LeadsOn (graph : Graph) : Term → Term → Prop
  | nested {label : String} {predicate : Iri} {construct : Path → Path} {value : Term} :
    (predicate, construct) ∈ unaryConstructs →
      ⟨.blank label, predicate, value⟩ ∈ graph.triples → graph.LeadsOn (.blank label) value
  | alternative {label : String} {head member : Term} :
    ⟨.blank label, Vocabulary.shAlternativePath, head⟩ ∈ graph.triples →
      graph.HasMember head member → graph.LeadsOn (.blank label) member
  | sequence {label : String} {first member : Term} :
    ⟨.blank label, Vocabulary.rdfFirst, first⟩ ∈ graph.triples →
      graph.HasMember (.blank label) member → graph.LeadsOn (.blank label) member

theorem mem_constructs_unary {construct : Path → Path}
    (known : (predicate, construct) ∈ unaryConstructs) : predicate ∈ constructs := by
  simp only [unaryConstructs, List.mem_cons, Prod.mk.injEq, List.not_mem_nil, or_false] at known
  rcases known with ⟨rfl, -⟩ | ⟨rfl, -⟩ | ⟨rfl, -⟩ | ⟨rfl, -⟩ <;> decide

theorem Unambiguous.constructedBy (unambiguous : graph.Unambiguous)
    (member : ⟨.blank label, predicate, value⟩ ∈ graph.triples) (known : predicate ∈ constructs) :
    graph.ConstructedBy label predicate value :=
  constructedBy_of_alone member fun triple among subject tells =>
    unambiguous label triple among _ member subject rfl tells known

theorem exists_ok_of_hasMember {head member : Term} {members : List Term} {paths : List Path}
    (listed : graph.elements head = .ok members) (has : graph.HasMember head member)
    (read : members.mapM (graph.pathWithin levels) = .ok paths) :
    ∃ path, graph.pathWithin levels member = .ok path := by
  have lists := collection_ok.1 (mapError_ok.1 listed)
  obtain ⟨path, -, found⟩ := result_of_mem_mapM read member (has.mem lists)
  exact ⟨path, found⟩

/-- What a path is made of is read with one level less. -/
theorem exists_ok_of_leadsOn (unambiguous : graph.Unambiguous) {node next : Term}
    (leads : graph.LeadsOn node next) {path : Path}
    (read : graph.pathWithin (levels + 1) node = .ok path) :
    ∃ inner, graph.pathWithin levels next = .ok inner := by
  cases leads with
  | nested known member =>
    rw [pathWithin_unary known (unambiguous.constructedBy member (mem_constructs_unary known)),
      map_ok] at read
    obtain ⟨inner, found, -⟩ := read
    exact ⟨inner, found⟩
  | alternative member has =>
    rw [pathWithin_alternative (unambiguous.constructedBy member (by decide)),
      bind_ok] at read
    obtain ⟨members, listed, further⟩ := read
    obtain ⟨paths, found, -⟩ := bind_ok.1 further
    exact exists_ok_of_hasMember listed has found
  | sequence member has =>
    rw [pathWithin_sequence (unambiguous.constructedBy member (by decide)),
      bind_ok] at read
    obtain ⟨members, listed, further⟩ := read
    obtain ⟨paths, found, -⟩ := bind_ok.1 further
    exact exists_ok_of_hasMember listed has found

/-- Each step of a way through paths takes a level. -/
theorem exists_ok_of_transGen (unambiguous : graph.Unambiguous) {node next : Term}
    (leads : Relation.TransGen graph.LeadsOn node next) {path : Path}
    (read : graph.pathWithin levels node = .ok path) :
    ∃ fewer < levels, ∃ inner, graph.pathWithin fewer next = .ok inner := by
  induction leads with
  | single step =>
    cases levels with
    | zero => cases read
    | succ fewer =>
      exact ⟨fewer, Nat.lt_succ_self fewer, exists_ok_of_leadsOn unambiguous step read⟩
  | tail _ step inductionHypothesis =>
    obtain ⟨between, bound, inner, found⟩ := inductionHypothesis
    cases between with
    | zero => cases found
    | succ fewer =>
      exact ⟨fewer, Nat.lt_of_succ_lt bound, exists_ok_of_leadsOn unambiguous step found⟩

/-- However many levels there are, a node that leads back to itself is not read. -/
theorem not_ok_of_cycle (unambiguous : graph.Unambiguous) {node : Term}
    (cycle : Relation.TransGen graph.LeadsOn node node) (levels : Nat) (path : Path) :
    graph.pathWithin levels node ≠ .ok path := by
  induction levels using Nat.strongRecOn generalizing path with
  | ind levels inductionHypothesis =>
    intro read
    obtain ⟨fewer, bound, inner, found⟩ := exists_ok_of_transGen unambiguous cycle read
    exact inductionHypothesis fewer bound inner found

end Rdf.Graph

end ShapeQuery
