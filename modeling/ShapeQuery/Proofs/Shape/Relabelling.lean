/-
This file proves that reading a shape does not depend on the labels of blank nodes, nor on the order
of the triples. A graph with other labels has the same objects for a node with another label, in some
order; where one value is taken there is one, and where several are taken they are sorted.
-/
import Mathlib.Data.List.Nodup
import ShapeQuery.Proofs.Shape.Keys
import ShapeQuery.Proofs.Shape.Reading

namespace ShapeQuery.Rdf

open Success (bind_ok map_ok mapError_ok mapM_map_ok mapM_map_exists)

/-! ### Other labels -/

/-- A node with another label. -/
def Node.relabelled (rename : String → String) : Node → Node
  | .iri name => .iri name
  | .blank label => .blank (rename label)

/-- A term with another label. -/
def Term.relabelled (rename : String → String) : Term → Term
  | .blank label => .blank (rename label)
  | term => term

/-- A triple with other labels. -/
def Triple.relabelled (rename : String → String) (triple : Triple) : Triple :=
  ⟨triple.subject.relabelled rename, triple.predicate, triple.object.relabelled rename⟩

variable {rename : String → String}

theorem Node.relabelled_injective (injective : Function.Injective rename) :
    Function.Injective (Node.relabelled rename) := by
  intro first second same
  cases first <;> cases second <;> simp_all [Node.relabelled, injective.eq_iff]

theorem Term.relabelled_injective (injective : Function.Injective rename) :
    Function.Injective (Term.relabelled rename) := by
  intro first second same
  cases first <;> cases second <;> simp_all [Term.relabelled, injective.eq_iff]

theorem Term.node?_relabelled (term : Term) :
    (term.relabelled rename).node? = term.node?.map (Node.relabelled rename) := by
  cases term <;> rfl

namespace Graph

/-! ### Values -/

/-- Whether a node has at most one value with a predicate. -/
def Single (graph : Graph) (node : Node) (predicate : Iri) : Prop :=
  (graph.objects node predicate).length ≤ 1

instance (graph : Graph) (node : Node) (predicate : Iri) :
    Decidable (graph.Single node predicate) :=
  inferInstanceAs (Decidable (_ ≤ _))

/-- Whether no two triples with a predicate have the same subject. -/
def Functional (graph : Graph) (predicate : Iri) : Prop :=
  graph.triples.Pairwise fun first second =>
    first.predicate = predicate → second.predicate = predicate → first.subject ≠ second.subject

instance (graph : Graph) (predicate : Iri) : Decidable (graph.Functional predicate) :=
  inferInstanceAs (Decidable (List.Pairwise _ _))

theorem Functional.single {graph : Graph} {predicate : Iri}
    (functional : graph.Functional predicate) (node : Node) : graph.Single node predicate := by
  have alone := List.Pairwise.filter
    (fun triple => triple.subject = node && triple.predicate = predicate) functional
  rw [Single, objects, List.length_map]
  cases found : graph.triples.filter
      fun triple => triple.subject = node && triple.predicate = predicate with
  | nil => exact Nat.zero_le 1
  | cons first rest =>
    cases rest with
    | nil => exact Nat.le_refl 1
    | cons second more =>
      have about : ∀ triple ∈ first :: second :: more,
          triple.subject = node ∧ triple.predicate = predicate := by
        rw [← found]
        intro triple member
        simpa using (List.mem_filter.1 member).2
      rw [List.forall_mem_cons, List.forall_mem_cons] at about
      rw [found, List.pairwise_cons] at alone
      exact absurd (about.1.1.trans about.2.1.1.symm)
        (alone.1 second List.mem_cons_self about.1.2 about.2.1.2)

/-- Whether a graph is another one with other labels, its triples in any order. -/
structure Relabels (rename : String → String) (graph other : Graph) : Prop where
  injective : Function.Injective rename
  triples : other.triples.Perm (graph.triples.map (Triple.relabelled rename))

namespace Relabels

variable {graph other : Graph} (relabels : Relabels rename graph other)

include relabels

theorem objects (node : Node) (predicate : Iri) :
    (other.objects (node.relabelled rename) predicate).Perm
      ((graph.objects node predicate).map (Term.relabelled rename)) := by
  have same (triple : Triple) :
      (triple.relabelled rename).subject = node.relabelled rename ↔ triple.subject = node :=
    (Node.relabelled_injective relabels.injective).eq_iff
  refine ((relabels.triples.filter _).map _).trans (.of_eq ?_)
  rw [Graph.objects, List.filter_map, List.map_map, List.map_map]
  congr 1
  refine List.filter_congr fun triple _ => ?_
  simp only [Function.comp_apply, same]
  rfl

theorem objects_of_single {node : Node} {predicate : Iri} (single : graph.Single node predicate) :
    other.objects (node.relabelled rename) predicate =
      (graph.objects node predicate).map (Term.relabelled rename) := by
  have perm := relabels.objects node predicate
  cases values : graph.objects node predicate with
  | nil =>
    rw [values] at perm
    exact perm.eq_nil
  | cons value rest =>
    rw [Single, values, List.length_cons] at single
    rw [List.length_eq_zero_iff.1 (by omega : rest.length = 0)] at values ⊢
    rw [values] at perm
    exact List.perm_singleton.1 perm

theorem object?_of_single {node : Node} {predicate : Iri} (single : graph.Single node predicate) :
    other.object? (node.relabelled rename) predicate =
      (graph.object? node predicate).map (Term.relabelled rename) := by
  rw [object?, relabels.objects_of_single single, List.head?_map, object?]

theorem hasSubject (node : Node) :
    other.hasSubject (node.relabelled rename) = graph.hasSubject node := by
  rw [Graph.hasSubject, relabels.triples.any_eq, List.any_map, Graph.hasSubject]
  congr 1
  funext triple
  exact decide_eq_decide.2 (Node.relabelled_injective relabels.injective).eq_iff

/-! ### Collections -/

omit relabels in
theorem nodup_eraseDups {Value : Type} [DecidableEq Value] (values : List Value) :
    values.eraseDups.Nodup := by
  induction length : values.length using Nat.strongRecOn generalizing values with
  | ind _ inductionHypothesis =>
    cases values with
    | nil => exact List.nodup_nil
    | cons value rest =>
      have shorter := List.length_filter_le (fun other => !other == value) rest
      rw [List.eraseDups_cons, List.nodup_cons, List.mem_eraseDups]
      refine ⟨by simp, inductionHypothesis _ ?_ _ rfl⟩
      rw [← length, List.length_cons]
      omega

theorem subjects : other.subjects.Perm (graph.subjects.map (Node.relabelled rename)) := by
  refine (List.perm_ext_iff_of_nodup (nodup_eraseDups _) ?_).2 fun node => ?_
  · exact List.Nodup.map (Node.relabelled_injective relabels.injective) (nodup_eraseDups _)
  · simp [Graph.subjects, relabels.triples.mem_iff, Triple.relabelled]

/-- The elements of a chain with other labels. -/
theorem chain {unused others : List Node} (perm : others.Perm (unused.map (Node.relabelled rename)))
    (firsts : graph.Functional Vocabulary.rdfFirst) (rests : graph.Functional Vocabulary.rdfRest)
    {current : Term} {elements : List Term} (read : graph.chain unused current = .ok elements) :
    other.chain others (current.relabelled rename) =
      .ok (elements.map (Term.relabelled rename)) := by
  induction elements generalizing unused others current with
  | nil =>
    rcases chain_ok.1 read with ⟨rfl, -⟩ | ⟨-, _, _, _, _, -, -, -, -, -, made⟩
    · exact chain_ok.2 (.inl ⟨rfl, rfl⟩)
    · cases made
  | cons element tail inductionHypothesis =>
    rcases chain_ok.1 read with ⟨-, empty⟩ | ⟨nonempty, cell, first, rest, more, found, fresh,
      firstFound, restFound, further, made⟩
    · cases empty
    · cases made
      have injective := Node.relabelled_injective relabels.injective
      refine chain_ok.2 (.inr ⟨?_, cell.relabelled rename, element.relabelled rename,
        rest.relabelled rename, tail.map (Term.relabelled rename), ?_, ?_, ?_, ?_, ?_, rfl⟩)
      · exact fun empty => nonempty (Term.relabelled_injective relabels.injective
          (empty : current.relabelled rename = Term.relabelled rename (.iri Vocabulary.rdfNil)))
      · rw [Term.node?_relabelled, found, Option.map_some]
      · exact perm.mem_iff.2 (List.mem_map_of_mem fresh)
      · rw [relabels.object?_of_single (firsts.single cell), firstFound, Option.map_some]
      · rw [relabels.object?_of_single (rests.single cell), restFound, Option.map_some]
      · refine inductionHypothesis ?_ further
        rw [List.map_erase injective]
        exact perm.erase _

/-- The elements of a collection with other labels. -/
theorem elements (firsts : graph.Functional Vocabulary.rdfFirst)
    (rests : graph.Functional Vocabulary.rdfRest) {head : Term} {members : List Term}
    (read : graph.elements head = .ok members) :
    other.elements (head.relabelled rename) = .ok (members.map (Term.relabelled rename)) :=
  mapError_ok.2 (relabels.chain relabels.subjects firsts rests (mapError_ok.1 read))

end Relabels

/-! ### Paths -/

/-- The predicates of paths that have one value. -/
def pathConstructs : List Iri :=
  [Vocabulary.shInversePath, Vocabulary.shZeroOrMorePath, Vocabulary.shOneOrMorePath,
    Vocabulary.shZeroOrOnePath, Vocabulary.shAlternativePath, Vocabulary.rdfFirst,
    Vocabulary.rdfRest, Vocabulary.shUnion]

namespace Relabels

variable {graph other : Graph} (relabels : Relabels rename graph other)

include relabels

theorem pathWithin (functional : ∀ predicate ∈ pathConstructs, graph.Functional predicate)
    {levels : Nat} {node : Term} {path : Sparql.Path}
    (read : graph.pathWithin levels node = .ok path) :
    other.pathWithin levels (node.relabelled rename) = .ok path := by
  induction levels generalizing node path with
  | zero => cases read
  | succ levels inductionHypothesis =>
    have inverse : Vocabulary.shInversePath ∈ pathConstructs := by decide
    have star : Vocabulary.shZeroOrMorePath ∈ pathConstructs := by decide
    have plus : Vocabulary.shOneOrMorePath ∈ pathConstructs := by decide
    have optional : Vocabulary.shZeroOrOnePath ∈ pathConstructs := by decide
    have alternative : Vocabulary.shAlternativePath ∈ pathConstructs := by decide
    have first : Vocabulary.rdfFirst ∈ pathConstructs := by decide
    have union : Vocabulary.shUnion ∈ pathConstructs := by decide
    have object {predicate : Iri} (known : predicate ∈ pathConstructs) (label : String) :
        other.object? (.blank (rename label)) predicate =
          (graph.object? (.blank label) predicate).map (Term.relabelled rename) :=
      relabels.object?_of_single ((functional predicate known).single (.blank label))
    have inner {value : Term} {construct : Sparql.Path → Sparql.Path}
        (read : (graph.pathWithin levels value).map construct = .ok path) :
        (other.pathWithin levels (value.relabelled rename)).map construct = .ok path := by
      obtain ⟨inside, insideRead, made⟩ := map_ok.1 read
      exact map_ok.2 ⟨inside, inductionHypothesis insideRead, made⟩
    have members {head : Term} {values : List Term} {paths : List Sparql.Path}
        (listed : graph.elements head = .ok values)
        (read : values.mapM (graph.pathWithin levels) = .ok paths) :
        ∃ others, other.elements (head.relabelled rename) = .ok others ∧
          others.mapM (other.pathWithin levels) = .ok paths := by
      refine ⟨_, relabels.elements (functional _ (by decide)) (functional _ (by decide)) listed, ?_⟩
      rw [← List.map_id paths]
      exact mapM_map_ok (fun _ _ _ => inductionHypothesis) read
    cases node with
    | literal value => cases read
    | iri name => exact read
    | blank label =>
      rw [Term.relabelled]
      unfold Graph.pathWithin at read ⊢
      simp only [object inverse, object star, object plus, object optional, object alternative,
        object first, object union] at read ⊢
      split at read
      · rename_i value found
        rw [found]
        exact inner read
      rename_i noInverse
      rw [Option.eq_none_iff_forall_ne_some.2 noInverse]
      split at read
      · rename_i value found
        rw [found]
        exact inner read
      rename_i noStar
      rw [Option.eq_none_iff_forall_ne_some.2 noStar]
      split at read
      · rename_i value found
        rw [found]
        exact inner read
      rename_i noPlus
      rw [Option.eq_none_iff_forall_ne_some.2 noPlus]
      split at read
      · rename_i value found
        rw [found]
        exact inner read
      rename_i noOptional
      rw [Option.eq_none_iff_forall_ne_some.2 noOptional]
      split at read
      · rename_i head found
        rw [found]
        obtain ⟨values, listed, further⟩ := bind_ok.1 read
        obtain ⟨paths, pathsRead, made⟩ := bind_ok.1 further
        obtain ⟨others, othersListed, othersRead⟩ := members listed pathsRead
        refine bind_ok.2 ⟨others, othersListed, bind_ok.2 ⟨paths, othersRead, ?_⟩⟩
        split at made
        · cases made
        · rename_i nonempty
          rw [if_neg nonempty]
          exact made
      rename_i noAlternative
      rw [Option.eq_none_iff_forall_ne_some.2 noAlternative]
      simp only [Option.map_none, Option.isSome_map]
      split at read
      · rename_i cell
        rw [if_pos cell]
        obtain ⟨values, listed, further⟩ := bind_ok.1 read
        obtain ⟨paths, pathsRead, made⟩ := bind_ok.1 further
        obtain ⟨others, othersListed, othersRead⟩ := members listed pathsRead
        exact bind_ok.2 ⟨others, othersListed, bind_ok.2 ⟨paths, othersRead, made⟩⟩
      · split at read
        · cases read
        · cases read

end Relabels

/-! ### What the order must not decide -/

/-- The predicates of shapes that have one value. -/
def singleValued : List Iri :=
  pathConstructs ++ [Vocabulary.shextPathAlias, Vocabulary.shIn, Vocabulary.shOr,
    Vocabulary.shClass, Vocabulary.shMinCount, Vocabulary.shMaxCount, Vocabulary.shextBnodeDepth,
    Vocabulary.ontHierarchyLevel]

/-- The nodes among some terms. -/
def nodesOf (terms : List Term) : List Node :=
  terms.filterMap Term.node?

/-- The collection of the members of a path, if it is a union. -/
def unionOf (graph : Graph) (path : Term) : Option Term :=
  path.node?.bind fun node => graph.object? node Vocabulary.shUnion

/-- The members of a path that is a union. -/
def membersOf (graph : Graph) (path : Term) : List Term :=
  (graph.unionOf path).elim [] fun head => (graph.elements head).toOption.getD []

/-- Whether what a property shape says is decided where one value is taken. -/
structure Definite (graph : Graph) (property : Node) : Prop where
  /-- One of the paths is a union at most. -/
  union : ((graph.objects property Vocabulary.shPath).filter
    fun path => (graph.unionOf path).isSome).length ≤ 1
  /-- A member of a union has one path at most. -/
  members : ∀ path ∈ graph.objects property Vocabulary.shPath,
    ∀ member ∈ nodesOf (graph.membersOf path), graph.Single member Vocabulary.shPath
  /-- There is one filter shape at most. -/
  filterShape : graph.Single property Vocabulary.shFilterShape
  /-- A filter shape has one property at most, whose conditions have one path each. -/
  conditions : ∀ filterShape ∈ nodesOf (graph.objects property Vocabulary.shFilterShape),
    graph.Single filterShape Vocabulary.shProperty ∧
    ∀ condition ∈ nodesOf (graph.objects filterShape Vocabulary.shProperty),
      graph.Single condition Vocabulary.shPath ∧
      ∀ nested ∈ nodesOf (graph.objects condition Vocabulary.shProperty),
        graph.Single nested Vocabulary.shPath

instance (graph : Graph) (property : Node) : Decidable (graph.Definite property) :=
  decidable_of_iff (_ ∧ _ ∧ _ ∧ _)
    ⟨fun ⟨union, members, filterShape, conditions⟩ => ⟨union, members, filterShape, conditions⟩,
      fun definite =>
        ⟨definite.union, definite.members, definite.filterShape, definite.conditions⟩⟩

/-- Whether no property of a filter shape of a property shape has several properties of its own. -/
def Undivided (graph : Graph) (property : Node) : Prop :=
  ∀ filterShape ∈ nodesOf (graph.objects property Vocabulary.shFilterShape),
    ∀ condition ∈ nodesOf (graph.objects filterShape Vocabulary.shProperty),
      graph.Single condition Vocabulary.shProperty

instance (graph : Graph) (property : Node) : Decidable (graph.Undivided property) :=
  inferInstanceAs (Decidable (∀ _ ∈ _, ∀ _ ∈ _, _))

theorem mem_nodesOf {terms : List Term} {term : Term} {node : Node} (member : term ∈ terms)
    (found : term.node? = some node) : node ∈ nodesOf terms :=
  List.mem_filterMap.2 ⟨term, member, found⟩

theorem nodeValue_ok {shape : Node} {predicate : Iri} {value : Term} {node : Node} :
    nodeValue shape predicate value = .ok node ↔ value.node? = some node := by
  unfold nodeValue
  cases value.node? <;> simp

/-! ### Paths of shapes -/

/-- A value of a path property is a union of choices or a path. -/
theorem shapePaths_cons_ok {graph : Graph} {synonym : Option Iri} {value : Term}
    {rest : List Term} {paths choices : List ShapePath} :
    graph.shapePaths synonym (value :: rest) = .ok (paths, choices) ↔
      (∃ members others, graph.choices? value = .ok (some members) ∧
        graph.shapePaths synonym rest = .ok (paths, others) ∧ members ++ others = choices) ∨
      ∃ path others, graph.choices? value = .ok none ∧ graph.path value = .ok path ∧
        graph.shapePaths synonym rest = .ok (others, choices) ∧
        ⟨path, synonym⟩ :: others = paths := by
  rw [shapePaths, bind_ok]
  constructor
  · rintro ⟨read, choicesRead, further⟩
    cases read with
    | some members =>
      obtain ⟨⟨later, others⟩, laterRead, made⟩ := bind_ok.1 further
      cases made
      exact .inl ⟨members, others, choicesRead, laterRead, rfl⟩
    | none =>
      obtain ⟨path, pathRead, further⟩ := bind_ok.1 further
      obtain ⟨⟨others, later⟩, laterRead, made⟩ := bind_ok.1 further
      cases made
      exact .inr ⟨path, others, choicesRead, pathRead, laterRead, rfl⟩
  · rintro (⟨members, others, choicesRead, laterRead, rfl⟩ |
      ⟨path, others, choicesRead, pathRead, laterRead, rfl⟩)
    · exact ⟨some members, choicesRead, bind_ok.2 ⟨_, laterRead, rfl⟩⟩
    · exact ⟨none, choicesRead, bind_ok.2 ⟨path, pathRead, bind_ok.2 ⟨_, laterRead, rfl⟩⟩⟩

/-- A path that is read as a union is one. -/
theorem unionOf_of_choices? {graph : Graph} {path : Term} {members : List ShapePath}
    (read : graph.choices? path = .ok (some members)) : (graph.unionOf path).isSome = true := by
  unfold choices? at read
  rw [unionOf]
  split at read
  · cases read
  · rename_i head found
    rw [found]
    rfl

/-- The order of the values is that of the paths, if one of them is a union at most. -/
theorem shapePaths_perm {graph : Graph} {synonym : Option Iri} {values others : List Term}
    (perm : values.Perm others)
    (union : (values.filter fun path => (graph.unionOf path).isSome).length ≤ 1)
    {paths choices : List ShapePath}
    (read : graph.shapePaths synonym values = .ok (paths, choices)) :
    ∃ again, graph.shapePaths synonym others = .ok (again, choices) ∧ again.Perm paths := by
  induction perm generalizing paths choices with
  | nil => exact ⟨paths, read, .refl paths⟩
  | @cons value rest others _ inductionHypothesis =>
    have fewer : (rest.filter fun path => (graph.unionOf path).isSome).length ≤ 1 := by
      refine Nat.le_trans ?_ union
      exact ((List.sublist_cons_self value rest).filter _).length_le
    rcases shapePaths_cons_ok.1 read with ⟨members, later, choicesRead, laterRead, rfl⟩ |
      ⟨path, later, choicesRead, pathRead, laterRead, rfl⟩
    · obtain ⟨again, againRead, same⟩ := inductionHypothesis fewer laterRead
      exact ⟨again, shapePaths_cons_ok.2 (.inl ⟨members, later, choicesRead, againRead, rfl⟩), same⟩
    · obtain ⟨again, againRead, same⟩ := inductionHypothesis fewer laterRead
      exact ⟨_, shapePaths_cons_ok.2 (.inr ⟨path, again, choicesRead, pathRead, againRead, rfl⟩),
        same.cons _⟩
  | swap second first rest =>
    rcases shapePaths_cons_ok.1 read with ⟨members, later, choicesRead, laterRead, rfl⟩ |
      ⟨path, later, choicesRead, pathRead, laterRead, rfl⟩ <;>
    rcases shapePaths_cons_ok.1 laterRead with ⟨others, last, othersRead, lastRead, rfl⟩ |
      ⟨next, last, othersRead, nextRead, lastRead, rfl⟩
    · simp [unionOf_of_choices? choicesRead, unionOf_of_choices? othersRead] at union
    · exact ⟨_, shapePaths_cons_ok.2 (.inr ⟨next, last, othersRead, nextRead,
        shapePaths_cons_ok.2 (.inl ⟨members, later, choicesRead, lastRead, rfl⟩), rfl⟩), .refl _⟩
    · exact ⟨_, shapePaths_cons_ok.2 (.inl ⟨others, last, othersRead,
        shapePaths_cons_ok.2 (.inr ⟨path, later, choicesRead, pathRead, lastRead, rfl⟩), rfl⟩),
        .refl _⟩
    · exact ⟨_, shapePaths_cons_ok.2 (.inr ⟨next, _, othersRead, nextRead,
        shapePaths_cons_ok.2 (.inr ⟨path, last, choicesRead, pathRead, lastRead, rfl⟩), rfl⟩),
        .swap _ _ _⟩
  | trans one _ inductionHypothesis later =>
    obtain ⟨again, againRead, same⟩ := inductionHypothesis union read
    have fewer := union
    rw [(one.filter _).length_eq] at fewer
    obtain ⟨last, lastRead, further⟩ := later fewer againRead
    exact ⟨last, lastRead, further.trans same⟩

namespace Relabels

variable {graph other : Graph} (relabels : Relabels rename graph other)
  (functional : ∀ predicate ∈ singleValued, graph.Functional predicate)

include relabels functional

theorem object?_of_mem {predicate : Iri} (known : predicate ∈ singleValued) (node : Node) :
    other.object? (node.relabelled rename) predicate =
      (graph.object? node predicate).map (Term.relabelled rename) :=
  relabels.object?_of_single ((functional predicate known).single node)

theorem path {node : Term} {path : Sparql.Path} (read : graph.path node = .ok path) :
    other.path (node.relabelled rename) = .ok path :=
  relabels.pathWithin (fun predicate known => functional predicate (List.mem_append_left _ known))
    read

theorem collected {head : Term} {members : List Term} (read : graph.elements head = .ok members) :
    other.elements (head.relabelled rename) = .ok (members.map (Term.relabelled rename)) :=
  relabels.elements (functional _ (by decide)) (functional _ (by decide)) read

/-! ### Values of shapes -/

omit relabels functional in
theorem iriValue_relabelled {shape again : Node} {predicate : Iri} {value : Term} {name : Iri}
    (read : iriValue shape predicate value = .ok name) :
    iriValue again predicate (value.relabelled rename) = .ok name := by
  cases value <;> cases read
  rfl

omit relabels functional in
theorem plainValue_relabelled {shape again : Node} {predicate : Iri} {value : Term}
    {term : Sparql.Term} (read : plainValue shape predicate value = .ok term) :
    plainValue again predicate (value.relabelled rename) = .ok term := by
  cases value <;> cases read <;> rfl

omit relabels functional in
theorem nodeValue_relabelled {shape again : Node} {predicate : Iri} {value : Term} {node : Node}
    (read : nodeValue shape predicate value = .ok node) :
    nodeValue again predicate (value.relabelled rename) = .ok (node.relabelled rename) := by
  rw [nodeValue_ok] at read ⊢
  rw [Term.node?_relabelled, read, Option.map_some]

theorem synonymOf {node : Node} {synonym : Option Iri} (read : graph.synonymOf node = .ok synonym) :
    other.synonymOf (node.relabelled rename) = .ok synonym := by
  unfold Graph.synonymOf at read ⊢
  rw [relabels.object?_of_mem functional (by decide)]
  cases found : graph.object? node Vocabulary.shextPathAlias with
  | none =>
    rw [found] at read
    exact read
  | some value =>
    rw [found] at read
    obtain ⟨name, nameRead, made⟩ := map_ok.1 read
    exact map_ok.2 ⟨name, iriValue_relabelled nameRead, made⟩

theorem countValue {bound : Nat} {shape : Node} {predicate : Iri}
    (known : predicate ∈ singleValued) {count : Option Nat}
    (read : graph.countValue bound shape predicate = .ok count) :
    other.countValue bound (shape.relabelled rename) predicate = .ok count := by
  unfold Graph.countValue at read ⊢
  rw [relabels.object?_of_mem functional known]
  cases found : graph.object? shape predicate with
  | none =>
    rw [found] at read
    exact read
  | some value =>
    rw [found] at read
    cases value with
    | literal literal =>
      simp only [Option.map_some, Term.relabelled] at read ⊢
      split at read
      · exact read
      · cases read
    | _ => cases read

/-! ### Unions -/

theorem choice {member : Term}
    (single : ∀ node, member.node? = some node → graph.Single node Vocabulary.shPath)
    {path : ShapePath} (read : graph.choice member = .ok path) :
    other.choice (member.relabelled rename) = .ok path := by
  unfold Graph.choice at read ⊢
  rw [Term.node?_relabelled]
  cases node : member.node? with
  | none =>
    simp only [node, Option.map_none] at read ⊢
    obtain ⟨inner, innerRead, made⟩ := bind_ok.1 read
    exact bind_ok.2 ⟨inner, relabels.path functional innerRead, made⟩
  | some found =>
    simp only [node, Option.map_some, Option.bind_eq_bind, Option.bind_some,
      relabels.object?_of_single (single found node)] at read ⊢
    cases described : graph.object? found Vocabulary.shPath with
    | none =>
      simp only [described, Option.map_none, Option.bind_none] at read ⊢
      obtain ⟨inner, innerRead, made⟩ := bind_ok.1 read
      exact bind_ok.2 ⟨inner, relabels.path functional innerRead, made⟩
    | some value =>
      simp only [described, Option.map_some, Option.bind_some] at read ⊢
      obtain ⟨synonym, synonymRead, further⟩ := bind_ok.1 read
      obtain ⟨inner, innerRead, made⟩ := bind_ok.1 further
      exact bind_ok.2 ⟨synonym, relabels.synonymOf functional synonymRead,
        bind_ok.2 ⟨inner, relabels.path functional innerRead, made⟩⟩

theorem unionOf (path : Term) :
    other.unionOf (path.relabelled rename) =
      (graph.unionOf path).map (Term.relabelled rename) := by
  rw [Graph.unionOf, Graph.unionOf, Term.node?_relabelled]
  cases path.node? with
  | none => rfl
  | some node => exact relabels.object?_of_mem functional (by decide) node

theorem choices? {path : Term}
    (single : ∀ member ∈ nodesOf (graph.membersOf path), graph.Single member Vocabulary.shPath)
    {choices : Option (List ShapePath)} (read : graph.choices? path = .ok choices) :
    other.choices? (path.relabelled rename) = .ok choices := by
  have union := relabels.unionOf functional path
  rw [Graph.unionOf] at union
  unfold Graph.choices? at read ⊢
  rw [union]
  cases found : graph.unionOf path with
  | none =>
    rw [Graph.unionOf] at found
    rw [found] at read
    exact read
  | some head =>
    rw [membersOf, found] at single
    rw [Graph.unionOf] at found
    rw [found] at read
    obtain ⟨members, membersRead, further⟩ := bind_ok.1 read
    obtain ⟨paths, pathsRead, made⟩ := bind_ok.1 further
    rw [Option.elim_some, membersRead] at single
    refine bind_ok.2 ⟨_, relabels.collected functional membersRead, bind_ok.2 ⟨paths, ?_, made⟩⟩
    rw [← List.map_id paths]
    exact mapM_map_ok (fun member listed _ => relabels.choice functional fun node found =>
      single node (mem_nodesOf listed found)) pathsRead

theorem shapePaths {synonym : Option Iri} {values : List Term}
    (single : ∀ path ∈ values, ∀ member ∈ nodesOf (graph.membersOf path),
      graph.Single member Vocabulary.shPath) {paths choices : List ShapePath}
    (read : graph.shapePaths synonym values = .ok (paths, choices)) :
    other.shapePaths synonym (values.map (Term.relabelled rename)) = .ok (paths, choices) := by
  induction values generalizing paths choices with
  | nil => exact read
  | cons value rest inductionHypothesis =>
    rw [List.forall_mem_cons] at single
    rw [List.map_cons]
    rcases shapePaths_cons_ok.1 read with ⟨members, later, choicesRead, laterRead, made⟩ |
      ⟨path, later, choicesRead, pathRead, laterRead, made⟩
    · exact shapePaths_cons_ok.2 (.inl ⟨members, later,
        relabels.choices? functional single.1 choicesRead, inductionHypothesis single.2 laterRead,
        made⟩)
    · exact shapePaths_cons_ok.2 (.inr ⟨path, later,
        relabels.choices? functional single.1 choicesRead, relabels.path functional pathRead,
        inductionHypothesis single.2 laterRead, made⟩)

/-! ### Conditions -/

theorem filterConstraint {node : Node} (single : graph.Single node Vocabulary.shPath)
    {constraint : FilterConstraint} (read : graph.filterConstraint node = .ok constraint) :
    other.filterConstraint (node.relabelled rename) = .ok constraint := by
  unfold Graph.filterConstraint at read ⊢
  rw [relabels.object?_of_single single]
  cases described : graph.object? node Vocabulary.shPath with
  | none =>
    rw [described] at read
    cases read
  | some value =>
    rw [described] at read
    obtain ⟨path, pathRead, further⟩ := bind_ok.1 read
    obtain ⟨values, valuesRead, further⟩ := bind_ok.1 further
    have plain : ∀ value ∈ values, value.unknown? = none := by
      intro value member
      obtain ⟨source, -, read⟩ := Success.source_of_mem_mapM valuesRead value member
      exact ground_of_plainValue read
    obtain ⟨again, againRead, same⟩ := Success.mapM_perm
      (relabels.objects node Vocabulary.shHasValue).symm
      (mapM_map_ok (fun _ _ _ read => (plainValue_relabelled read :
        plainValue (node.relabelled rename) _ _ = .ok (id _))) valuesRead)
    rw [List.map_id] at same
    have sorted : sortedByKey Sparql.Term.text again = sortedByKey Sparql.Term.text values :=
      sortedByKey_eq_of_perm same fun first inFirst second inSecond =>
        Sparql.Term.eq_of_text (plain first (same.mem_iff.1 inFirst))
          (plain second (same.mem_iff.1 inSecond))
    refine bind_ok.2 ⟨path, relabels.path functional pathRead, bind_ok.2 ⟨again, againRead, ?_⟩⟩
    rw [sorted, relabels.object?_of_mem functional (by decide)]
    have filled {listed : List Sparql.Term}
        (made : (if (sortedByKey Sparql.Term.text values ++ listed).isEmpty then
          .error (.missingFilterValue node)
          else return ⟨path, sortedByKey Sparql.Term.text values ++ listed⟩ :
            Except Shape.Error FilterConstraint) = .ok constraint) :
        (if (sortedByKey Sparql.Term.text values ++ listed).isEmpty then
          .error (.missingFilterValue (node.relabelled rename))
          else return ⟨path, sortedByKey Sparql.Term.text values ++ listed⟩ :
            Except Shape.Error FilterConstraint) = .ok constraint := by
      split at made
      · cases made
      · rename_i nonempty
        rw [if_neg nonempty]
        exact made
    simp only at further ⊢
    cases members : graph.object? node Vocabulary.shIn with
    | none =>
      rw [members] at further
      exact filled further
    | some head =>
      rw [members] at further
      obtain ⟨elements, elementsRead, further⟩ := bind_ok.1 further
      obtain ⟨listed, listedRead, made⟩ := bind_ok.1 further
      refine bind_ok.2 ⟨_, relabels.collected functional elementsRead,
        bind_ok.2 ⟨listed, ?_, filled made⟩⟩
      rw [← List.map_id listed]
      exact mapM_map_ok (fun _ _ _ => plainValue_relabelled) listedRead

theorem filtersOf {property : Node} (single : graph.Single property Vocabulary.shProperty)
    (path : graph.Single property Vocabulary.shPath)
    (nestedPath : ∀ nested ∈ nodesOf (graph.objects property Vocabulary.shProperty),
      graph.Single nested Vocabulary.shPath) {constraints : List FilterConstraint}
    (read : graph.filtersOf property = .ok constraints) :
    other.filtersOf (property.relabelled rename) = .ok constraints := by
  unfold Graph.filtersOf at read ⊢
  rw [relabels.objects_of_single single]
  obtain ⟨nested, nestedRead, further⟩ := bind_ok.1 read
  refine bind_ok.2 ⟨nested.map (Node.relabelled rename),
    mapM_map_ok (fun _ _ _ => nodeValue_relabelled) nestedRead, ?_⟩
  rw [List.isEmpty_map]
  split at further
  · rename_i empty
    rw [if_pos empty]
    obtain ⟨constraint, constraintRead, made⟩ := bind_ok.1 further
    exact bind_ok.2 ⟨constraint, relabels.filterConstraint functional path constraintRead, made⟩
  · rename_i nonempty
    rw [if_neg nonempty, ← List.map_id constraints]
    refine mapM_map_ok (fun node member _ => relabels.filterConstraint functional ?_) further
    obtain ⟨value, among, valueRead⟩ := Success.source_of_mem_mapM nestedRead node member
    exact nestedPath node (mem_nodesOf among (nodeValue_ok.1 valueRead))

theorem filters {property : Node} (definite : graph.Definite property)
    (undivided : graph.Undivided property) {constraints : List FilterConstraint}
    (read : graph.filters property = .ok constraints) :
    other.filters (property.relabelled rename) = .ok constraints := by
  unfold Graph.filters at read ⊢
  rw [relabels.objects_of_single definite.filterShape]
  obtain ⟨lists, listsRead, made⟩ := bind_ok.1 read
  refine bind_ok.2 ⟨lists, ?_, made⟩
  rw [← List.map_id lists]
  refine mapM_map_ok (fun value member list read => ?_) listsRead
  obtain ⟨filterShape, valueRead, further⟩ := bind_ok.1 read
  obtain ⟨inner, innerRead, made⟩ := bind_ok.1 further
  have listed := mem_nodesOf member (nodeValue_ok.1 valueRead)
  obtain ⟨single, conditions⟩ := definite.conditions filterShape listed
  refine bind_ok.2 ⟨_, nodeValue_relabelled valueRead, bind_ok.2 ⟨inner, ?_, made⟩⟩
  rw [relabels.objects_of_single single, ← List.map_id inner]
  refine mapM_map_ok (fun value member list read => ?_) innerRead
  obtain ⟨condition, conditionRead, further⟩ := bind_ok.1 read
  have among := mem_nodesOf member (nodeValue_ok.1 conditionRead)
  obtain ⟨path, nested⟩ := conditions condition among
  exact bind_ok.2 ⟨_, nodeValue_relabelled conditionRead,
    relabels.filtersOf functional (undivided filterShape listed condition among) path nested
      further⟩

/-! ### Classes -/

theorem memberClass {shape : Node} {member : Term} {name : Iri}
    (read : graph.memberClass shape member = .ok name) :
    other.memberClass (shape.relabelled rename) (member.relabelled rename) = .ok name := by
  unfold Graph.memberClass at read ⊢
  rw [Term.node?_relabelled]
  cases node : member.node? with
  | none =>
    rw [node] at read
    cases read
  | some found =>
    simp only [node, Option.map_some] at read ⊢
    rw [relabels.object?_of_mem functional (by decide)]
    cases value : graph.object? found Vocabulary.shClass with
    | none =>
      rw [value] at read
      cases read
    | some name =>
      rw [value] at read
      exact iriValue_relabelled read

theorem classes {shape : Node} {names : List Iri} (read : graph.classes shape = .ok names) :
    other.classes (shape.relabelled rename) = .ok names := by
  unfold Graph.classes at read ⊢
  rw [relabels.objects_of_single ((functional Vocabulary.shClass (by decide)).single shape),
    relabels.object?_of_mem functional (by decide)]
  obtain ⟨direct, directRead, further⟩ := bind_ok.1 read
  refine bind_ok.2 ⟨direct, ?_, ?_⟩
  · rw [← List.map_id direct]
    exact mapM_map_ok (fun _ _ _ => iriValue_relabelled) directRead
  · cases members : graph.object? shape Vocabulary.shOr with
    | none =>
      rw [members] at further
      match direct, further with
      | [], further | [_], further => exact further
      | _ :: _ :: _, further => exact nomatch further
    | some head =>
      rw [members] at further
      match direct, further with
      | [], further =>
        obtain ⟨elements, elementsRead, further⟩ := bind_ok.1 further
        refine bind_ok.2 ⟨_, relabels.collected functional elementsRead, ?_⟩
        rw [← List.map_id names]
        exact mapM_map_ok (fun _ _ _ => relabels.memberClass functional) further
      | [_], further | _ :: _ :: _, further => exact nomatch further

/-! ### Shapes -/

theorem propertyShape {node : Node} (definite : graph.Definite node)
    (undivided : graph.Undivided node) {shape : PropertyShape}
    (read : graph.propertyShape node = .ok shape) :
    other.propertyShape (node.relabelled rename) =
      .ok { shape with id := (node.relabelled rename).text } := by
  unfold Graph.propertyShape at read ⊢
  obtain ⟨synonym, synonymRead, further⟩ := bind_ok.1 read
  obtain ⟨⟨paths, choices⟩, pathsRead, further⟩ := bind_ok.1 further
  have union : (((graph.objects node Vocabulary.shPath).map (Term.relabelled rename)).filter
      fun path => (other.unionOf path).isSome).length ≤ 1 := by
    rw [List.filter_map, List.length_map]
    simpa only [Function.comp_def, relabels.unionOf functional, Option.isSome_map]
      using definite.union
  obtain ⟨again, againRead, same⟩ := shapePaths_perm (relabels.objects node Vocabulary.shPath).symm
    union (relabels.shapePaths functional definite.members pathsRead)
  have sorted : sortedByKey ShapePath.key again = sortedByKey ShapePath.key paths :=
    sortedByKey_eq_of_perm same fun _ _ _ _ sameKey => ShapePath.legible_key.injective sameKey
  refine bind_ok.2 ⟨synonym, relabels.synonymOf functional synonymRead,
    bind_ok.2 ⟨(again, choices), againRead, ?_⟩⟩
  simp only [same.isEmpty_eq, sorted] at further ⊢
  split at further
  · cases further
  · rename_i nonempty
    rw [if_neg nonempty]
    obtain ⟨filters, filtersRead, further⟩ := bind_ok.1 further
    obtain ⟨classes, classesRead, further⟩ := bind_ok.1 further
    obtain ⟨minCount, minRead, further⟩ := bind_ok.1 further
    obtain ⟨maxCount, maxRead, made⟩ := bind_ok.1 further
    cases made
    exact bind_ok.2 ⟨filters, relabels.filters functional definite undivided filtersRead,
      bind_ok.2 ⟨classes, relabels.classes functional classesRead,
      bind_ok.2 ⟨minCount, relabels.countValue functional (by decide) minRead,
      bind_ok.2 ⟨maxCount, relabels.countValue functional (by decide) maxRead, rfl⟩⟩⟩⟩

/-- The property shapes with other labels say the same in the same order. -/
theorem properties {shape : Node}
    (definite : ∀ property ∈ nodesOf (graph.objects shape Vocabulary.shProperty),
      graph.Definite property ∧ graph.Undivided property) {shapes : List PropertyShape}
    (read : ((graph.objects shape Vocabulary.shProperty).mapM fun value => do
      graph.propertyShape (← nodeValue shape Vocabulary.shProperty value)) = .ok shapes) :
    ∃ others, ((other.objects (shape.relabelled rename) Vocabulary.shProperty).mapM
        fun value => do
          other.propertyShape
            (← nodeValue (shape.relabelled rename) Vocabulary.shProperty value)) = .ok others ∧
      (sortedByKey PropertyShape.contentKey others).map PropertyShape.content =
        (sortedByKey PropertyShape.contentKey shapes).map PropertyShape.content := by
  obtain ⟨mapped, mappedRead, alike⟩ : ∃ mapped,
      (((graph.objects shape Vocabulary.shProperty).map (Term.relabelled rename)).mapM
        fun value => do
          other.propertyShape
            (← nodeValue (shape.relabelled rename) Vocabulary.shProperty value)) = .ok mapped ∧
      mapped.map PropertyShape.content = shapes.map PropertyShape.content := by
    refine mapM_map_exists (fun value member property read => ?_) read
    obtain ⟨node, nodeRead, propertyRead⟩ := bind_ok.1 read
    obtain ⟨definite, undivided⟩ := definite node (mem_nodesOf member (nodeValue_ok.1 nodeRead))
    exact ⟨_, bind_ok.2 ⟨_, nodeValue_relabelled nodeRead,
      relabels.propertyShape functional definite undivided propertyRead⟩, rfl⟩
  obtain ⟨others, othersRead, perm⟩ :=
    Success.mapM_perm (relabels.objects shape Vocabulary.shProperty).symm mappedRead
  exact ⟨others, othersRead,
    PropertyShape.map_content_sortedByKey_of_perm (alike ▸ perm.map _)⟩

theorem nodeShape {name : Iri}
    (definite : ∀ property ∈ nodesOf (graph.objects (.iri name) Vocabulary.shProperty),
      graph.Definite property ∧ graph.Undivided property) {shape : NodeShape}
    (read : graph.nodeShape name = .ok shape) :
    ∃ properties, other.nodeShape name = .ok { shape with properties } ∧
      properties.map PropertyShape.content = shape.properties.map PropertyShape.content := by
  unfold Graph.nodeShape at read ⊢
  have known := relabels.hasSubject (.iri name)
  simp only [Node.relabelled] at known
  simp only [known] at read ⊢
  split at read
  · cases read
  · rename_i found
    obtain ⟨classes, classesRead, further⟩ := bind_ok.1 read
    obtain ⟨properties, propertiesRead, further⟩ := bind_ok.1 further
    obtain ⟨blankDepth, depthRead, further⟩ := bind_ok.1 further
    obtain ⟨level, levelRead, made⟩ := bind_ok.1 further
    cases made
    obtain ⟨again, againRead, sameClasses⟩ := Success.mapM_perm
      (relabels.objects (.iri name) Vocabulary.shTargetClass).symm
      (mapM_map_ok (fun _ _ _ read => (iriValue_relabelled read :
        iriValue (.iri name) _ _ = .ok (id _))) classesRead)
    rw [List.map_id] at sameClasses
    have sorted : sortedByKey Iri.text again = sortedByKey Iri.text classes :=
      sortedByKey_eq_of_perm sameClasses fun _ _ _ _ => congrArg Iri.mk
    obtain ⟨others, othersRead, sameContent⟩ :=
      relabels.properties functional definite propertiesRead
    refine ⟨sortedByKey PropertyShape.contentKey others, ?_, sameContent⟩
    rw [if_neg found, ← sorted]
    exact bind_ok.2 ⟨again, againRead, bind_ok.2 ⟨others, othersRead,
      bind_ok.2 ⟨blankDepth, relabels.countValue functional (by decide) depthRead,
      bind_ok.2 ⟨level, relabels.countValue functional (by decide) levelRead, rfl⟩⟩⟩⟩

end Relabels

end Graph

end ShapeQuery.Rdf
