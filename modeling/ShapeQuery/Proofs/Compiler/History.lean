/-
This file proves that a session answers as its history says. Each of its two stores is a finite map
with last-write semantics: what is found under a key is what the last operation that concerns the
key has written, and nothing if that operation has removed it. The history alone decides which
operation that is; a load that fails concerns no key, and neither does a change of compilers.
-/
import Mathlib.Data.List.Induction
import ShapeQuery.Compiler.Session

namespace ShapeQuery

/-! ### Histories -/

section

variable {Operation α : Type} {effect : Operation → Option (Option α)}
variable {operations : List Operation} {value : α}

/-- Whether a value is the last one that some operations write. The effect of an operation is
nothing, or it removes the value, or it writes one. -/
def Lasts (effect : Operation → Option (Option α)) (operations : List Operation) (value : α) :
    Prop :=
  ∃ before operation after, operations = before ++ operation :: after ∧
    effect operation = some (some value) ∧ ∀ later ∈ after, effect later = none

theorem not_lasts_nil : ¬ Lasts effect [] value := by
  rintro ⟨before, operation, after, split, -⟩
  exact absurd split.symm (List.append_ne_nil_of_right_ne_nil _ (List.cons_ne_nil _ _))

/-- A value lasts after an operation that writes it, and after one that has no effect on it. -/
theorem lasts_concat {operation : Operation} :
    Lasts effect (operations ++ [operation]) value ↔
      effect operation = some (some value) ∨
        effect operation = none ∧ Lasts effect operations value := by
  constructor
  · rintro ⟨before, writing, after, split, writes, untouched⟩
    rcases List.eq_nil_or_concat after with rfl | ⟨others, last, rfl⟩
    · obtain ⟨-, same⟩ := List.append_inj' split rfl
      exact .inl (List.singleton_inj.1 same ▸ writes)
    · rw [List.concat_eq_append] at split untouched
      rw [← List.cons_append, ← List.append_assoc] at split
      obtain ⟨rfl, same⟩ := List.append_inj' split rfl
      rw [List.forall_mem_append, List.forall_mem_singleton, ← List.singleton_inj.1 same]
        at untouched
      exact .inr ⟨untouched.2, before, writing, others, rfl, writes, untouched.1⟩
  · rintro (writes | ⟨silent, before, writing, after, rfl, writes, untouched⟩)
    · exact ⟨operations, operation, [], rfl, writes, List.forall_mem_nil _⟩
    · refine ⟨before, writing, after ++ [operation], ?_, writes, ?_⟩
      · rw [List.append_assoc, List.cons_append]
      · exact List.forall_mem_append.2 ⟨untouched, List.forall_mem_singleton.2 silent⟩

/-- What is read from a state that begins with nothing and takes over the effect of each step is
the value that lasts. -/
theorem read_foldl_iff {State : Type} {step : State → Operation → State} (read : State → Option α)
    (steps : ∀ state operation,
      read (step state operation) = (effect operation).getD (read state))
    {start : State} (nothing : read start = none) :
    read (operations.foldl step start) = some value ↔ Lasts effect operations value := by
  induction operations using List.reverseRecOn with
  | nil => exact iff_of_false (by simp [nothing]) not_lasts_nil
  | append_singleton operations operation inductionHypothesis =>
    rw [List.foldl_append, List.foldl_cons, List.foldl_nil, steps, lasts_concat,
      ← inductionHypothesis]
    cases effect operation with
    | none => simp
    | some written => simp

end

/-! ### Stores -/

namespace Store

variable {α : Type}

/-- The value that some entries give an IRI last. -/
def lastOf (entries : List (Iri × α)) (iri : Iri) : Option α :=
  ((entries.filter fun entry => entry.1 = iri).getLast?).map Prod.snd

theorem get?_insertAll (store : Store α) (entries : List (Iri × α)) (iri : Iri) :
    (store.insertAll entries).get? iri = (lastOf entries iri).or (store.get? iri) := by
  induction entries using List.reverseRecOn with
  | nil => rfl
  | append_singleton entries entry inductionHypothesis =>
    have inserted : store.insertAll (entries ++ [entry]) =
        (store.insertAll entries).insert entry.1 entry.2 := List.foldl_append
    rw [inserted, get?_insert, inductionHypothesis, lastOf, lastOf, List.filter_append]
    by_cases same : iri = entry.1
    · simp [same]
    · simp [same, Ne.symm same]

end Store

/-! ### Operations -/

namespace Session

open Sparql (Element)

/-- An operation of one of the compilers that share the stores, or the turn of another one. -/
inductive Operation where
  | load (name : Iri) (text : String)
  | dropGraph (name : Iri)
  | dropGraphs
  | learn (labels : List (Iri × Literal))
  | forget (resource : Iri)
  | forgetAll
  | turn (compiler : Compiler)

/-- The session after an operation. A load that fails leaves it as it is. -/
def perform (session : Session) : Operation → Session
  | .load name text =>
    match session.load name text with
    | .ok loaded => loaded
    | .error _ => session
  | .dropGraph name => (session.dropGraph name).1
  | .dropGraphs => session.dropGraphs
  | .learn labels => session.learn labels
  | .forget resource => (session.forget resource).1
  | .forgetAll => session.forgetAll
  | .turn compiler => session.sharedWith compiler

/-- The session after some operations, which begins with empty stores. -/
def after (compiler : Compiler) (operations : List Operation) : Session :=
  operations.foldl perform (start compiler)

/-- The effect of an operation on the graph with a name. -/
def onGraph (name : Iri) : Operation → Option (Option Rdf.Graph)
  | .load loaded text => if loaded = name then (Rdf.Graph.ofTurtle? text).map some else none
  | .dropGraph dropped => if dropped = name then some none else none
  | .dropGraphs => some none
  | _ => none

/-- The effect of an operation on the label of a resource. -/
def onLabel (resource : Iri) : Operation → Option (Option Literal)
  | .learn labels => (Store.lastOf labels resource).map some
  | .forget forgotten => if forgotten = resource then some none else none
  | .forgetAll => some none
  | _ => none

/-- A text with a fault changes nothing. -/
theorem perform_load_of_fault {text : String} (fault : Rdf.Graph.ofTurtle? text = none)
    (session : Session) (name : Iri) : session.perform (.load name text) = session := by
  simp [perform, load, fault]

theorem get?_perform_shapes (session : Session) (operation : Operation) (name : Iri) :
    (session.perform operation).shapes.get? name =
      (onGraph name operation).getD (session.shapes.get? name) := by
  cases operation with
  | load loaded text =>
    cases read : Rdf.Graph.ofTurtle? text with
    | none => simp [perform_load_of_fault read, onGraph, read]
    | some graph =>
      by_cases same : loaded = name
      · simp [perform, load, store, onGraph, read, same]
      · simp [perform, load, store, onGraph, read, same, Ne.symm same]
  | dropGraph dropped =>
    by_cases same : dropped = name
    · simp [perform, Session.dropGraph, onGraph, same]
    · simp [perform, Session.dropGraph, onGraph, same, Ne.symm same]
  | _ => rfl

theorem get?_perform_labels (session : Session) (operation : Operation) (resource : Iri) :
    (session.perform operation).labels.get? resource =
      (onLabel resource operation).getD (session.labels.get? resource) := by
  cases operation with
  | load loaded text =>
    cases read : Rdf.Graph.ofTurtle? text with
    | none => rw [perform_load_of_fault read]; rfl
    | some graph => simp [perform, load, store, onLabel, read]
  | learn labels =>
    show (session.labels.insertAll labels).get? resource = _
    rw [Store.get?_insertAll, onLabel]
    cases Store.lastOf labels resource <;> rfl
  | forget forgotten =>
    by_cases same : forgotten = resource
    · simp [perform, Session.forget, onLabel, same]
    · simp [perform, Session.forget, onLabel, same, Ne.symm same]
  | _ => rfl

variable {compiler : Compiler} {operations : List Operation}

theorem get?_after_shapes {name : Iri} {graph : Rdf.Graph} :
    (after compiler operations).shapes.get? name = some graph ↔
      Lasts (onGraph name) operations graph :=
  read_foldl_iff (fun session => session.shapes.get? name)
    (fun session operation => get?_perform_shapes session operation name) rfl

theorem get?_after_labels {resource : Iri} {label : Literal} :
    (after compiler operations).labels.get? resource = some label ↔
      Lasts (onLabel resource) operations label :=
  read_foldl_iff (fun session => session.labels.get? resource)
    (fun session operation => get?_perform_labels session operation resource) rfl

/-! ### Answers -/

/-- Whether some operations leave a resource with a label. -/
def Labelled (operations : List Operation) (resource : Iri) : Prop :=
  ∃ label, Lasts (onLabel resource) operations label

open Classical in
/-- Those of some resources that some operations leave without a label. -/
noncomputable def remaining (operations : List Operation) (resources : List Iri) : List Iri :=
  resources.filter fun resource => ¬ Labelled operations resource

open Classical in
theorem missing_after (resources : List Iri) :
    (after compiler operations).labels.missing resources = remaining operations resources := by
  refine List.filter_congr fun resource _ => ?_
  rw [Bool.eq_iff_iff, Bool.not_eq_true', decide_eq_true_iff, Store.contains, ← Bool.not_eq_true,
    Option.isSome_iff_exists]
  exact not_congr (exists_congr fun _ => get?_after_labels)

theorem remaining_eq_nil {resources : List Iri} :
    remaining operations resources = [] ↔
      ∀ resource ∈ resources, Labelled operations resource := by
  simp [remaining]

/-- A session answers as its history says, whichever of the compilers that share its stores is
asked. A shape is read from the graph that was loaded last under its name, and it is not found if
there is no such graph or if the graph was removed since. The labels of resources are asked for
unless all of them are known or none can be found, and then exactly for the resources that have no
label, in the order in which they are given. -/
theorem answers_of_history (compiler asked : Compiler) (operations : List Operation)
    (name shape : Iri) (resources : List Iri) :
    let session := (after compiler operations).sharedWith asked
    (∀ graph, Lasts (onGraph name) operations graph →
      session.nodeShape name shape = graph.nodeShape shape ∧
        session.propertyShape name shape = graph.propertyShape (.iri shape)) ∧
    ((∀ graph, ¬ Lasts (onGraph name) operations graph) →
      session.nodeShape name shape = .error (.notFound name.bracketed) ∧
        session.propertyShape name shape = .error (.notFound name.bracketed)) ∧
    (session.labelQuery resources = none ↔
      asked.configuration.labelPredicates = [] ∨
        ∀ resource ∈ resources, Labelled operations resource) ∧
    ∀ query, session.labelQuery resources = some query →
      query.pattern =
        [Element.column Compiler.labelled ((remaining operations resources).map .iri),
          Element.column Compiler.labelPredicate (asked.configuration.labelPredicates.map .iri),
          Element.ofTriple (.var Compiler.labelled) (.var Compiler.labelPredicate)
            (.var Compiler.label)] := by
  intro session
  have found : session.shapes.get? name = (after compiler operations).shapes.get? name := rfl
  have asks : session.labelQuery resources = asked.labels (remaining operations resources) :=
    congrArg asked.labels (missing_after resources)
  refine ⟨fun graph lasts => ?_, fun none => ?_, ?_, fun query made => ?_⟩
  · have known := found.trans (get?_after_shapes.2 lasts)
    simp only [nodeShape, propertyShape, Session.graph, known]
    exact ⟨rfl, rfl⟩
  · have unknown : session.shapes.get? name = Option.none :=
      found.trans (Option.eq_none_iff_forall_ne_some.2 fun graph known =>
        none graph (get?_after_shapes.1 known))
    simp only [nodeShape, propertyShape, Session.graph, unknown]
    exact ⟨rfl, rfl⟩
  · rw [asks, ← remaining_eq_nil, Compiler.labels]
    split
    · rename_i nothing
      rw [Bool.or_eq_true, List.isEmpty_iff, List.isEmpty_iff] at nothing
      exact iff_of_true rfl nothing.symm
    · rename_i something
      rw [Bool.or_eq_true, List.isEmpty_iff, List.isEmpty_iff] at something
      exact iff_of_false (Option.some_ne_none _) fun nothing => something nothing.symm
  · rw [asks, Compiler.labels] at made
    split at made
    · cases made
    · cases made
      rfl

end Session

end ShapeQuery
