/-
This file defines the functions of filters: operators whose arguments are put into a fixed graph
pattern. A registry says which functions there are.
-/
import ShapeQuery.Filter.Value
import ShapeQuery.Sparql.Group

namespace ShapeQuery.Filter

open Sparql (Term Variable Group Path Verb Element)

/-- A function. The pattern is made from the focus, the arguments and a suffix in which every
variable of the pattern ends. -/
structure FilterFunction where
  name : String
  arity : Nat
  lower : Term → Vector Json arity → String → Except Error Group

/-- The functions that filters may use. -/
structure Registry where
  functions : List FilterFunction

namespace Registry

/-- The registry without functions. -/
def empty : Registry := ⟨[]⟩

/-- A registry with one more function, which takes the place of one with the same name. -/
def register (registry : Registry) (function : FilterFunction) : Registry :=
  ⟨function :: registry.functions⟩

/-- The function with a name. -/
def function? (registry : Registry) (name : String) : Option FilterFunction :=
  registry.functions.find? fun function => function.name = name

end Registry

/-! ### Parts of patterns -/

/-- An argument that has to be the IRI of a predicate. -/
def predicateArgument (operator : String) (value : Json) : Except Error Iri :=
  match value.string?.bind Iri.ofText? with
  | some name => .ok name
  | none => .error (.invalidArgument operator (.notAPredicate value))

/-- A table of the values that an argument lists. -/
def valuesElement (operator : String) (target : Variable) (value : Json) : Except Error Element := do
  return .column target ((← Value.listOfJson operator value).map Value.term)

/-- One of some paths leads from a node to another one. -/
def locations (subject : Variable) (paths : List Path) (object : Variable) : Element :=
  .union (paths.map fun path => [.ofTriple (.var subject) (.path path) (.var object)])

/-- Two predicates one after another. -/
def twoSteps (first second : Iri) : Path :=
  .sequence [.predicate first, .predicate second]

/-- The triple from a feature to an observation of it. -/
def observationOf (feature : Term) (observation : Variable) : Element :=
  .ofTriple feature
    (.path (.alternative
      [.predicate Vocabulary.sosaIsFeatureOfInterestOf,
       .inverse (.predicate Vocabulary.sosaHasFeatureOfInterest)]))
    (.var observation)

/-! ### Observations -/

/-- An observation of the focus has two values. -/
def directObservation : FilterFunction where
  name := "FOIObservationFilterDirect"
  arity := 4
  lower focus arguments suffix := do
    let operator := "FOIObservationFilterDirect"
    let observation : Variable := ⟨"observation" ++ suffix⟩
    let firstPredicate ← predicateArgument operator arguments[0]
    let firstValue ← Value.ofJson operator arguments[1]
    let secondPredicate ← predicateArgument operator arguments[2]
    let secondValue ← Value.ofJson operator arguments[3]
    return [
      observationOf focus observation,
      .ofTriple (.var observation) (.predicate firstPredicate) firstValue.term,
      .ofTriple (.var observation) (.predicate secondPredicate) secondValue.term]

/-- An observation of the focus has two values, the second one two steps away. -/
def sequenceObservation : FilterFunction where
  name := "FOIObservationFilterSequence"
  arity := 5
  lower focus arguments suffix := do
    let operator := "FOIObservationFilterSequence"
    let observation : Variable := ⟨"observation" ++ suffix⟩
    let firstPredicate ← predicateArgument operator arguments[0]
    let firstValue ← Value.ofJson operator arguments[1]
    let secondPredicate ← predicateArgument operator arguments[2]
    let thirdPredicate ← predicateArgument operator arguments[3]
    let secondValue ← Value.ofJson operator arguments[4]
    return [
      observationOf focus observation,
      .ofTriple (.var observation) (.predicate firstPredicate) firstValue.term,
      .ofTriple (.var observation) (.path (twoSteps secondPredicate thirdPredicate))
        secondValue.term]

/-- An observation of the focus has one of some results for one of some properties. -/
def hasObservation : FilterFunction where
  name := "hasObservation"
  arity := 2
  lower focus arguments suffix := do
    let operator := "hasObservation"
    let observation : Variable := ⟨"observation" ++ suffix⟩
    let property : Variable := ⟨"obs_prop" ++ suffix⟩
    let result : Variable := ⟨"result" ++ suffix⟩
    let properties ← valuesElement operator property arguments[0]
    let results ← valuesElement operator result arguments[1]
    return [
      observationOf focus observation,
      .ofTriple (.var observation) (.predicate Vocabulary.sosaObservedProperty) (.var property),
      locations observation
        [.predicate Vocabulary.sosaHasSimpleResult, .predicate Vocabulary.sosaHasResult,
         twoSteps Vocabulary.sosaHasResult Vocabulary.rdfValue] result,
      properties, results]

/-! ### Attributes -/

/-- An attribute of the focus, one of some, has one of some values. -/
def hasAttribute : FilterFunction where
  name := "hasAttribute"
  arity := 2
  lower focus arguments suffix := do
    let operator := "hasAttribute"
    let node : Variable := ⟨"attr_bn_var" ++ suffix⟩
    let name : Variable := ⟨"attr_name_var" ++ suffix⟩
    let result : Variable := ⟨"result" ++ suffix⟩
    let names ← valuesElement operator name arguments[0]
    let results ← valuesElement operator result arguments[1]
    return [
      .ofTriple focus (.predicate Vocabulary.ternHasAttribute) (.var node),
      .ofTriple (.var node) (.predicate Vocabulary.ternAttribute) (.var name),
      locations node
        [.predicate Vocabulary.ternHasSimpleValue, .predicate Vocabulary.ternHasValue,
         twoSteps Vocabulary.ternHasValue Vocabulary.rdfValue] result,
      names, results]

/-- An additional property of the focus, told by its name or identifier, has one of some
values. -/
def hasAdditional : FilterFunction where
  name := "hasAdditional"
  arity := 2
  lower focus arguments suffix := do
    let operator := "hasAdditional"
    let additional : Variable := ⟨"aprop_bn_var" ++ suffix⟩
    let name : Variable := ⟨"aprop_name_or_id_var" ++ suffix⟩
    let value : Variable := ⟨"value" ++ suffix⟩
    let names ← valuesElement operator name arguments[0]
    let values ← valuesElement operator value arguments[1]
    return [
      .ofTriple focus (.predicate Vocabulary.schemaAdditionalProperty) (.var additional),
      .ofTriple (.var additional)
        (.path (.alternative
          [.predicate Vocabulary.schemaPropertyId, .predicate Vocabulary.schemaName]))
        (.var name),
      locations additional
        [.predicate Vocabulary.schemaValue, .predicate Vocabulary.rdfValue,
         twoSteps Vocabulary.schemaValue Vocabulary.rdfValue] value,
      names, values]

/-! ### Attributions -/

/-- The focus is attributed to one of some agents in one of some roles. -/
def qualifiedAttribution : FilterFunction where
  name := "qualifiedAttribution"
  arity := 2
  lower focus arguments suffix := do
    let operator := "qualifiedAttribution"
    let attribution : Variable := ⟨"qa_bn_var" ++ suffix⟩
    let role : Variable := ⟨"role_var" ++ suffix⟩
    let agent : Variable := ⟨"agent_var" ++ suffix⟩
    let roles ← valuesElement operator role arguments[0]
    let agents ← valuesElement operator agent arguments[1]
    return [
      .ofTriple focus (.predicate Vocabulary.provQualifiedAttribution) (.var attribution),
      .ofTriple (.var attribution) (.predicate Vocabulary.provHadRole) (.var role),
      .ofTriple (.var attribution) (.predicate Vocabulary.provAgent) (.var agent),
      roles, agents]

/-- The functions that every filter may use unless a registry says otherwise. -/
def Registry.standard : Registry :=
  ⟨[directObservation, sequenceObservation, hasObservation, hasAttribute, hasAdditional,
    qualifiedAttribution]⟩

end ShapeQuery.Filter
