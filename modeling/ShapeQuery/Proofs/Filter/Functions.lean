/-
This file proves of the functions of the standard registry that the number of a condition matters
to the names of its unknowns only.
-/
import ShapeQuery.Proofs.Filter.Renumbering

namespace ShapeQuery.Filter

open Sparql (Term Variable Group Replacement Element Path)
open Success (bind_ok)

/-- Whether a function is lowered alike under every number. -/
def FilterFunction.Numbered (function : FilterFunction) : Prop :=
  ∀ {replacement : Replacement} {number other : Nat} {arguments : Vector Json function.arity}
    {group : Group}, Carries replacement number other →
    function.lower Translator.focus arguments ("_" ++ toString number) = .ok group →
    function.lower Translator.focus arguments ("_" ++ toString other) =
      .ok (replacement.group group)

/-! ### Parts -/

section Parts

variable {replacement : Replacement} {number other : Nat}

/-- What a word with a number as its suffix becomes. -/
theorem Carries.suffixed (carries : Carries replacement number other) (word : String)
    (plain : ¬ ['v', 'a', 'r', '_'] <+: word.toList) :
    replacement.term (.var ⟨word ++ ("_" ++ toString number)⟩) =
      .var ⟨word ++ ("_" ++ toString other)⟩ := by
  rw [← String.append_assoc, ← String.append_assoc]
  exact carries.term (.word word plain)

theorem Carries.suffixedTarget (carries : Carries replacement number other) (word : String)
    (plain : ¬ ['v', 'a', 'r', '_'] <+: word.toList) :
    replacement.target ⟨word ++ ("_" ++ toString number)⟩ =
      ⟨word ++ ("_" ++ toString other)⟩ := by
  rw [← String.append_assoc, ← String.append_assoc]
  exact carries.target (.word word plain)

theorem replaced_ofTriple (replacement : Replacement) (subject : Term) (path : Path)
    (object : Term) :
    replacement.element (.ofTriple subject (.path path) object) =
      .ofTriple (replacement.term subject) (.path path) (replacement.term object) := rfl

theorem replaced_locations (replacement : Replacement) {subject object newSubject newObject :
    Variable} (paths : List Path) (subjects : replacement.term (.var subject) = .var newSubject)
    (objects : replacement.term (.var object) = .var newObject) :
    replacement.element (locations subject paths object) =
      locations newSubject paths newObject := by
  unfold locations
  rw [Replacement.element, Replacement.branches_eq_map, List.map_map]
  refine congrArg Element.union (List.map_congr_left fun path _ => ?_)
  show [replacement.element (.ofTriple _ _ _)] = _
  rw [replaced_ofTriple, subjects, objects]

/-- A table of values is read alike for another variable. -/
theorem valuesElement_replaced {operator : String} {target newTarget : Variable} {value : Json}
    {element : Element} (targets : replacement.target target = newTarget)
    (read : valuesElement operator target value = .ok element) :
    valuesElement operator newTarget value = .ok (replacement.element element) := by
  obtain ⟨values, listed, total⟩ := bind_ok.1 read
  cases total
  refine bind_ok.2 ⟨values, listed, ?_⟩
  rw [Fragment.replaced_column replacement _ (Value.ground_map values), targets]
  rfl

end Parts

/-! ### Observations -/

theorem directObservation_numbered : directObservation.Numbered := by
  intro replacement number other arguments group carries lowered
  have observation := carries.suffixed "observation" (by decide)
  obtain ⟨firstPredicate, firstRead, lowered⟩ := bind_ok.1 lowered
  obtain ⟨firstValue, firstValueRead, lowered⟩ := bind_ok.1 lowered
  obtain ⟨secondPredicate, secondRead, lowered⟩ := bind_ok.1 lowered
  obtain ⟨secondValue, secondValueRead, lowered⟩ := bind_ok.1 lowered
  cases lowered
  refine bind_ok.2 ⟨_, firstRead, bind_ok.2 ⟨_, firstValueRead, bind_ok.2 ⟨_, secondRead,
    bind_ok.2 ⟨_, secondValueRead, ?_⟩⟩⟩⟩
  simp only [Replacement.group, observationOf, Sparql.Verb.predicate, replaced_ofTriple,
    carries.focusTerm, observation, Value.term_eq]
  rfl

theorem sequenceObservation_numbered : sequenceObservation.Numbered := by
  intro replacement number other arguments group carries lowered
  have observation := carries.suffixed "observation" (by decide)
  obtain ⟨firstPredicate, firstRead, lowered⟩ := bind_ok.1 lowered
  obtain ⟨firstValue, firstValueRead, lowered⟩ := bind_ok.1 lowered
  obtain ⟨secondPredicate, secondRead, lowered⟩ := bind_ok.1 lowered
  obtain ⟨thirdPredicate, thirdRead, lowered⟩ := bind_ok.1 lowered
  obtain ⟨secondValue, secondValueRead, lowered⟩ := bind_ok.1 lowered
  cases lowered
  refine bind_ok.2 ⟨_, firstRead, bind_ok.2 ⟨_, firstValueRead, bind_ok.2 ⟨_, secondRead,
    bind_ok.2 ⟨_, thirdRead, bind_ok.2 ⟨_, secondValueRead, ?_⟩⟩⟩⟩⟩
  simp only [Replacement.group, observationOf, Sparql.Verb.predicate, replaced_ofTriple,
    carries.focusTerm, observation, Value.term_eq]
  rfl

theorem hasObservation_numbered : hasObservation.Numbered := by
  intro replacement number other arguments group carries lowered
  have observation := carries.suffixed "observation" (by decide)
  have property := carries.suffixed "obs_prop" (by decide)
  have result := carries.suffixed "result" (by decide)
  obtain ⟨properties, propertiesRead, lowered⟩ := bind_ok.1 lowered
  obtain ⟨results, resultsRead, lowered⟩ := bind_ok.1 lowered
  cases lowered
  refine bind_ok.2 ⟨_, valuesElement_replaced (carries.suffixedTarget "obs_prop" (by decide))
    propertiesRead, bind_ok.2 ⟨_, valuesElement_replaced
      (carries.suffixedTarget "result" (by decide)) resultsRead, ?_⟩⟩
  simp only [Replacement.group, observationOf, Sparql.Verb.predicate, replaced_ofTriple,
    carries.focusTerm, observation, property, replaced_locations replacement _ observation result]
  rfl

/-! ### Attributes -/

theorem hasAttribute_numbered : hasAttribute.Numbered := by
  intro replacement number other arguments group carries lowered
  have node := carries.suffixed "attr_bn_var" (by decide)
  have name := carries.suffixed "attr_name_var" (by decide)
  have result := carries.suffixed "result" (by decide)
  obtain ⟨names, namesRead, lowered⟩ := bind_ok.1 lowered
  obtain ⟨results, resultsRead, lowered⟩ := bind_ok.1 lowered
  cases lowered
  refine bind_ok.2 ⟨_, valuesElement_replaced (carries.suffixedTarget "attr_name_var" (by decide))
    namesRead, bind_ok.2 ⟨_, valuesElement_replaced
      (carries.suffixedTarget "result" (by decide)) resultsRead, ?_⟩⟩
  simp only [Replacement.group, Sparql.Verb.predicate, replaced_ofTriple, carries.focusTerm,
    node, name, replaced_locations replacement _ node result]
  rfl

theorem hasAdditional_numbered : hasAdditional.Numbered := by
  intro replacement number other arguments group carries lowered
  have additional := carries.suffixed "aprop_bn_var" (by decide)
  have name := carries.suffixed "aprop_name_or_id_var" (by decide)
  have value := carries.suffixed "value" (by decide)
  obtain ⟨names, namesRead, lowered⟩ := bind_ok.1 lowered
  obtain ⟨values, valuesRead, lowered⟩ := bind_ok.1 lowered
  cases lowered
  refine bind_ok.2 ⟨_, valuesElement_replaced
    (carries.suffixedTarget "aprop_name_or_id_var" (by decide)) namesRead,
    bind_ok.2 ⟨_, valuesElement_replaced (carries.suffixedTarget "value" (by decide))
      valuesRead, ?_⟩⟩
  simp only [Replacement.group, Sparql.Verb.predicate, replaced_ofTriple, carries.focusTerm,
    additional, name, replaced_locations replacement _ additional value]
  rfl

/-! ### Attributions -/

theorem qualifiedAttribution_numbered : qualifiedAttribution.Numbered := by
  intro replacement number other arguments group carries lowered
  have attribution := carries.suffixed "qa_bn_var" (by decide)
  have role := carries.suffixed "role_var" (by decide)
  have agent := carries.suffixed "agent_var" (by decide)
  obtain ⟨roles, rolesRead, lowered⟩ := bind_ok.1 lowered
  obtain ⟨agents, agentsRead, lowered⟩ := bind_ok.1 lowered
  cases lowered
  refine bind_ok.2 ⟨_, valuesElement_replaced (carries.suffixedTarget "role_var" (by decide))
    rolesRead, bind_ok.2 ⟨_, valuesElement_replaced
      (carries.suffixedTarget "agent_var" (by decide)) agentsRead, ?_⟩⟩
  simp only [Replacement.group, Sparql.Verb.predicate, replaced_ofTriple, carries.focusTerm,
    attribution, role, agent]
  rfl

/-! ### The registry -/

theorem Registry.standard_numbered :
    ∀ function ∈ Registry.standard.functions, function.Numbered := by
  intro function member
  simp only [Registry.standard, List.mem_cons, List.not_mem_nil, or_false] at member
  rcases member with rfl | rfl | rfl | rfl | rfl | rfl
  · exact directObservation_numbered
  · exact sequenceObservation_numbered
  · exact hasObservation_numbered
  · exact hasAttribute_numbered
  · exact hasAdditional_numbered
  · exact qualifiedAttribution_numbered

/-- The use of a function is lowered alike under every number. -/
theorem Translator.function_renumbered {translator : Translator}
    (standard : translator.functions = .standard) {replacement : Replacement}
    {number other : Nat} (carries : Carries replacement number other) {name : String}
    {arguments : List Json} {group : Group}
    (lowered : translator.function name arguments number = .ok group) :
    translator.function name arguments other = .ok (replacement.group group) := by
  unfold Translator.function at lowered ⊢
  rw [standard] at lowered ⊢
  cases found : Registry.standard.function? name with
  | none =>
    rw [found] at lowered
    cases lowered
  | some function =>
    have member := List.mem_of_find?_eq_some found
    rw [found] at lowered
    simp only at lowered ⊢
    split at lowered
    · rename_i size
      rw [dif_pos size]
      exact Registry.standard_numbered function member carries lowered
    · cases lowered

end ShapeQuery.Filter
