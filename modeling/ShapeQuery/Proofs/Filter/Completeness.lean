/-
This file proves that filters are translated to complete groups. A document gives every conjunction
and disjunction an operand, so that no union is empty; what a function or a relation makes has a
fixed number of parts.
-/
import ShapeQuery.Proofs.Filter.Renumbering
import ShapeQuery.Proofs.Filter.Temporal
import ShapeQuery.Proofs.Shape.Completeness

namespace ShapeQuery.Filter

open Sparql (Term Variable Group Element Expression Path)
open Success (bind_ok map_ok)

/-! ### Documents -/

/-- A filter in which every disjunction has an operand. -/
def Expression.Filled : Filter.Expression → Prop
  | .leaf _ => True
  | .all operands => ∀ operand, operand ∈ operands → Expression.Filled operand
  | .any operands => operands ≠ [] ∧ ∀ operand, operand ∈ operands → Expression.Filled operand
  | .not operand => Expression.Filled operand

/-- A filter that is read from a document has no empty disjunction. -/
theorem Expression.filled_ofJson {document : Json} {filter : Filter.Expression}
    (read : Expression.ofJson document = .ok filter) : filter.Filled := by
  rw [Expression.ofJson] at read
  split at read
  · cases read
  · rename_i node _
    split at read
    · split at read
      · cases read
      · rename_i given
        obtain ⟨operands, operandsRead, made⟩ := bind_ok.1 read
        have members : ∀ operand ∈ operands, Expression.Filled operand := by
          intro operand member
          obtain ⟨source, -, operandRead⟩ :=
            Success.source_of_mem_mapM operandsRead operand member
          have := node.smaller source.1 source.2
          exact Expression.filled_ofJson operandRead
        have filled : operands ≠ [] := by
          rintro rfl
          have lengths := Success.length_of_mapM operandsRead
          rw [List.length_attach] at lengths
          exact given (List.isEmpty_iff_length_eq_zero.2 lengths.symm)
        rw [← Success.pure_ok.1 made]
        split
        · rw [Expression.Filled]
          exact members
        · rw [Expression.Filled]
          exact ⟨filled, members⟩
    · split at read
      · split at read
        · rename_i operand smaller _ _
          have := smaller operand List.mem_cons_self
          obtain ⟨inner, innerRead, rfl⟩ := map_ok.1 read
          rw [Expression.Filled]
          exact Expression.filled_ofJson innerRead
        · cases read
      · obtain ⟨condition, -, rfl⟩ := map_ok.1 read
        rw [Expression.Filled]
        exact trivial
termination_by sizeOf document

/-! ### Functions -/

/-- Whether a function makes complete groups of all arguments. -/
def FilterFunction.IsComplete (function : FilterFunction) : Prop :=
  ∀ {focus : Term} {arguments : Vector Json function.arity} {suffix : String} {group : Group},
    function.lower focus arguments suffix = .ok group → group.Complete

theorem complete_valuesElement {operator : String} {target : Variable} {document : Json}
    {element : Element} (read : valuesElement operator target document = .ok element) :
    element.Complete := by
  obtain ⟨values, -, made⟩ := bind_ok.1 read
  cases made
  exact Element.complete_column target _

theorem complete_locations (subject object : Variable) {paths : List Path} (given : paths ≠ [])
    (complete : ∀ path ∈ paths, path.Complete) : (locations subject paths object).Complete := by
  refine (Element.complete_union _).2 ⟨fun empty => given (List.map_eq_nil_iff.1 empty), ?_⟩
  exact List.forall_mem_map.2 fun path member =>
    (Group.complete_cons _ _).2 ⟨complete path member, Group.complete_nil⟩

theorem complete_twoSteps (first second : Iri) : (twoSteps first second).Complete := by
  simp [twoSteps]

/-- The paths to a value that stands by itself or at a node of its own. -/
theorem complete_valuePaths (direct outer node inner : Iri) :
    ∀ path ∈ [Path.predicate direct, .predicate outer, twoSteps node inner], path.Complete := by
  simp [complete_twoSteps]

theorem directObservation_isComplete : directObservation.IsComplete := by
  intro focus arguments suffix group lowered
  obtain ⟨firstPredicate, -, lowered⟩ := bind_ok.1 lowered
  obtain ⟨firstValue, -, lowered⟩ := bind_ok.1 lowered
  obtain ⟨secondPredicate, -, lowered⟩ := bind_ok.1 lowered
  obtain ⟨secondValue, -, lowered⟩ := bind_ok.1 lowered
  cases lowered
  simp [observationOf]

theorem sequenceObservation_isComplete : sequenceObservation.IsComplete := by
  intro focus arguments suffix group lowered
  obtain ⟨firstPredicate, -, lowered⟩ := bind_ok.1 lowered
  obtain ⟨firstValue, -, lowered⟩ := bind_ok.1 lowered
  obtain ⟨secondPredicate, -, lowered⟩ := bind_ok.1 lowered
  obtain ⟨thirdPredicate, -, lowered⟩ := bind_ok.1 lowered
  obtain ⟨secondValue, -, lowered⟩ := bind_ok.1 lowered
  cases lowered
  simp [observationOf, complete_twoSteps]

theorem hasObservation_isComplete : hasObservation.IsComplete := by
  intro focus arguments suffix group lowered
  obtain ⟨properties, propertiesRead, lowered⟩ := bind_ok.1 lowered
  obtain ⟨results, resultsRead, lowered⟩ := bind_ok.1 lowered
  cases lowered
  have places := complete_locations ⟨"observation" ++ suffix⟩ ⟨"result" ++ suffix⟩ (by simp)
    (complete_valuePaths Vocabulary.sosaHasSimpleResult Vocabulary.sosaHasResult
      Vocabulary.sosaHasResult Vocabulary.rdfValue)
  simp [observationOf, places, complete_valuesElement propertiesRead,
    complete_valuesElement resultsRead]

theorem hasAttribute_isComplete : hasAttribute.IsComplete := by
  intro focus arguments suffix group lowered
  obtain ⟨names, namesRead, lowered⟩ := bind_ok.1 lowered
  obtain ⟨results, resultsRead, lowered⟩ := bind_ok.1 lowered
  cases lowered
  have places := complete_locations ⟨"attr_bn_var" ++ suffix⟩ ⟨"result" ++ suffix⟩ (by simp)
    (complete_valuePaths Vocabulary.ternHasSimpleValue Vocabulary.ternHasValue
      Vocabulary.ternHasValue Vocabulary.rdfValue)
  simp [places, complete_valuesElement namesRead, complete_valuesElement resultsRead]

theorem hasAdditional_isComplete : hasAdditional.IsComplete := by
  intro focus arguments suffix group lowered
  obtain ⟨names, namesRead, lowered⟩ := bind_ok.1 lowered
  obtain ⟨values, valuesRead, lowered⟩ := bind_ok.1 lowered
  cases lowered
  have places := complete_locations ⟨"aprop_bn_var" ++ suffix⟩ ⟨"value" ++ suffix⟩ (by simp)
    (complete_valuePaths Vocabulary.schemaValue Vocabulary.rdfValue Vocabulary.schemaValue
      Vocabulary.rdfValue)
  simp [places, complete_valuesElement namesRead, complete_valuesElement valuesRead]

theorem qualifiedAttribution_isComplete : qualifiedAttribution.IsComplete := by
  intro focus arguments suffix group lowered
  obtain ⟨roles, rolesRead, lowered⟩ := bind_ok.1 lowered
  obtain ⟨agents, agentsRead, lowered⟩ := bind_ok.1 lowered
  cases lowered
  simp [complete_valuesElement rolesRead, complete_valuesElement agentsRead]

theorem Registry.standard_isComplete :
    ∀ function ∈ Registry.standard.functions, function.IsComplete := by
  intro function member
  simp only [Registry.standard, List.mem_cons, List.not_mem_nil, or_false] at member
  rcases member with rfl | rfl | rfl | rfl | rfl | rfl
  · exact directObservation_isComplete
  · exact sequenceObservation_isComplete
  · exact hasObservation_isComplete
  · exact hasAttribute_isComplete
  · exact hasAdditional_isComplete
  · exact qualifiedAttribution_isComplete

/-! ### Spatial relations -/

namespace SpatialFilter

variable {filter : SpatialFilter}

theorem complete_geometryTriples : Group.Complete (Group.ofTriples filter.geometryTriples) :=
  Element.complete_ofTriples (List.forall_mem_cons.2
    ⟨Sparql.Verb.complete_predicate _,
      List.forall_mem_singleton.2 (Sparql.Verb.complete_predicate _)⟩)

/-- The parameters of a service. -/
theorem complete_parameters (configuration : Term) (parameters : List (Iri × Term)) :
    Group.Complete (Group.ofTriples (parameters.map fun (predicate, value) =>
      ⟨configuration, .predicate predicate, value⟩)) :=
  Element.complete_ofTriples (List.forall_mem_map.2 fun _ _ => Sparql.Verb.complete_predicate _)

theorem complete_join (joinType : Iri) : Group.Complete (filter.join joinType) := by
  have given := complete_parameters (.blank ("config_" ++ filter.suffix))
    [(Vocabulary.qleverAlgorithm, .iri Vocabulary.qleverLibspatialjoin),
      (Vocabulary.qleverLeft, .var (filter.named "wkt_input")),
      (Vocabulary.qleverRight, .var filter.geometryText),
      (Vocabulary.qleverPayload, filter.subject), (Vocabulary.qleverJoinType, .iri joinType)]
  simp only [join, Group.complete_cons, Element.complete_group, Element.complete_service,
    Group.complete_append]
  exact ⟨⟨Element.complete_column _ _, ⟨given, complete_geometryTriples, Group.complete_nil⟩,
    Group.complete_nil⟩, Group.complete_nil⟩

/-- A spatial filter is complete in every dialect. -/
theorem complete_lower {target : SpatialTarget} {group : Group}
    (lowered : filter.lower target = .ok group) : group.Complete := by
  unfold lower at lowered
  split at lowered
  · cases lowered
    refine (Group.complete_append _ _).2 ⟨complete_geometryTriples, ?_⟩
    simp [Sparql.Function.accepts]
  · cases lowered
    refine (Group.complete_append _ _).2 ⟨complete_geometryTriples, ?_⟩
    simp
  · split at lowered
    · cases lowered
      exact complete_join _
    · cases lowered

end SpatialFilter

/-! ### Properties -/

namespace Translator

/-- A translator whose functions make complete groups and whose queryables have complete paths. -/
structure Complete (translator : Translator) : Prop where
  functions : ∀ function ∈ translator.functions.functions, function.IsComplete
  queryables : ∀ entry ∈ translator.queryables, entry.2.Complete

theorem complete_bindShape {operator : String} {property : Property} {shape : PropertyShape}
    {number : Nat} {bound : Group × Term} (complete : shape.Complete)
    (made : bindShape operator property shape number = .ok bound) : bound.1.Complete := by
  unfold bindShape at made
  split at made
  · cases made
  · dsimp only at made
    split at made
    · cases made
    · rename_i fragment next lowered
      have kept := Lowering.complete_property complete lowered
      split at made
      · cases made
        exact kept.pattern
      · cases made

theorem complete_bindPredicate {property : Property} {number : Nat} {bound : Group × Term}
    (made : bindPredicate property number = .ok bound) : bound.1.Complete := by
  unfold bindPredicate at made
  split at made
  · cases made
  · cases made
    rename_i predicate _
    have verb : (Sparql.Verb.predicate predicate).Complete := Sparql.Verb.complete_predicate _
    refine (Group.complete_cons _ _).2 ⟨?_, Group.complete_nil⟩
    split <;> exact verb

theorem complete_operand {operator : String} {term : Term} {expression : Sparql.Expression}
    (made : operand operator term = .ok expression) : expression.Complete := by
  unfold operand at made
  split at made
  · rename_i found
    cases made
    exact Term.complete_expression? found
  · cases made

theorem complete_value (value : Value) : value.expression.Complete := by
  cases value with
  | _ => rfl

section

variable {translator : Translator} (complete : translator.Complete)

include complete

theorem complete_bind {operator : String} {property : Property} {number : Nat}
    {bound : Group × Term} (made : translator.bind operator property number = .ok bound) :
    bound.1.Complete := by
  unfold bind at made
  split at made
  · rename_i shape found
    obtain ⟨entry, member, rfl⟩ := mem_of_shape? found
    exact complete_bindShape (complete.queryables entry member) made
  · exact complete_bindPredicate made

/-! ### Conditions -/

omit complete in
/-- What binds the values of a property, with a condition on them. -/
theorem complete_conditioned {group : Group} {element : Element} (groupComplete : group.Complete)
    (elementComplete : element.Complete) : Group.Complete (group ++ [element]) :=
  (Group.complete_append _ _).2
    ⟨groupComplete, (Group.complete_cons _ _).2 ⟨elementComplete, Group.complete_nil⟩⟩

theorem complete_compare {comparison : Sparql.Comparison} {property : Property} {value : Value}
    {number : Nat} {group : Group}
    (lowered : translator.compare comparison property value number = .ok group) :
    group.Complete := by
  obtain ⟨⟨first, object⟩, bound, further⟩ := bind_ok.1 lowered
  have kept := complete_bind complete bound
  have condition {left : Sparql.Expression} (leftComplete : left.Complete) :
      (Element.filter (.compare left comparison value.expression)).Complete :=
    (Element.complete_filter _).2
      ((Expression.complete_compare _ _ _).2 ⟨leftComplete, complete_value value⟩)
  cases object with
  | var name =>
    rw [compare_of_bind bound] at lowered
    cases lowered
    refine complete_conditioned kept ?_
    unfold compared
    split
    · exact Element.complete_column _ _
    · exact condition (Expression.complete_var name)
  | _ =>
    obtain ⟨left, made, total⟩ := bind_ok.1 further
    cases total
    exact complete_conditioned kept (condition (complete_operand made))

theorem complete_like {property : Property} {pattern : String} {number : Nat} {group : Group}
    (lowered : translator.like property pattern number = .ok group) : group.Complete := by
  obtain ⟨⟨first, object⟩, bound, further⟩ := bind_ok.1 lowered
  obtain ⟨left, made, total⟩ := bind_ok.1 further
  cases total
  refine complete_conditioned (complete_bind complete bound) ?_
  simp [Sparql.Function.accepts, complete_operand made]

theorem complete_oneOf {property : Property} {values : List Value} {number : Nat} {group : Group}
    (lowered : translator.oneOf property values number = .ok group) : group.Complete := by
  obtain ⟨⟨first, object⟩, bound, further⟩ := bind_ok.1 lowered
  have kept := complete_bind complete bound
  cases object with
  | var name =>
    cases further
    exact complete_conditioned kept (Element.complete_column _ _)
  | _ =>
    obtain ⟨left, made, total⟩ := bind_ok.1 further
    cases total
    exact complete_conditioned kept ((Element.complete_filter _).2
      ((Expression.complete_oneOf _ _).2 ⟨complete_operand made,
        List.forall_mem_map.2 fun value _ => complete_value value⟩))

theorem complete_spatial {relation : SpatialRelation} {property : Property} {geometry : Geometry}
    {number : Nat} {group : Group}
    (lowered : translator.spatial relation property geometry number = .ok group) :
    group.Complete := by
  rw [spatial_eq] at lowered
  obtain ⟨⟨first, subject⟩, bound, further⟩ := bind_ok.1 lowered
  have kept : Group.Complete first := by
    unfold bindGeometry at bound
    split at bound
    · cases bound
      exact Group.complete_nil
    · exact complete_bind complete bound
  obtain ⟨related, relatedLowered, total⟩ := bind_ok.1 further
  cases total
  exact (Group.complete_append _ _).2 ⟨kept, SpatialFilter.complete_lower relatedLowered⟩

/-! ### Temporal relations -/

omit complete in
theorem inherited_complete : Inherited Sparql.Expression.Complete Sparql.Expression.Complete
    Sparql.Expression.Complete where
  ofBool _ := Expression.complete_literal _
  compare left right := (Expression.complete_compare _ _ _).2 ⟨left, right⟩
  and given operands := (Expression.complete_and _).2 ⟨given, operands⟩
  or given operands := (Expression.complete_or _).2 ⟨given, operands⟩

theorem complete_timeValue {operator : String} {count final : Nat} {value : TimeValue}
    {group : Group} {expression : Sparql.Expression}
    (lowered : translator.timeValue operator count value = .ok (group, expression, final)) :
    group.Complete ∧ expression.Complete := by
  cases value with
  | literal literal =>
    cases lowered
    exact ⟨Group.complete_nil, Expression.complete_literal literal⟩
  | property property =>
    obtain ⟨⟨first, object⟩, bound, further⟩ := bind_ok.1 lowered
    obtain ⟨made, operandMade, total⟩ := bind_ok.1 further
    cases total
    exact ⟨complete_bind complete bound, complete_operand operandMade⟩

theorem complete_bound {operator : String} {count final : Nat} {value : Option TimeValue}
    {group : Group} {side : Option Sparql.Expression}
    (lowered : translator.bound operator count value = .ok (group, side, final)) :
    group.Complete ∧ ∀ expression ∈ side, expression.Complete := by
  cases value with
  | none =>
    cases lowered
    exact ⟨Group.complete_nil, nofun⟩
  | some bounded =>
    obtain ⟨⟨first, expression, next⟩, valueLowered, total⟩ := bind_ok.1 lowered
    cases total
    obtain ⟨kept, made⟩ := complete_timeValue complete valueLowered
    exact ⟨kept, fun _ member => Option.some.inj member ▸ made⟩

theorem complete_period {operator : String} {count final : Nat} {operand : TemporalOperand}
    {group : Group} {period : Period}
    (lowered : translator.period operator count operand = .ok (group, period, final)) :
    group.Complete ∧ period.All Sparql.Expression.Complete := by
  cases operand with
  | instant value =>
    obtain ⟨⟨first, expression, next⟩, valueLowered, total⟩ := bind_ok.1 lowered
    cases total
    obtain ⟨kept, made⟩ := complete_timeValue complete valueLowered
    exact ⟨kept, fun _ member => Option.some.inj member ▸ made,
      fun _ member => Option.some.inj member ▸ made⟩
  | interval start finish =>
    obtain ⟨⟨first, opening, middle⟩, startLowered, further⟩ := bind_ok.1 lowered
    obtain ⟨⟨second, closing, next⟩, finishLowered, total⟩ := bind_ok.1 further
    cases total
    obtain ⟨firstKept, opens⟩ := complete_bound complete startLowered
    obtain ⟨secondKept, closes⟩ := complete_bound complete finishLowered
    exact ⟨(Group.complete_append _ _).2 ⟨firstKept, secondKept⟩, opens, closes⟩

theorem complete_temporal {relation : TemporalRelation} {left right : TemporalOperand}
    {count final : Nat} {group : Group}
    (lowered : translator.temporal relation left right count = .ok (group, final)) :
    group.Complete := by
  obtain ⟨-, -, further⟩ := bind_ok.1 lowered
  obtain ⟨⟨first, before, middle⟩, leftLowered, further⟩ := bind_ok.1 further
  obtain ⟨⟨second, after, next⟩, rightLowered, total⟩ := bind_ok.1 further
  cases total
  obtain ⟨firstKept, opens⟩ := complete_period complete leftLowered
  obtain ⟨secondKept, closes⟩ := complete_period complete rightLowered
  exact complete_conditioned ((Group.complete_append _ _).2 ⟨firstKept, secondKept⟩)
    ((Element.complete_filter _).2 (relation.holds_filter inherited_complete opens closes))

/-! ### Filters -/

theorem complete_function {name : String} {arguments : List Json} {number : Nat} {group : Group}
    (lowered : translator.function name arguments number = .ok group) : group.Complete := by
  unfold function at lowered
  split at lowered
  · cases lowered
  · rename_i function found
    split at lowered
    · exact complete.functions function (List.mem_of_find?_eq_some found) lowered
    · cases lowered

theorem complete_leaf {condition : Leaf} {count final : Nat} {group : Group}
    (lowered : translator.leaf count condition = .ok (group, final)) : group.Complete := by
  cases condition with
  | temporal relation left right => exact complete_temporal complete lowered
  | compare comparison property value =>
    obtain ⟨single, singleLowered, total⟩ := bind_ok.1 lowered
    cases total
    exact complete_compare complete singleLowered
  | like property pattern =>
    obtain ⟨single, singleLowered, total⟩ := bind_ok.1 lowered
    cases total
    exact complete_like complete singleLowered
  | oneOf property values =>
    obtain ⟨single, singleLowered, total⟩ := bind_ok.1 lowered
    cases total
    exact complete_oneOf complete singleLowered
  | spatial relation property geometry =>
    obtain ⟨single, singleLowered, total⟩ := bind_ok.1 lowered
    cases total
    exact complete_spatial complete singleLowered
  | function name arguments =>
    obtain ⟨single, singleLowered, total⟩ := bind_ok.1 lowered
    cases total
    exact complete_function complete singleLowered

end

mutual

/-- A filter without empty disjunctions is lowered to a complete group. -/
theorem complete_lower {translator : Translator} (complete : translator.Complete)
    (filter : Filter.Expression) {count final : Nat} {group : Group} (filled : filter.Filled)
    (lowered : translator.lower count filter = .ok (group, final)) : group.Complete := by
  rw [Expression.Filled.eq_def] at filled
  match filter with
  | .leaf condition => exact complete_leaf complete lowered
  | .all operands => exact complete_lowerAll complete operands filled lowered
  | .any operands =>
    obtain ⟨⟨branches, next⟩, operandsLowered, total⟩ := bind_ok.1 lowered
    cases total
    obtain ⟨many, each⟩ := complete_lowerEach complete operands filled.2 operandsLowered
    have given : branches ≠ [] := fun empty =>
      filled.1 (List.eq_nil_of_length_eq_zero (by rw [← many, empty, List.length_nil]))
    exact (Group.complete_cons _ _).2
      ⟨(Element.complete_union _).2 ⟨given, each⟩, Group.complete_nil⟩
  | .not operand =>
    obtain ⟨⟨inner, next⟩, operandLowered, total⟩ := bind_ok.1 lowered
    cases total
    have forbidden := complete_lower complete operand filled operandLowered
    exact (Group.complete_cons _ _).2 ⟨(Element.complete_filter _).2
      ((Expression.complete_notExists _).2 forbidden), Group.complete_nil⟩

theorem complete_lowerAll {translator : Translator} (complete : translator.Complete)
    (operands : List Filter.Expression) {count final : Nat} {group : Group}
    (filled : ∀ operand ∈ operands, Expression.Filled operand)
    (lowered : translator.lowerAll count operands = .ok (group, final)) : group.Complete := by
  match operands with
  | [] =>
    cases lowered
    exact Group.complete_nil
  | operand :: rest =>
    rw [List.forall_mem_cons] at filled
    obtain ⟨⟨first, middle⟩, firstLowered, further⟩ := bind_ok.1 lowered
    obtain ⟨⟨others, next⟩, othersLowered, total⟩ := bind_ok.1 further
    cases total
    exact (Group.complete_append _ _).2 ⟨complete_lower complete operand filled.1 firstLowered,
      complete_lowerAll complete rest filled.2 othersLowered⟩

/-- Every operand of a disjunction has a branch. -/
theorem complete_lowerEach {translator : Translator} (complete : translator.Complete)
    (operands : List Filter.Expression) {count final : Nat} {branches : List Group}
    (filled : ∀ operand ∈ operands, Expression.Filled operand)
    (lowered : translator.lowerEach count operands = .ok (branches, final)) :
    branches.length = operands.length ∧ ∀ branch ∈ branches, Group.Complete branch := by
  match operands with
  | [] =>
    cases lowered
    exact ⟨rfl, fun _ member => absurd member List.not_mem_nil⟩
  | operand :: rest =>
    rw [List.forall_mem_cons] at filled
    obtain ⟨⟨first, middle⟩, firstLowered, further⟩ := bind_ok.1 lowered
    obtain ⟨⟨others, next⟩, othersLowered, total⟩ := bind_ok.1 further
    cases total
    obtain ⟨many, each⟩ := complete_lowerEach complete rest filled.2 othersLowered
    exact ⟨congrArg (· + 1) many,
      List.forall_mem_cons.2 ⟨complete_lower complete operand filled.1 firstLowered, each⟩⟩

end

/-- Whatever a document says, its filter selects with a complete group. -/
theorem complete_translate {translator : Translator} (complete : translator.Complete)
    {document : Json} {filter : Filter.Expression} {group : Group}
    (read : Expression.ofJson document = .ok filter)
    (translated : translator.translate filter = .ok group) : group.Complete := by
  obtain ⟨⟨lowered, final⟩, succeeds, total⟩ := bind_ok.1 translated
  cases total
  exact complete_lower complete filter (Expression.filled_ofJson read) succeeds

end Translator

end ShapeQuery.Filter
