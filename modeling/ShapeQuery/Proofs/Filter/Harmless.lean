/-
This file proves that filters are translated to harmless groups. Every text of a filter is either
checked as an IRI, or becomes the content of a literal; the operators of a filter only choose among
the names and functions of the program.
-/
import ShapeQuery.Filter.Lowering
import ShapeQuery.Proofs.Filter.Temporal
import ShapeQuery.Proofs.Shape.Harmless

namespace ShapeQuery.Filter

open Sparql (Term Variable Group Element Expression Path Verb TriplePattern)
open Sparql.Lexer (Lexicon IsReference isReference_ofList Fills fills_numbered filterFrames
  listingFrames)
open Success (bind_ok map_ok)

variable {lexicon : Lexicon}

/-! ### Values -/

/-- A value with a harmless term. -/
def Value.Harmless (lexicon : Lexicon) : Value → Prop
  | .iri name => IsReference name.text
  | .literal value => value.Harmless lexicon

theorem Value.Harmless.term {value : Value} (harmless : value.Harmless lexicon) :
    value.term.Harmless lexicon := by
  cases value with
  | iri name => exact (Term.harmless_iri name).2 harmless
  | literal literal => exact Term.harmless_literal harmless

theorem Value.Harmless.expression {value : Value} (harmless : value.Harmless lexicon) :
    value.expression.Harmless lexicon := by
  cases value with
  | iri name => exact (Expression.harmless_iri name).2 harmless
  | literal literal => exact Expression.harmless_literal harmless

theorem harmless_timeLiteral {α : Type} {read : String → Except Calendar.Fault α} {datatype : Iri}
    (known : IsReference datatype.text) {value : Json} {literal : Literal}
    (made : timeLiteral read datatype value = .ok literal) : literal.Harmless lexicon := by
  unfold timeLiteral at made
  split at made
  · split at made
    · cases made
      exact known
    · cases made
  · cases made

theorem harmless_dateLiteral {value : Json} {literal : Literal}
    (made : dateLiteral value = .ok literal) : literal.Harmless lexicon :=
  harmless_timeLiteral (isReference_ofList (by decide) : IsReference Vocabulary.xsdDate.text) made

theorem harmless_timestampLiteral {value : Json} {literal : Literal}
    (made : timestampLiteral value = .ok literal) : literal.Harmless lexicon :=
  harmless_timeLiteral
    (isReference_ofList (by decide) : IsReference Vocabulary.xsdDateTime.text) made

theorem harmless_numberLiteral (number : JsonNumber) : (numberLiteral number).Harmless lexicon := by
  have integer : IsReference Vocabulary.xsdInteger.text := isReference_ofList (by decide)
  have decimal : IsReference Vocabulary.xsdDecimal.text := isReference_ofList (by decide)
  unfold numberLiteral
  split
  · split
    · exact integer
    · exact decimal
  · exact decimal

/-- A text becomes an IRI only through the check of IRIs. -/
theorem Value.harmless_ofJson {operator : String} {document : Json} {value : Value}
    (read : ofJson operator document = .ok value) : value.Harmless lexicon := by
  have boolean : IsReference Vocabulary.xsdBoolean.text := isReference_ofList (by decide)
  unfold ofJson at read
  split at read
  · split at read
    · split at read
      · rename_i name accepted
        cases read
        exact Iri.isReference_of_ofText accepted
      · cases read
    · cases read
      exact trivial
  · cases read
    exact boolean
  · cases read
    exact harmless_numberLiteral _
  · split at read
    · obtain ⟨literal, made, rfl⟩ := map_ok.1 read
      exact harmless_dateLiteral made
    · obtain ⟨literal, made, rfl⟩ := map_ok.1 read
      exact harmless_timestampLiteral made
    · cases read
  · cases read

theorem Value.harmless_listOfJson {operator : String} {document : Json} {values : List Value}
    (read : listOfJson operator document = .ok values) :
    ∀ value ∈ values, value.Harmless lexicon := by
  unfold listOfJson at read
  split at read
  · cases read
  · intro value member
    obtain ⟨source, -, valueRead⟩ := Success.source_of_mem_mapM read value member
    exact harmless_ofJson valueRead
  · obtain ⟨single, singleRead, rfl⟩ := map_ok.1 read
    exact List.forall_mem_singleton.2 (harmless_ofJson singleRead)

/-! ### Functions -/

/-- Whether a function makes harmless groups of all arguments. -/
def FilterFunction.IsHarmless (lexicon : Lexicon) (function : FilterFunction) : Prop :=
  ∀ {number : Nat} {arguments : Vector Json function.arity} {group : Group},
    function.lower Translator.focus arguments ("_" ++ toString number) = .ok group →
      Group.Harmless lexicon group

theorem isReference_of_ofText? {text : String} {iri : Iri}
    (accepted : Iri.ofText? text = some iri) : IsReference iri.text := by
  unfold Iri.ofText? at accepted
  cases read : Iri.ofText text with
  | error fault => rw [read] at accepted; cases accepted
  | ok name =>
    rw [read] at accepted
    cases accepted
    exact Iri.isReference_of_ofText read

theorem isReference_predicateArgument {operator : String} {document : Json} {name : Iri}
    (read : predicateArgument operator document = .ok name) : IsReference name.text := by
  unfold predicateArgument at read
  split at read
  · rename_i accepted
    cases read
    obtain ⟨text, -, found⟩ := Option.bind_eq_some_iff.1 accepted
    exact isReference_of_ofText? found
  · cases read

theorem harmless_valuesElement {operator : String} {target : Variable} {document : Json}
    {element : Element} (named : lexicon.names target.name)
    (read : valuesElement operator target document = .ok element) : element.Harmless lexicon := by
  obtain ⟨values, listed, made⟩ := bind_ok.1 read
  cases made
  rw [Element.harmless_column, List.forall_mem_map]
  exact ⟨named, fun value member => (Value.harmless_listOfJson listed value member).term⟩

theorem harmless_locations {subject object : Variable} {paths : List Path}
    (subjectNamed : lexicon.names subject.name) (harmless : ∀ path ∈ paths, path.Harmless)
    (objectNamed : lexicon.names object.name) :
    (locations subject paths object).Harmless lexicon := by
  rw [locations, Element.harmless_union, List.forall_mem_map]
  intro path member
  have triple : (Element.ofTriple (.var subject) (.path path) (.var object)).Harmless lexicon :=
    Element.harmless_ofTriple ((Term.harmless_var subject).2 subjectNamed) (harmless path member)
      ((Term.harmless_var object).2 objectNamed)
  exact (Group.harmless_cons _ _).2 ⟨triple, Group.harmless_nil⟩

theorem harmless_observationOf {feature : Term} {observation : Variable}
    (harmless : feature.Harmless lexicon) (named : lexicon.names observation.name) :
    (observationOf feature observation).Harmless lexicon := by
  have path : (Path.alternative [.predicate Vocabulary.sosaIsFeatureOfInterestOf,
      .inverse (.predicate Vocabulary.sosaHasFeatureOfInterest)]).Harmless := by
    have references : IsReference Vocabulary.sosaIsFeatureOfInterestOf.text ∧
        IsReference Vocabulary.sosaHasFeatureOfInterest.text :=
      ⟨isReference_ofList (by decide), isReference_ofList (by decide)⟩
    simpa using references
  exact Element.harmless_ofTriple harmless path ((Term.harmless_var observation).2 named)

theorem harmless_twoSteps {first second : Iri} (known : IsReference first.text)
    (knownSecond : IsReference second.text) : (twoSteps first second).Harmless := by
  simp [twoSteps, known, knownSecond]

/-- The paths to a value that stands by itself or at a node of its own. -/
theorem harmless_valuePaths {direct outer inner : Iri} {node : Iri}
    (directKnown : IsReference direct.text) (outerKnown : IsReference outer.text)
    (innerKnown : IsReference inner.text) (nodeKnown : IsReference node.text) :
    ∀ path ∈ [Path.predicate direct, .predicate outer, twoSteps node inner], path.Harmless := by
  simp only [List.forall_mem_cons]
  exact ⟨(Path.harmless_predicate _).2 directKnown, (Path.harmless_predicate _).2 outerKnown,
    harmless_twoSteps nodeKnown innerKnown, fun _ member => absurd member List.not_mem_nil⟩

/-- A triple whose predicate is an IRI. -/
theorem harmless_predicateTriple {subject object : Term} {name : Iri}
    (subjectHarmless : subject.Harmless lexicon) (known : IsReference name.text)
    (objectHarmless : object.Harmless lexicon) :
    (Element.ofTriple subject (.predicate name) object).Harmless lexicon :=
  Element.harmless_ofTriple subjectHarmless ((Verb.harmless_predicate name).2 known) objectHarmless

section Own

variable (own : Lexicon.own.Within lexicon)

include own

theorem harmless_focus : Translator.focus.Harmless lexicon :=
  (Term.harmless_var _).2 (names_focusNode own)

theorem names_suffixed {word : String} (known : word ++ "_" ∈ filterFrames ++ listingFrames)
    (number : Nat) : lexicon.names (word ++ ("_" ++ toString number)) := by
  rw [← String.append_assoc]
  exact names_numbered own known number

theorem harmless_suffixed {word : String} (known : word ++ "_" ∈ filterFrames ++ listingFrames)
    (number : Nat) : (Term.var ⟨word ++ ("_" ++ toString number)⟩).Harmless lexicon :=
  (Term.harmless_var _).2 (names_suffixed own known number)

theorem directObservation_harmless : directObservation.IsHarmless lexicon := by
  intro number arguments group lowered
  have word : "observation" ++ "_" ∈ filterFrames ++ listingFrames := by decide
  have node := harmless_suffixed own word number
  obtain ⟨firstPredicate, firstRead, lowered⟩ := bind_ok.1 lowered
  obtain ⟨firstValue, firstValueRead, lowered⟩ := bind_ok.1 lowered
  obtain ⟨secondPredicate, secondRead, lowered⟩ := bind_ok.1 lowered
  obtain ⟨secondValue, secondValueRead, lowered⟩ := bind_ok.1 lowered
  cases lowered
  have first := harmless_predicateTriple node (isReference_predicateArgument firstRead)
    (Value.harmless_ofJson firstValueRead).term
  have second := harmless_predicateTriple node (isReference_predicateArgument secondRead)
    (Value.harmless_ofJson secondValueRead).term
  simp only [Group.harmless_cons]
  exact ⟨harmless_observationOf (harmless_focus own) (names_suffixed own word number), first,
    second, Group.harmless_nil⟩

theorem sequenceObservation_harmless : sequenceObservation.IsHarmless lexicon := by
  intro number arguments group lowered
  have word : "observation" ++ "_" ∈ filterFrames ++ listingFrames := by decide
  have node := harmless_suffixed own word number
  obtain ⟨firstPredicate, firstRead, lowered⟩ := bind_ok.1 lowered
  obtain ⟨firstValue, firstValueRead, lowered⟩ := bind_ok.1 lowered
  obtain ⟨secondPredicate, secondRead, lowered⟩ := bind_ok.1 lowered
  obtain ⟨thirdPredicate, thirdRead, lowered⟩ := bind_ok.1 lowered
  obtain ⟨secondValue, secondValueRead, lowered⟩ := bind_ok.1 lowered
  cases lowered
  have first := harmless_predicateTriple node (isReference_predicateArgument firstRead)
    (Value.harmless_ofJson firstValueRead).term
  have steps := harmless_twoSteps (isReference_predicateArgument secondRead)
    (isReference_predicateArgument thirdRead)
  have second : (Element.ofTriple _ (.path _) _).Harmless lexicon :=
    Element.harmless_ofTriple node steps (Value.harmless_ofJson secondValueRead).term
  simp only [Group.harmless_cons]
  exact ⟨harmless_observationOf (harmless_focus own) (names_suffixed own word number), first,
    second, Group.harmless_nil⟩

theorem hasObservation_harmless : hasObservation.IsHarmless lexicon := by
  intro number arguments group lowered
  have node := names_suffixed own (by decide : "observation" ++ "_" ∈ _)
    number
  have property := names_suffixed own (by decide : "obs_prop" ++ "_" ∈ _)
    number
  have result := names_suffixed own (by decide : "result" ++ "_" ∈ _)
    number
  obtain ⟨properties, propertiesRead, lowered⟩ := bind_ok.1 lowered
  obtain ⟨results, resultsRead, lowered⟩ := bind_ok.1 lowered
  cases lowered
  have observed := harmless_predicateTriple ((Term.harmless_var _).2 node)
    (isReference_ofList (by decide) : IsReference Vocabulary.sosaObservedProperty.text)
    ((Term.harmless_var _).2 property)
  simp only [Group.harmless_cons]
  refine ⟨harmless_observationOf (harmless_focus own) node, observed,
    harmless_locations node (harmless_valuePaths ?_ ?_ ?_ ?_) result,
    harmless_valuesElement property propertiesRead, harmless_valuesElement result resultsRead,
    Group.harmless_nil⟩
  all_goals exact isReference_ofList (by decide)

theorem hasAttribute_harmless : hasAttribute.IsHarmless lexicon := by
  intro number arguments group lowered
  have node := names_suffixed own (by decide : "attr_bn_var" ++ "_" ∈ _)
    number
  have name := names_suffixed own (by decide : "attr_name_var" ++ "_" ∈ _)
    number
  have result := names_suffixed own (by decide : "result" ++ "_" ∈ _)
    number
  obtain ⟨names, namesRead, lowered⟩ := bind_ok.1 lowered
  obtain ⟨results, resultsRead, lowered⟩ := bind_ok.1 lowered
  cases lowered
  have attributed := harmless_predicateTriple (harmless_focus own)
    (isReference_ofList (by decide) : IsReference Vocabulary.ternHasAttribute.text)
    ((Term.harmless_var _).2 node)
  have named := harmless_predicateTriple ((Term.harmless_var _).2 node)
    (isReference_ofList (by decide) : IsReference Vocabulary.ternAttribute.text)
    ((Term.harmless_var _).2 name)
  simp only [Group.harmless_cons]
  refine ⟨attributed, named, harmless_locations node (harmless_valuePaths ?_ ?_ ?_ ?_) result,
    harmless_valuesElement name namesRead, harmless_valuesElement result resultsRead,
    Group.harmless_nil⟩
  all_goals exact isReference_ofList (by decide)

theorem hasAdditional_harmless : hasAdditional.IsHarmless lexicon := by
  intro number arguments group lowered
  have node := names_suffixed own (by decide : "aprop_bn_var" ++ "_" ∈ _)
    number
  have name := names_suffixed own
    (by decide : "aprop_name_or_id_var" ++ "_" ∈ _) number
  have value := names_suffixed own (by decide : "value" ++ "_" ∈ _) number
  obtain ⟨names, namesRead, lowered⟩ := bind_ok.1 lowered
  obtain ⟨values, valuesRead, lowered⟩ := bind_ok.1 lowered
  cases lowered
  have additional := harmless_predicateTriple (harmless_focus own)
    (isReference_ofList (by decide) : IsReference Vocabulary.schemaAdditionalProperty.text)
    ((Term.harmless_var _).2 node)
  have path : (Path.alternative [.predicate Vocabulary.schemaPropertyId,
      .predicate Vocabulary.schemaName]).Harmless := by
    have references : IsReference Vocabulary.schemaPropertyId.text ∧
        IsReference Vocabulary.schemaName.text :=
      ⟨isReference_ofList (by decide), isReference_ofList (by decide)⟩
    simpa using references
  have named : (Element.ofTriple _ (.path _) _).Harmless lexicon :=
    Element.harmless_ofTriple ((Term.harmless_var _).2 node) path ((Term.harmless_var _).2 name)
  simp only [Group.harmless_cons]
  refine ⟨additional, named, harmless_locations node (harmless_valuePaths ?_ ?_ ?_ ?_) value,
    harmless_valuesElement name namesRead, harmless_valuesElement value valuesRead,
    Group.harmless_nil⟩
  all_goals exact isReference_ofList (by decide)

theorem qualifiedAttribution_harmless : qualifiedAttribution.IsHarmless lexicon := by
  intro number arguments group lowered
  have node := names_suffixed own (by decide : "qa_bn_var" ++ "_" ∈ _) number
  have role := names_suffixed own (by decide : "role_var" ++ "_" ∈ _) number
  have agent := names_suffixed own (by decide : "agent_var" ++ "_" ∈ _)
    number
  obtain ⟨roles, rolesRead, lowered⟩ := bind_ok.1 lowered
  obtain ⟨agents, agentsRead, lowered⟩ := bind_ok.1 lowered
  cases lowered
  have attribution := harmless_predicateTriple (harmless_focus own)
    (isReference_ofList (by decide) : IsReference Vocabulary.provQualifiedAttribution.text)
    ((Term.harmless_var _).2 node)
  have hadRole := harmless_predicateTriple ((Term.harmless_var _).2 node)
    (isReference_ofList (by decide) : IsReference Vocabulary.provHadRole.text)
    ((Term.harmless_var _).2 role)
  have byAgent := harmless_predicateTriple ((Term.harmless_var _).2 node)
    (isReference_ofList (by decide) : IsReference Vocabulary.provAgent.text)
    ((Term.harmless_var _).2 agent)
  simp only [Group.harmless_cons]
  exact ⟨attribution, hadRole, byAgent, harmless_valuesElement role rolesRead,
    harmless_valuesElement agent agentsRead, Group.harmless_nil⟩

theorem Registry.standard_harmless :
    ∀ function ∈ Registry.standard.functions, function.IsHarmless lexicon := by
  intro function member
  simp only [Registry.standard, List.mem_cons, List.not_mem_nil, or_false] at member
  rcases member with rfl | rfl | rfl | rfl | rfl | rfl
  · exact directObservation_harmless own
  · exact sequenceObservation_harmless own
  · exact hasObservation_harmless own
  · exact hasAttribute_harmless own
  · exact hasAdditional_harmless own
  · exact qualifiedAttribution_harmless own

end Own

/-! ### Spatial relations -/

theorem SpatialRelation.isReference_function (relation : SpatialRelation) :
    IsReference relation.function.text := by
  cases relation <;> exact isReference_ofList (by decide)

theorem SpatialRelation.isReference_predicate (relation : SpatialRelation) :
    IsReference relation.predicate.text := by
  cases relation <;> exact isReference_ofList (by decide)

theorem SpatialRelation.isReference_joinType {relation : SpatialRelation} {joinType : Iri}
    (found : relation.joinType? = some joinType) : IsReference joinType.text := by
  cases relation <;> cases found <;> exact isReference_ofList (by decide)

namespace SpatialFilter

/-- A spatial filter about a harmless term, with a suffix that makes known names. -/
structure Harmless (lexicon : Lexicon) (filter : SpatialFilter) : Prop where
  subject : filter.subject.Harmless lexicon
  node : lexicon.names filter.geometryNode.name
  text : lexicon.names filter.geometryText.name
  input : lexicon.names (filter.named "wkt_input").name
  label : lexicon.labels ("config_" ++ filter.suffix)

variable {filter : SpatialFilter} (harmless : filter.Harmless lexicon)

include harmless

theorem Harmless.geometryTriples :
    ∀ triple ∈ filter.geometryTriples, triple.Harmless lexicon := by
  have hasGeometry : IsReference Vocabulary.geoHasGeometry.text := isReference_ofList (by decide)
  have asText : IsReference Vocabulary.geoAsWkt.text := isReference_ofList (by decide)
  have node := (Term.harmless_var _).2 harmless.node
  refine List.forall_mem_cons.2 ⟨⟨harmless.subject, ?_, node⟩,
    List.forall_mem_singleton.2 ⟨node, ?_, (Term.harmless_var _).2 harmless.text⟩⟩
  · exact (Verb.harmless_predicate _).2 hasGeometry
  · exact (Verb.harmless_predicate _).2 asText

theorem Harmless.join {joinType : Iri} (known : IsReference joinType.text) :
    Group.Harmless lexicon (filter.join joinType) := by
  have parameter {predicate : Iri} (reference : IsReference predicate.text) {value : Term}
      (valueHarmless : value.Harmless lexicon) :
      TriplePattern.Harmless lexicon
        ⟨.blank ("config_" ++ filter.suffix), .predicate predicate, value⟩ :=
    ⟨(Term.harmless_blank _).2 harmless.label, (Verb.harmless_predicate _).2 reference,
      valueHarmless⟩
  have library : IsReference Vocabulary.qleverLibspatialjoin.text :=
    isReference_ofList (by decide)
  have algorithm := parameter
    (isReference_ofList (by decide) : IsReference Vocabulary.qleverAlgorithm.text)
    ((Term.harmless_iri _).2 library)
  have left := parameter (isReference_ofList (by decide) : IsReference Vocabulary.qleverLeft.text)
    ((Term.harmless_var _).2 harmless.input)
  have right := parameter (isReference_ofList (by decide) : IsReference Vocabulary.qleverRight.text)
    ((Term.harmless_var _).2 harmless.text)
  have payload := parameter
    (isReference_ofList (by decide) : IsReference Vocabulary.qleverPayload.text) harmless.subject
  have join := parameter
    (isReference_ofList (by decide) : IsReference Vocabulary.qleverJoinType.text)
    ((Term.harmless_iri _).2 known)
  have service : IsReference Vocabulary.qleverNamespace.text := isReference_ofList (by decide)
  have literal : (Term.literal filter.bareLiteral).Harmless lexicon :=
    Term.harmless_literal
      (isReference_ofList (by decide) : IsReference Vocabulary.geoWktLiteral.text)
  have parameters := Element.harmless_ofTriples (List.forall_mem_cons.2 ⟨algorithm,
    List.forall_mem_cons.2 ⟨left, List.forall_mem_cons.2 ⟨right, List.forall_mem_cons.2 ⟨payload,
      List.forall_mem_singleton.2 join⟩⟩⟩⟩)
  have triples := Element.harmless_ofTriples harmless.geometryTriples
  simp only [SpatialFilter.join, Group.harmless_cons, Group.harmless_append,
    Element.harmless_group, Element.harmless_column, Element.harmless_service,
    List.forall_mem_singleton]
  exact ⟨⟨⟨harmless.input, literal⟩, ⟨service, parameters, triples, Group.harmless_nil⟩,
    Group.harmless_nil⟩, Group.harmless_nil⟩

/-- A spatial filter is harmless in every dialect. -/
theorem Harmless.lower {target : SpatialTarget} {group : Group}
    (lowered : filter.lower target = .ok group) : Group.Harmless lexicon group := by
  have triples := Element.harmless_ofTriples harmless.geometryTriples
  have datatype : filter.literal.Harmless lexicon :=
    (isReference_ofList (by decide) : IsReference Vocabulary.geoWktLiteral.text)
  unfold SpatialFilter.lower at lowered
  split at lowered
  · cases lowered
    rw [Group.harmless_append]
    refine ⟨triples, ?_⟩
    have known := filter.relation.isReference_function
    simpa [Sparql.Function.lexeme, Sparql.Lexeme.IsHarmless, known, harmless.text]
      using Expression.harmless_literal datatype
  · cases lowered
    rw [Group.harmless_append]
    refine ⟨triples, ?_⟩
    have related := harmless_predicateTriple ((Term.harmless_var _).2 harmless.node)
      filter.relation.isReference_predicate (Term.harmless_literal datatype)
    simpa using related
  · split at lowered
    · rename_i found
      cases lowered
      exact harmless.join (SpatialRelation.isReference_joinType found)
    · cases lowered

end SpatialFilter

/-! ### Temporal relations -/

theorem inherited_harmless : Inherited (Expression.Harmless lexicon) (Expression.Harmless lexicon)
    (Expression.Harmless lexicon) where
  ofBool _ :=
    Expression.harmless_literal
      (isReference_ofList (by decide) : IsReference Vocabulary.xsdBoolean.text)
  compare left right := (Expression.harmless_compare _ _ _).2 ⟨left, right⟩
  and _ operands := (Expression.harmless_and _).2 operands
  or _ operands := (Expression.harmless_or _).2 operands

/-! ### Documents -/

/-- A bounded side with a harmless literal. A property is checked when it is lowered. -/
def TimeValue.Harmless (lexicon : Lexicon) : TimeValue → Prop
  | .literal value => value.Harmless lexicon
  | .property _ => True

/-- An operand with harmless literals. -/
def TemporalOperand.Harmless (lexicon : Lexicon) : TemporalOperand → Prop
  | .instant value => value.Harmless lexicon
  | .interval start finish =>
    (∀ bound ∈ start, bound.Harmless lexicon) ∧ ∀ bound ∈ finish, bound.Harmless lexicon

/-- A condition with harmless values. -/
def Leaf.Harmless (lexicon : Lexicon) : Leaf → Prop
  | .compare _ _ value => value.Harmless lexicon
  | .like _ _ => True
  | .oneOf _ values => ∀ value ∈ values, value.Harmless lexicon
  | .spatial _ _ _ => True
  | .temporal _ left right => left.Harmless lexicon ∧ right.Harmless lexicon
  | .function _ _ => True

theorem TimeValue.harmless_ofJson {operator : String} {document : Json} {value : TimeValue}
    (read : ofJson operator document = .ok value) : value.Harmless lexicon := by
  unfold ofJson at read
  split at read
  · obtain ⟨literal, made, rfl⟩ := map_ok.1 read
    unfold dateOrTimeLiteral at made
    split at made
    · exact harmless_timestampLiteral made
    · exact harmless_dateLiteral made
  · split at read
    · obtain ⟨property, -, rfl⟩ := map_ok.1 read
      exact trivial
    · split at read
      · obtain ⟨literal, made, rfl⟩ := map_ok.1 read
        exact harmless_dateLiteral made
      · obtain ⟨literal, made, rfl⟩ := map_ok.1 read
        exact harmless_timestampLiteral made
      · cases read
  · cases read

theorem harmless_boundOfJson {operator : String} {document : Json} {bound : Option TimeValue}
    (read : boundOfJson operator document = .ok bound) :
    ∀ value ∈ bound, value.Harmless lexicon := by
  unfold boundOfJson at read
  split at read
  · cases read
    exact fun _ member => by cases member
  · obtain ⟨value, valueRead, rfl⟩ := map_ok.1 read
    intro other member
    cases member
    exact TimeValue.harmless_ofJson valueRead

theorem TemporalOperand.harmless_ofJson {operator : String} {document : Json}
    {operand : TemporalOperand} (read : ofJson operator document = .ok operand) :
    operand.Harmless lexicon := by
  unfold ofJson at read
  split at read
  · split at read
    · obtain ⟨start, startRead, further⟩ := bind_ok.1 read
      obtain ⟨finish, finishRead, made⟩ := bind_ok.1 further
      cases made
      exact ⟨harmless_boundOfJson startRead, harmless_boundOfJson finishRead⟩
    · cases read
  · split at read
    · cases read
    · obtain ⟨value, valueRead, made⟩ := bind_ok.1 read
      cases made
      exact TimeValue.harmless_ofJson valueRead

end ShapeQuery.Filter
