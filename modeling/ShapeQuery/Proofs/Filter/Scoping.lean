/-
This file proves that filters keep to the rules of scopes: their groups bind no values but those of
the shapes of queryables, and all variables that they name have compound names.
-/
import ShapeQuery.Proofs.Filter.Renumbering
import ShapeQuery.Proofs.Filter.Temporal
import ShapeQuery.Proofs.Shape.Scoping

namespace ShapeQuery.Filter

open Sparql (Term Variable Group Element Path TriplePattern groupScope)
open Success (bind_ok map_ok)

/-- Whether a group keeps to the rules and names variables with compound names only. -/
abbrev Compound (group : Group) : Prop :=
  group.ScopedIn Variable.IsCompound

/-! ### Names -/

theorem isCompound_suffixed (word : String) (number : Nat) :
    Variable.IsCompound ⟨word ++ ("_" ++ toString number)⟩ := by
  rw [← String.append_assoc]
  exact Variable.isCompound_numbered word number

theorem names_value (value : Value) : value.term.names = [] :=
  Term.names_of_ground value.ground

theorem names_values (values : List Value) : ∀ term ∈ values.map Value.term, term.names = [] :=
  List.forall_mem_map.2 fun value _ => names_value value

theorem scoped_triple {owns : Variable → Prop} {subject : Term} {verb : Sparql.Verb}
    {object : Term} (subjectNames : ∀ name ∈ subject.names, owns name)
    (verbNames : verb.names = []) (objectNames : ∀ name ∈ object.names, owns name) :
    Group.ScopedIn owns [.ofTriple subject verb object] := by
  refine .triple ?_
  simpa [TriplePattern.names, verbNames, or_imp, forall_and] using ⟨subjectNames, objectNames⟩

theorem compound_locations {subject object : Variable} (paths : List Path)
    (subjectNamed : subject.IsCompound) (objectNamed : object.IsCompound) :
    Compound [locations subject paths object] := by
  have branch (path : Path) : Compound [.ofTriple (.var subject) (.path path) (.var object)] :=
    scoped_triple (List.forall_mem_singleton.2 subjectNamed) rfl
      (List.forall_mem_singleton.2 objectNamed)
  refine .union ?_ ?_
  · exact List.forall_mem_map.2 fun path _ => (branch path).settled.wellScoped []
  · exact List.forall_mem_map.2 fun path _ => (branch path).named

theorem compound_valuesElement {operator : String} {target : Variable} {document : Json}
    {element : Element} (named : target.IsCompound)
    (read : valuesElement operator target document = .ok element) : Compound [element] := by
  obtain ⟨values, -, made⟩ := bind_ok.1 read
  cases made
  exact .column named (names_values values)

theorem compound_focus : ∀ name ∈ Translator.focus.names, name.IsCompound :=
  List.forall_mem_singleton.2 (by decide : Shape.focusNode.IsCompound)

/-! ### Functions -/

/-- Whether a function makes groups that keep to the rules, whatever its arguments are. -/
def FilterFunction.IsCompound (function : FilterFunction) : Prop :=
  ∀ {number : Nat} {arguments : Vector Json function.arity} {group : Group},
    function.lower Translator.focus arguments ("_" ++ toString number) = .ok group →
      Compound group

theorem directObservation_isCompound : directObservation.IsCompound := by
  intro number arguments group lowered
  obtain ⟨firstPredicate, -, lowered⟩ := bind_ok.1 lowered
  obtain ⟨firstValue, -, lowered⟩ := bind_ok.1 lowered
  obtain ⟨secondPredicate, -, lowered⟩ := bind_ok.1 lowered
  obtain ⟨secondValue, -, lowered⟩ := bind_ok.1 lowered
  cases lowered
  have node := List.forall_mem_singleton.2 (isCompound_suffixed "observation" number)
  refine .cons (scoped_triple compound_focus rfl node) (.cons ?_ ?_)
  · exact scoped_triple node rfl (by rw [names_value]; exact nofun)
  · exact scoped_triple node rfl (by rw [names_value]; exact nofun)

theorem sequenceObservation_isCompound : sequenceObservation.IsCompound := by
  intro number arguments group lowered
  obtain ⟨firstPredicate, -, lowered⟩ := bind_ok.1 lowered
  obtain ⟨firstValue, -, lowered⟩ := bind_ok.1 lowered
  obtain ⟨secondPredicate, -, lowered⟩ := bind_ok.1 lowered
  obtain ⟨thirdPredicate, -, lowered⟩ := bind_ok.1 lowered
  obtain ⟨secondValue, -, lowered⟩ := bind_ok.1 lowered
  cases lowered
  have node := List.forall_mem_singleton.2 (isCompound_suffixed "observation" number)
  refine .cons (scoped_triple compound_focus rfl node) (.cons ?_ ?_)
  · exact scoped_triple node rfl (by rw [names_value]; exact nofun)
  · exact scoped_triple node rfl (by rw [names_value]; exact nofun)

/-- A node of the focus with a name and a value at one of some places, each one of some. -/
theorem compound_described {first second : Sparql.Verb} (firstNames : first.names = [])
    (secondNames : second.names = []) {node name value : Variable} (nodeNamed : node.IsCompound)
    (nameNamed : name.IsCompound) (valueNamed : value.IsCompound) (paths : List Path)
    {names values : Element} (namesCompound : Compound [names])
    (valuesCompound : Compound [values]) :
    Compound [.ofTriple Translator.focus first (.var node),
      .ofTriple (.var node) second (.var name), locations node paths value, names, values] :=
  .cons (scoped_triple compound_focus firstNames (List.forall_mem_singleton.2 nodeNamed))
    (.cons (scoped_triple (List.forall_mem_singleton.2 nodeNamed) secondNames
      (List.forall_mem_singleton.2 nameNamed))
      (.cons (compound_locations paths nodeNamed valueNamed)
        (.cons namesCompound valuesCompound)))

theorem hasObservation_isCompound : hasObservation.IsCompound := by
  intro number arguments group lowered
  obtain ⟨properties, propertiesRead, lowered⟩ := bind_ok.1 lowered
  obtain ⟨results, resultsRead, lowered⟩ := bind_ok.1 lowered
  cases lowered
  have property := isCompound_suffixed "obs_prop" number
  have result := isCompound_suffixed "result" number
  exact compound_described rfl rfl (isCompound_suffixed "observation" number) property result _
    (compound_valuesElement property propertiesRead) (compound_valuesElement result resultsRead)

theorem hasAttribute_isCompound : hasAttribute.IsCompound := by
  intro number arguments group lowered
  obtain ⟨names, namesRead, lowered⟩ := bind_ok.1 lowered
  obtain ⟨results, resultsRead, lowered⟩ := bind_ok.1 lowered
  cases lowered
  have name := isCompound_suffixed "attr_name_var" number
  have result := isCompound_suffixed "result" number
  exact compound_described rfl rfl (isCompound_suffixed "attr_bn_var" number) name result _
    (compound_valuesElement name namesRead) (compound_valuesElement result resultsRead)

theorem hasAdditional_isCompound : hasAdditional.IsCompound := by
  intro number arguments group lowered
  obtain ⟨names, namesRead, lowered⟩ := bind_ok.1 lowered
  obtain ⟨values, valuesRead, lowered⟩ := bind_ok.1 lowered
  cases lowered
  have name := isCompound_suffixed "aprop_name_or_id_var" number
  have value := isCompound_suffixed "value" number
  exact compound_described rfl rfl (isCompound_suffixed "aprop_bn_var" number) name value _
    (compound_valuesElement name namesRead) (compound_valuesElement value valuesRead)

theorem qualifiedAttribution_isCompound : qualifiedAttribution.IsCompound := by
  intro number arguments group lowered
  obtain ⟨roles, rolesRead, lowered⟩ := bind_ok.1 lowered
  obtain ⟨agents, agentsRead, lowered⟩ := bind_ok.1 lowered
  cases lowered
  have node := List.forall_mem_singleton.2 (isCompound_suffixed "qa_bn_var" number)
  have role := isCompound_suffixed "role_var" number
  have agent := isCompound_suffixed "agent_var" number
  exact .cons (scoped_triple compound_focus rfl node)
    (.cons (scoped_triple node rfl (List.forall_mem_singleton.2 role))
      (.cons (scoped_triple node rfl (List.forall_mem_singleton.2 agent))
        (.cons (compound_valuesElement role rolesRead) (compound_valuesElement agent agentsRead))))

theorem Registry.standard_isCompound :
    ∀ function ∈ Registry.standard.functions, function.IsCompound := by
  intro function member
  simp only [Registry.standard, List.mem_cons, List.not_mem_nil, or_false] at member
  rcases member with rfl | rfl | rfl | rfl | rfl | rfl
  · exact directObservation_isCompound
  · exact sequenceObservation_isCompound
  · exact hasObservation_isCompound
  · exact hasAttribute_isCompound
  · exact hasAdditional_isCompound
  · exact qualifiedAttribution_isCompound

/-! ### Spatial relations -/

namespace SpatialFilter

variable {filter : SpatialFilter}

/-- The variables of a filter are compound, whatever its suffix is. -/
theorem isCompound_named (filter : SpatialFilter) {stem : String} {first : Char}
    (start : stem.toList.head? = some first) (other : first ≠ 'o') :
    (filter.named stem).IsCompound := by
  refine ⟨by simp [named], fun same => other ?_⟩
  have lists : stem.toList ++ ("_" ++ filter.suffix).toList = "order_by_val".toList := by
    rw [← String.toList_append, ← String.append_assoc]
    exact congrArg String.toList same
  have heads := congrArg List.head? lists
  rw [List.head?_append, start] at heads
  exact Option.some.inj heads

theorem isCompound_geometryNode (filter : SpatialFilter) : filter.geometryNode.IsCompound :=
  filter.isCompound_named (by decide : "geom_bnode".toList.head? = some 'g') (by decide)

theorem isCompound_geometryText (filter : SpatialFilter) : filter.geometryText.IsCompound :=
  filter.isCompound_named (by decide : "geom_var".toList.head? = some 'g') (by decide)

theorem isCompound_input (filter : SpatialFilter) : (filter.named "wkt_input").IsCompound :=
  filter.isCompound_named (by decide : "wkt_input".toList.head? = some 'w') (by decide)

section

variable {owns : Variable → Prop} (subject : ∀ name ∈ filter.subject.names, owns name)
  (node : owns filter.geometryNode) (text : owns filter.geometryText)

include subject node text

theorem scoped_geometryTriples : Group.ScopedIn owns (Group.ofTriples filter.geometryTriples) :=
  .cons (scoped_triple subject rfl (List.forall_mem_singleton.2 node))
    (scoped_triple (List.forall_mem_singleton.2 node) rfl (List.forall_mem_singleton.2 text))

variable (input : owns (filter.named "wkt_input"))

include input

theorem scoped_join (joinType : Iri) : Group.ScopedIn owns (filter.join joinType) := by
  have parameter (predicate : Iri) {value : Term} (named : ∀ name ∈ value.names, owns name) :
      ∀ name ∈ (TriplePattern.mk (.blank ("config_" ++ filter.suffix)) (.predicate predicate)
        value).names, owns name := by
    simpa [TriplePattern.names, Term.names] using named
  have parameters : ∀ triple ∈
      [TriplePattern.mk (.blank ("config_" ++ filter.suffix)) (.predicate Vocabulary.qleverAlgorithm)
          (.iri Vocabulary.qleverLibspatialjoin),
        ⟨.blank ("config_" ++ filter.suffix), .predicate Vocabulary.qleverLeft,
          .var (filter.named "wkt_input")⟩,
        ⟨.blank ("config_" ++ filter.suffix), .predicate Vocabulary.qleverRight,
          .var filter.geometryText⟩,
        ⟨.blank ("config_" ++ filter.suffix), .predicate Vocabulary.qleverPayload, filter.subject⟩,
        ⟨.blank ("config_" ++ filter.suffix), .predicate Vocabulary.qleverJoinType, .iri joinType⟩],
      ∀ name ∈ triple.names, owns name := by
    refine List.forall_mem_cons.2 ⟨parameter _ (List.forall_mem_nil _), List.forall_mem_cons.2
      ⟨parameter _ (List.forall_mem_singleton.2 input), List.forall_mem_cons.2
        ⟨parameter _ (List.forall_mem_singleton.2 text), List.forall_mem_cons.2
          ⟨parameter _ subject,
            List.forall_mem_singleton.2 (parameter _ (List.forall_mem_nil _))⟩⟩⟩⟩
  have literal : ∀ value ∈ [Term.literal filter.bareLiteral], value.names = [] :=
    List.forall_mem_singleton.2 rfl
  exact .nested (.cons (.column input literal) (.service _ _
    ((Group.ScopedIn.ofTriples parameters).append
      (.nested (scoped_geometryTriples subject node text)))))

/-- A spatial filter keeps to the rules in every dialect, and names its subject and variables of its
own. -/
theorem scoped_lower {target : SpatialTarget} {group : Group}
    (lowered : filter.lower target = .ok group) : Group.ScopedIn owns group := by
  have triples := scoped_geometryTriples subject node text
  unfold lower at lowered
  split at lowered
  · cases lowered
    exact triples.append (.filter (.call (List.forall_mem_cons.2
      ⟨.var text, List.forall_mem_singleton.2 (.literal _)⟩) _))
  · cases lowered
    have related : Group.ScopedIn owns [.ofTriple (.var filter.geometryNode)
        (.predicate filter.relation.predicate) (.literal filter.literal)] :=
      scoped_triple (List.forall_mem_singleton.2 node) rfl nofun
    exact triples.append (.filter (.exists related))
  · split at lowered
    · cases lowered
      exact scoped_join subject node text input _
    · cases lowered

end

/-- The variables of a spatial filter are compound if those of its subject are. -/
theorem compound_lower (subject : ∀ name ∈ filter.subject.names, name.IsCompound)
    {target : SpatialTarget} {group : Group} (lowered : filter.lower target = .ok group) :
    Compound group :=
  scoped_lower subject filter.isCompound_geometryNode filter.isCompound_geometryText
    filter.isCompound_input lowered

end SpatialFilter

/-! ### Properties -/

namespace Translator

/-- A translator with the standard functions, whose queryables have paths that can be followed. -/
structure Followable (translator : Translator) : Prop where
  functions : translator.functions = .standard
  regular : ∀ entry ∈ translator.queryables, entry.2.Regular
  filled : ∀ entry ∈ translator.queryables, entry.2.Filled

/-- The group of a property and the term for its values have compound names. -/
structure BoundCompound (bound : Group × Term) : Prop where
  group : Compound bound.1
  term : ∀ name ∈ bound.2.names, name.IsCompound

theorem compound_bindShape {operator : String} {property : Property} {shape : PropertyShape}
    {number : Nat} {bound : Group × Term} (regular : shape.Regular) (filled : shape.Filled)
    (made : bindShape operator property shape number = .ok bound) : BoundCompound bound := by
  unfold bindShape at made
  split at made
  · cases made
  · dsimp only at made
    split at made
    · cases made
    · rename_i fragment next lowered
      have plain : Lowering.Plain ⟨.profile, focus, []⟩ := ⟨nofun, rfl⟩
      have other (slot : Shape.Slot) :
          slot.toVariable (Shape.Scope.start (stem number)).stem ∉ [Shape.focusNode] :=
        fun member => slot.toVariable_ne_focusNode _ (List.mem_singleton.1 member)
      obtain ⟨-, kept⟩ := Lowering.scoped_property plain other regular filled lowered
      split at made
      · rename_i terminal ended
        cases made
        have compound := kept.mono fun name reserves =>
          reserves.covers.elim (compound_focus name) id
        exact ⟨compound.pattern, compound.leads terminal ended⟩
      · cases made

theorem isCompound_stem (number : Nat) : Variable.IsCompound ⟨stem number⟩ :=
  Variable.isCompound_numbered "var" number

theorem compound_bindPredicate {property : Property} {number : Nat} {bound : Group × Term}
    (made : bindPredicate property number = .ok bound) : BoundCompound bound := by
  have value := List.forall_mem_singleton.2 (isCompound_stem number)
  unfold bindPredicate at made
  split at made
  · cases made
  · cases made
    refine ⟨?_, value⟩
    split
    · exact scoped_triple value rfl compound_focus
    · exact scoped_triple compound_focus rfl value

/-- Whether an expression keeps to the rules and names variables with compound names only. -/
abbrev Tidy (expression : Sparql.Expression) : Prop :=
  expression.ScopedIn Variable.IsCompound

theorem tidy_operand {operator : String} {term : Term} {expression : Sparql.Expression}
    (named : ∀ name ∈ term.names, name.IsCompound)
    (made : operand operator term = .ok expression) : Tidy expression := by
  cases term with
  | var name =>
    cases made
    exact .var (List.forall_mem_singleton.1 named)
  | blank label => cases made
  | iri name =>
    cases made
    exact .iri name
  | literal value =>
    cases made
    exact .literal value

section Followable

variable {translator : Translator} (followable : translator.Followable)

include followable

theorem compound_bind {operator : String} {property : Property} {number : Nat}
    {bound : Group × Term} (made : translator.bind operator property number = .ok bound) :
    BoundCompound bound := by
  unfold bind at made
  split at made
  · rename_i shape found
    obtain ⟨entry, member, rfl⟩ := mem_of_shape? found
    exact compound_bindShape (followable.regular entry member) (followable.filled entry member) made
  · exact compound_bindPredicate made

/-! ### Conditions -/

omit followable in
theorem tidy_value (value : Value) : Tidy value.expression := by
  cases value with
  | iri name => exact .iri name
  | literal value => exact .literal value

theorem compound_compare {comparison : Sparql.Comparison} {property : Property} {value : Value}
    {number : Nat} {group : Group}
    (lowered : translator.compare comparison property value number = .ok group) :
    Compound group := by
  obtain ⟨⟨first, object⟩, bound, further⟩ := bind_ok.1 lowered
  obtain ⟨kept, named⟩ := compound_bind followable bound
  have condition {left : Sparql.Expression} (inside : Tidy left) :
      Compound [.filter (.compare left comparison value.expression)] :=
    .filter (.compare inside (tidy_value value))
  cases object with
  | var name =>
    rw [compare_of_bind bound] at lowered
    cases lowered
    refine kept.append ?_
    unfold compared
    split
    · exact .column (List.forall_mem_singleton.1 named) (names_values [value])
    · exact condition (.var (List.forall_mem_singleton.1 named))
  | _ =>
    obtain ⟨left, made, total⟩ := bind_ok.1 further
    cases total
    exact kept.append (condition (tidy_operand named made))

theorem compound_like {property : Property} {pattern : String} {number : Nat} {group : Group}
    (lowered : translator.like property pattern number = .ok group) : Compound group := by
  obtain ⟨⟨first, object⟩, bound, further⟩ := bind_ok.1 lowered
  obtain ⟨left, made, total⟩ := bind_ok.1 further
  cases total
  obtain ⟨kept, named⟩ := compound_bind followable bound
  exact kept.append (.filter (.call (List.forall_mem_cons.2 ⟨tidy_operand named made,
    List.forall_mem_cons.2 ⟨.literal _, List.forall_mem_singleton.2 (.literal _)⟩⟩) _))

theorem compound_oneOf {property : Property} {values : List Value} {number : Nat} {group : Group}
    (lowered : translator.oneOf property values number = .ok group) : Compound group := by
  obtain ⟨⟨first, object⟩, bound, further⟩ := bind_ok.1 lowered
  obtain ⟨kept, named⟩ := compound_bind followable bound
  cases object with
  | var name =>
    cases further
    exact kept.append (.column (List.forall_mem_singleton.1 named) (names_values values))
  | _ =>
    obtain ⟨left, made, total⟩ := bind_ok.1 further
    cases total
    exact kept.append (.filter (.oneOf (List.forall_mem_map.2 fun value _ => tidy_value value)
      (tidy_operand named made)))

theorem compound_spatial {relation : SpatialRelation} {property : Property} {geometry : Geometry}
    {number : Nat} {group : Group}
    (lowered : translator.spatial relation property geometry number = .ok group) :
    Compound group := by
  rw [spatial_eq] at lowered
  obtain ⟨⟨first, subject⟩, bound, further⟩ := bind_ok.1 lowered
  have both : BoundCompound (first, subject) := by
    unfold bindGeometry at bound
    split at bound
    · cases bound
      exact ⟨.nil, compound_focus⟩
    · exact compound_bind followable bound
  obtain ⟨related, relatedLowered, total⟩ := bind_ok.1 further
  cases total
  exact both.group.append (SpatialFilter.compound_lower both.term relatedLowered)

/-! ### Temporal relations -/

omit followable in
theorem inherited_tidy : Inherited Tidy Tidy Tidy where
  ofBool value := .literal (.ofBool value)
  compare left right := .compare left right
  and _ operands := .and operands
  or _ operands := .or operands

theorem compound_timeValue {operator : String} {count final : Nat} {value : TimeValue}
    {group : Group} {expression : Sparql.Expression}
    (lowered : translator.timeValue operator count value = .ok (group, expression, final)) :
    Compound group ∧ Tidy expression := by
  cases value with
  | literal literal =>
    cases lowered
    exact ⟨.nil, .literal literal⟩
  | property property =>
    obtain ⟨⟨first, object⟩, bound, further⟩ := bind_ok.1 lowered
    obtain ⟨made, operandMade, total⟩ := bind_ok.1 further
    cases total
    obtain ⟨kept, named⟩ := compound_bind followable bound
    exact ⟨kept, tidy_operand named operandMade⟩

theorem compound_bound {operator : String} {count final : Nat} {value : Option TimeValue}
    {group : Group} {side : Option Sparql.Expression}
    (lowered : translator.bound operator count value = .ok (group, side, final)) :
    Compound group ∧ ∀ expression ∈ side, Tidy expression := by
  cases value with
  | none =>
    cases lowered
    exact ⟨.nil, nofun⟩
  | some bounded =>
    obtain ⟨⟨first, expression, next⟩, valueLowered, total⟩ := bind_ok.1 lowered
    cases total
    obtain ⟨kept, made⟩ := compound_timeValue followable valueLowered
    exact ⟨kept, fun _ member => Option.some.inj member ▸ made⟩

theorem compound_period {operator : String} {count final : Nat} {operand : TemporalOperand}
    {group : Group} {period : Period}
    (lowered : translator.period operator count operand = .ok (group, period, final)) :
    Compound group ∧ period.All Tidy := by
  cases operand with
  | instant value =>
    obtain ⟨⟨first, expression, next⟩, valueLowered, total⟩ := bind_ok.1 lowered
    cases total
    obtain ⟨kept, made⟩ := compound_timeValue followable valueLowered
    exact ⟨kept, fun _ member => Option.some.inj member ▸ made,
      fun _ member => Option.some.inj member ▸ made⟩
  | interval start finish =>
    obtain ⟨⟨first, opening, middle⟩, startLowered, further⟩ := bind_ok.1 lowered
    obtain ⟨⟨second, closing, next⟩, finishLowered, total⟩ := bind_ok.1 further
    cases total
    obtain ⟨firstKept, opens⟩ := compound_bound followable startLowered
    obtain ⟨secondKept, closes⟩ := compound_bound followable finishLowered
    exact ⟨firstKept.append secondKept, opens, closes⟩

theorem compound_temporal {relation : TemporalRelation} {left right : TemporalOperand}
    {count final : Nat} {group : Group}
    (lowered : translator.temporal relation left right count = .ok (group, final)) :
    Compound group := by
  obtain ⟨-, -, further⟩ := bind_ok.1 lowered
  obtain ⟨⟨first, before, middle⟩, leftLowered, further⟩ := bind_ok.1 further
  obtain ⟨⟨second, after, next⟩, rightLowered, total⟩ := bind_ok.1 further
  cases total
  obtain ⟨firstKept, opens⟩ := compound_period followable leftLowered
  obtain ⟨secondKept, closes⟩ := compound_period followable rightLowered
  exact (firstKept.append secondKept).append
    (.filter (relation.holds_filter inherited_tidy opens closes))

/-! ### Filters -/

theorem compound_function {name : String} {arguments : List Json} {number : Nat} {group : Group}
    (lowered : translator.function name arguments number = .ok group) : Compound group := by
  unfold function at lowered
  split at lowered
  · cases lowered
  · rename_i function found
    rw [Registry.function?, followable.functions] at found
    split at lowered
    · exact Registry.standard_isCompound function (List.mem_of_find?_eq_some found) lowered
    · cases lowered

theorem compound_leaf {condition : Leaf} {count final : Nat} {group : Group}
    (lowered : translator.leaf count condition = .ok (group, final)) : Compound group := by
  cases condition with
  | temporal relation left right => exact compound_temporal followable lowered
  | compare comparison property value =>
    obtain ⟨single, singleLowered, total⟩ := bind_ok.1 lowered
    cases total
    exact compound_compare followable singleLowered
  | like property pattern =>
    obtain ⟨single, singleLowered, total⟩ := bind_ok.1 lowered
    cases total
    exact compound_like followable singleLowered
  | oneOf property values =>
    obtain ⟨single, singleLowered, total⟩ := bind_ok.1 lowered
    cases total
    exact compound_oneOf followable singleLowered
  | spatial relation property geometry =>
    obtain ⟨single, singleLowered, total⟩ := bind_ok.1 lowered
    cases total
    exact compound_spatial followable singleLowered
  | function name arguments =>
    obtain ⟨single, singleLowered, total⟩ := bind_ok.1 lowered
    cases total
    exact compound_function followable singleLowered

end Followable

mutual

/-- A filter keeps to the rules. -/
theorem compound_lowered {translator : Translator} (followable : translator.Followable)
    (filter : Filter.Expression) {count final : Nat} {group : Group}
    (lowered : translator.lower count filter = .ok (group, final)) : Compound group := by
  match filter with
  | .leaf condition => exact compound_leaf followable lowered
  | .all operands => exact compound_lowerAll followable operands lowered
  | .any operands =>
    obtain ⟨⟨branches, next⟩, operandsLowered, total⟩ := bind_ok.1 lowered
    cases total
    have kept := compound_lowerEach followable operands operandsLowered
    exact .union (fun branch member => (kept branch member).settled.wellScoped [])
      fun branch member => (kept branch member).named
  | .not operand =>
    obtain ⟨⟨inner, next⟩, operandLowered, total⟩ := bind_ok.1 lowered
    cases total
    exact .filter (.notExists (compound_lowered followable operand operandLowered))

theorem compound_lowerAll {translator : Translator} (followable : translator.Followable)
    (operands : List Filter.Expression) {count final : Nat} {group : Group}
    (lowered : translator.lowerAll count operands = .ok (group, final)) : Compound group := by
  match operands with
  | [] =>
    cases lowered
    exact .nil
  | operand :: rest =>
    obtain ⟨⟨first, middle⟩, firstLowered, further⟩ := bind_ok.1 lowered
    obtain ⟨⟨others, next⟩, othersLowered, total⟩ := bind_ok.1 further
    cases total
    exact (compound_lowered followable operand firstLowered).append
      (compound_lowerAll followable rest othersLowered)

theorem compound_lowerEach {translator : Translator} (followable : translator.Followable)
    (operands : List Filter.Expression) {count final : Nat} {branches : List Group}
    (lowered : translator.lowerEach count operands = .ok (branches, final)) :
    ∀ branch ∈ branches, Compound branch := by
  match operands with
  | [] =>
    cases lowered
    exact fun _ member => absurd member List.not_mem_nil
  | operand :: rest =>
    obtain ⟨⟨first, middle⟩, firstLowered, further⟩ := bind_ok.1 lowered
    obtain ⟨⟨others, next⟩, othersLowered, total⟩ := bind_ok.1 further
    cases total
    exact List.forall_mem_cons.2 ⟨compound_lowered followable operand firstLowered,
      compound_lowerEach followable rest othersLowered⟩

end

theorem compound_translate {translator : Translator} (followable : translator.Followable)
    {filter : Filter.Expression} {group : Group}
    (translated : translator.translate filter = .ok group) : Compound group := by
  obtain ⟨⟨lowered, final⟩, succeeds, total⟩ := bind_ok.1 translated
  cases total
  exact compound_lowered followable filter succeeds

end Translator

end ShapeQuery.Filter
