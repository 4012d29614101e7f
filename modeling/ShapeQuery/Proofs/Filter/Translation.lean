/-
This file proves that the groups of filters are harmless. The conditions that are read from a
document have harmless values, and whatever the document says about properties and operators is
looked up, so that a filter is lowered to harmless groups at every depth.
-/
import ShapeQuery.Proofs.Filter.Harmless
import ShapeQuery.Proofs.Filter.Renumbering

namespace ShapeQuery.Filter

open Sparql (Term Variable Group Element Expression)
open Sparql.Lexer (Lexicon IsReference Fills fills_numbered withoutDigits withoutDigits_append
  withoutDigits_numeral stemFrames filterFrames listingFrames labelFrames)
open Success (bind_ok map_ok)

variable {lexicon : Lexicon}

/-! ### Documents -/

/-- A filter with harmless conditions. -/
def Expression.Harmless (lexicon : Lexicon) : Filter.Expression → Prop
  | .leaf condition => condition.Harmless lexicon
  | .all operands => ∀ operand, operand ∈ operands → Expression.Harmless lexicon operand
  | .any operands => ∀ operand, operand ∈ operands → Expression.Harmless lexicon operand
  | .not operand => Expression.Harmless lexicon operand

namespace Leaf

theorem harmless_compareOfJson {operator : String} {comparison : Sparql.Comparison}
    {arguments : List Json} {condition : Leaf}
    (read : compareOfJson operator comparison arguments = .ok condition) :
    condition.Harmless lexicon := by
  obtain ⟨⟨first, second⟩, -, further⟩ := bind_ok.1 read
  obtain ⟨property, -, further⟩ := bind_ok.1 further
  obtain ⟨value, valueRead, made⟩ := bind_ok.1 further
  cases made
  exact Value.harmless_ofJson valueRead

theorem harmless_spatialOfJson {operator : String} {relation : SpatialRelation}
    {arguments : List Json} {condition : Leaf}
    (read : spatialOfJson operator relation arguments = .ok condition) :
    condition.Harmless lexicon := by
  obtain ⟨⟨first, second⟩, -, further⟩ := bind_ok.1 read
  obtain ⟨property, -, further⟩ := bind_ok.1 further
  obtain ⟨geometry, -, made⟩ := bind_ok.1 further
  cases made
  exact trivial

theorem harmless_temporalOfJson {operator : String} {relation : TemporalRelation}
    {arguments : List Json} {condition : Leaf}
    (read : temporalOfJson operator relation arguments = .ok condition) :
    condition.Harmless lexicon := by
  obtain ⟨⟨first, second⟩, -, further⟩ := bind_ok.1 read
  obtain ⟨left, leftRead, further⟩ := bind_ok.1 further
  obtain ⟨right, rightRead, made⟩ := bind_ok.1 further
  cases made
  exact ⟨TemporalOperand.harmless_ofJson leftRead, TemporalOperand.harmless_ofJson rightRead⟩

theorem harmless_likeOfJson {arguments : List Json} {condition : Leaf}
    (read : likeOfJson arguments = .ok condition) : condition.Harmless lexicon := by
  obtain ⟨⟨first, second⟩, -, further⟩ := bind_ok.1 read
  cases second with
  | string pattern =>
    obtain ⟨property, -, made⟩ := bind_ok.1 further
    cases made
    exact trivial
  | _ => cases further

theorem harmless_oneOfOfJson {arguments : List Json} {condition : Leaf}
    (read : oneOfOfJson arguments = .ok condition) : condition.Harmless lexicon := by
  unfold oneOfOfJson at read
  split at read
  · obtain ⟨values, valuesRead, further⟩ := bind_ok.1 read
    obtain ⟨property, -, made⟩ := bind_ok.1 further
    cases made
    exact Value.harmless_listOfJson valuesRead
  · obtain ⟨values, valuesRead, further⟩ := bind_ok.1 read
    obtain ⟨property, -, made⟩ := bind_ok.1 further
    cases made
    intro value member
    obtain ⟨source, -, valueRead⟩ := Success.source_of_mem_mapM valuesRead value member
    exact Value.harmless_ofJson valueRead
  · cases read

/-- A condition that is read from a document has harmless values. -/
theorem harmless_ofJson {operator : String} {arguments : List Json} {condition : Leaf}
    (read : Leaf.ofJson operator arguments = .ok condition) : condition.Harmless lexicon := by
  unfold Leaf.ofJson at read
  split at read
  · exact harmless_compareOfJson read
  · split at read
    · exact harmless_spatialOfJson read
    · split at read
      · exact harmless_temporalOfJson read
      · split at read
        · exact harmless_likeOfJson read
        · split at read
          · exact harmless_oneOfOfJson read
          · cases read
            exact trivial

end Leaf

/-- A filter that is read from a document is harmless. -/
theorem Expression.harmless_ofJson {document : Json} {filter : Filter.Expression}
    (read : Expression.ofJson document = .ok filter) :
    Expression.Harmless lexicon filter := by
  rw [Expression.ofJson] at read
  split at read
  · cases read
  · rename_i node _
    split at read
    · split at read
      · cases read
      · obtain ⟨operands, operandsRead, made⟩ := bind_ok.1 read
        have members : ∀ operand ∈ operands, Expression.Harmless lexicon operand := by
          intro operand member
          obtain ⟨source, -, operandRead⟩ :=
            Success.source_of_mem_mapM operandsRead operand member
          have := node.smaller source.1 source.2
          exact Expression.harmless_ofJson operandRead
        rw [← Success.pure_ok.1 made]
        split
        · rw [Expression.Harmless]
          exact members
        · rw [Expression.Harmless]
          exact members
    · split at read
      · split at read
        · rename_i operand smaller _ _
          have := smaller operand List.mem_cons_self
          obtain ⟨inner, innerRead, rfl⟩ := map_ok.1 read
          rw [Expression.Harmless]
          exact Expression.harmless_ofJson innerRead
        · cases read
      · obtain ⟨condition, conditionRead, rfl⟩ := map_ok.1 read
        rw [Expression.Harmless]
        exact Leaf.harmless_ofJson conditionRead
termination_by sizeOf document

/-! ### Properties -/

theorem harmless_expression? {term : Term} {expression : Sparql.Expression}
    (harmless : term.Harmless lexicon) (found : term.expression? = some expression) :
    expression.Harmless lexicon := by
  cases term with
  | blank label => cases found
  | _ =>
    cases found
    exact harmless

namespace Translator

/-- A translator whose functions make harmless groups and whose queryables are valid. -/
structure Harmless (lexicon : Lexicon) (translator : Translator) : Prop where
  functions : ∀ function ∈ translator.functions.functions, function.IsHarmless lexicon
  queryables : ∀ entry ∈ translator.queryables, entry.2.IsValid lexicon

/-- The group of a property, and the term that stands for its values. -/
structure BoundHarmless (lexicon : Lexicon) (bound : Group × Term) : Prop where
  group : Group.Harmless lexicon bound.1
  term : bound.2.Harmless lexicon

theorem harmless_operand {operator : String} {term : Term} {expression : Sparql.Expression}
    (harmless : term.Harmless lexicon) (made : operand operator term = .ok expression) :
    expression.Harmless lexicon := by
  unfold operand at made
  split at made
  · rename_i found
    cases made
    exact harmless_expression? harmless found
  · cases made

section Own

variable (own : Lexicon.own.Within lexicon)

include own

theorem known_stem (number : Nat) : (Shape.Scope.start (stem number)).Known lexicon := by
  refine Shape.Scope.known_of_frame own (by decide : "var_" ∈ stemFrames) ?_
  show withoutDigits ("var_" ++ toString number) = _
  rw [withoutDigits_append, withoutDigits_numeral]
  decide

theorem harmless_bindShape {operator : String} {property : Property} {shape : PropertyShape}
    {number : Nat} {bound : Group × Term} (valid : shape.IsValid lexicon)
    (made : bindShape operator property shape number = .ok bound) :
    BoundHarmless lexicon bound := by
  unfold bindShape at made
  split at made
  · cases made
  · dsimp only at made
    split at made
    · cases made
    · rename_i fragment next lowered
      have plain : Lowering.Plain ⟨.profile, focus, []⟩ := ⟨by decide, rfl⟩
      obtain ⟨harmless, -⟩ := Lowering.harmless_property plain (harmless_focus own)
        (known_stem own number) valid lowered
      split at made
      · rename_i terminal ended
        cases made
        exact ⟨harmless.pattern, harmless.terminal terminal ended⟩
      · cases made

theorem harmless_bindPredicate {property : Property} {number : Nat} {bound : Group × Term}
    (made : bindPredicate property number = .ok bound) : BoundHarmless lexicon bound := by
  have value : (Term.var ⟨stem number⟩).Harmless lexicon :=
    (Term.harmless_var _).2 (names_numbered own (by decide +kernel : "var_" ∈ _) number)
  unfold bindPredicate at made
  split at made
  · cases made
  · rename_i predicate accepted
    cases made
    have reference := isReference_of_ofText? accepted
    refine ⟨(Group.harmless_cons _ _).2 ⟨?_, Group.harmless_nil⟩, value⟩
    split
    · exact harmless_predicateTriple value reference (harmless_focus own)
    · exact harmless_predicateTriple (harmless_focus own) reference value

variable {translator : Translator} (harmless : translator.Harmless lexicon)

include harmless

theorem harmless_bind {operator : String} {property : Property} {number : Nat}
    {bound : Group × Term} (made : translator.bind operator property number = .ok bound) :
    BoundHarmless lexicon bound := by
  unfold bind at made
  split at made
  · rename_i shape found
    obtain ⟨entry, member, rfl⟩ := mem_of_shape? found
    exact harmless_bindShape own (harmless.queryables entry member) made
  · exact harmless_bindPredicate own made

/-! ### Conditions -/

theorem harmless_compare {comparison : Sparql.Comparison} {property : Property} {value : Value}
    {number : Nat} {group : Group} (clean : value.Harmless lexicon)
    (lowered : translator.compare comparison property value number = .ok group) :
    Group.Harmless lexicon group := by
  obtain ⟨⟨first, object⟩, bound, further⟩ := bind_ok.1 lowered
  obtain ⟨firstHarmless, objectHarmless⟩ := harmless_bind own harmless bound
  have condition {left : Sparql.Expression} (safe : left.Harmless lexicon) :
      (Element.filter (.compare left comparison value.expression)).Harmless lexicon :=
    (Element.harmless_filter _).2 ((Expression.harmless_compare _ _ _).2 ⟨safe, clean.expression⟩)
  cases object with
  | var name =>
    rw [compare_of_bind bound] at lowered
    cases lowered
    refine (Group.harmless_append _ _).2 ⟨firstHarmless, List.forall_mem_singleton.2 ?_⟩
    unfold compared
    split
    · exact (Element.harmless_column _ _).2 ⟨(Term.harmless_var _).1 objectHarmless,
        List.forall_mem_singleton.2 clean.term⟩
    · exact condition objectHarmless
  | _ =>
    obtain ⟨left, made, total⟩ := bind_ok.1 further
    cases total
    exact (Group.harmless_append _ _).2 ⟨firstHarmless,
      List.forall_mem_singleton.2 (condition (harmless_operand objectHarmless made))⟩

theorem harmless_like {property : Property} {pattern : String} {number : Nat} {group : Group}
    (lowered : translator.like property pattern number = .ok group) :
    Group.Harmless lexicon group := by
  obtain ⟨⟨first, object⟩, bound, further⟩ := bind_ok.1 lowered
  obtain ⟨firstHarmless, objectHarmless⟩ := harmless_bind own harmless bound
  obtain ⟨left, made, total⟩ := bind_ok.1 further
  cases total
  have text (value : String) : (Sparql.Expression.literal (.plain value)).Harmless lexicon :=
    Expression.harmless_literal trivial
  have arguments : ∀ argument ∈ [left, .literal (.plain (Text.wildcardRegex pattern)),
      .literal (.plain "i")], argument.Harmless lexicon :=
    List.forall_mem_cons.2 ⟨harmless_operand objectHarmless made, List.forall_mem_cons.2
      ⟨text _, List.forall_mem_singleton.2 (text _)⟩⟩
  have regex : Sparql.Function.regex.lexeme.IsHarmless lexicon :=
    (by decide : "REGEX" ∈ Sparql.Lexer.keywords)
  have condition : (Sparql.Expression.call .regex _).Harmless lexicon :=
    (Expression.harmless_call _ _).2 ⟨regex, arguments⟩
  exact (Group.harmless_append _ _).2 ⟨firstHarmless,
    List.forall_mem_singleton.2 ((Element.harmless_filter _).2 condition)⟩

theorem harmless_oneOf {property : Property} {values : List Value} {number : Nat} {group : Group}
    (clean : ∀ value ∈ values, value.Harmless lexicon)
    (lowered : translator.oneOf property values number = .ok group) :
    Group.Harmless lexicon group := by
  obtain ⟨⟨first, object⟩, bound, further⟩ := bind_ok.1 lowered
  obtain ⟨firstHarmless, objectHarmless⟩ := harmless_bind own harmless bound
  cases object with
  | var name =>
    cases further
    have column : (Element.column name (values.map Value.term)).Harmless lexicon :=
      (Element.harmless_column _ _).2 ⟨(Term.harmless_var _).1 objectHarmless,
        List.forall_mem_map.2 fun value member => (clean value member).term⟩
    exact (Group.harmless_append _ _).2 ⟨firstHarmless, List.forall_mem_singleton.2 column⟩
  | _ =>
    obtain ⟨left, made, total⟩ := bind_ok.1 further
    cases total
    have condition : (Sparql.Expression.oneOf left (values.map Value.expression)).Harmless
        lexicon :=
      (Expression.harmless_oneOf _ _).2 ⟨harmless_operand objectHarmless made,
        List.forall_mem_map.2 fun value member => (clean value member).expression⟩
    exact (Group.harmless_append _ _).2 ⟨firstHarmless,
      List.forall_mem_singleton.2 ((Element.harmless_filter _).2 condition)⟩

omit harmless in
theorem harmless_spatialFilter {relation : SpatialRelation} {geometry : Geometry}
    {system : String} {subject : Term} (clean : subject.Harmless lexicon) (number : Nat) :
    SpatialFilter.Harmless lexicon ⟨relation, geometry, system, subject, toString number⟩ where
  subject := clean
  node := names_numbered own (by decide +kernel : "geom_bnode" ++ "_" ∈ _) number
  text := names_numbered own (by decide +kernel : "geom_var" ++ "_" ∈ _) number
  input := names_numbered own (by decide +kernel : "wkt_input" ++ "_" ∈ _) number
  label := own.labels _ (fills_numbered (by decide +kernel : Fills labelFrames "config_") number)

theorem harmless_spatial {relation : SpatialRelation} {property : Property} {geometry : Geometry}
    {number : Nat} {group : Group}
    (lowered : translator.spatial relation property geometry number = .ok group) :
    Group.Harmless lexicon group := by
  rw [spatial_eq] at lowered
  obtain ⟨⟨first, subject⟩, bound, further⟩ := bind_ok.1 lowered
  have both : BoundHarmless lexicon (first, subject) := by
    unfold bindGeometry at bound
    split at bound
    · cases bound
      exact ⟨Group.harmless_nil, harmless_focus own⟩
    · exact harmless_bind own harmless bound
  obtain ⟨related, relatedLowered, total⟩ := bind_ok.1 further
  cases total
  exact (Group.harmless_append _ _).2
    ⟨both.group, (harmless_spatialFilter own both.term number).lower relatedLowered⟩

/-! ### Temporal relations -/

theorem harmless_timeValue {operator : String} {count final : Nat} {value : TimeValue}
    {group : Group} {expression : Sparql.Expression} (clean : value.Harmless lexicon)
    (lowered : translator.timeValue operator count value = .ok (group, expression, final)) :
    Group.Harmless lexicon group ∧ expression.Harmless lexicon := by
  cases value with
  | literal literal =>
    cases lowered
    exact ⟨Group.harmless_nil, Expression.harmless_literal clean⟩
  | property property =>
    obtain ⟨⟨first, object⟩, bound, further⟩ := bind_ok.1 lowered
    obtain ⟨firstHarmless, objectHarmless⟩ := harmless_bind own harmless bound
    obtain ⟨made, operandMade, total⟩ := bind_ok.1 further
    cases total
    exact ⟨firstHarmless, harmless_operand objectHarmless operandMade⟩

theorem harmless_bound {operator : String} {count final : Nat} {value : Option TimeValue}
    {group : Group} {side : Option Sparql.Expression}
    (clean : ∀ bounded ∈ value, bounded.Harmless lexicon)
    (lowered : translator.bound operator count value = .ok (group, side, final)) :
    Group.Harmless lexicon group ∧ ∀ expression ∈ side, expression.Harmless lexicon := by
  cases value with
  | none =>
    cases lowered
    exact ⟨Group.harmless_nil, nofun⟩
  | some bounded =>
    obtain ⟨⟨first, expression, next⟩, valueLowered, total⟩ := bind_ok.1 lowered
    cases total
    obtain ⟨firstHarmless, made⟩ :=
      harmless_timeValue own harmless (clean bounded rfl) valueLowered
    exact ⟨firstHarmless, fun _ member => Option.some.inj member ▸ made⟩

theorem harmless_period {operator : String} {count final : Nat} {operand : TemporalOperand}
    {group : Group} {period : Period} (clean : operand.Harmless lexicon)
    (lowered : translator.period operator count operand = .ok (group, period, final)) :
    Group.Harmless lexicon group ∧ period.All (Sparql.Expression.Harmless lexicon) := by
  cases operand with
  | instant value =>
    obtain ⟨⟨first, expression, next⟩, valueLowered, total⟩ := bind_ok.1 lowered
    cases total
    obtain ⟨firstHarmless, made⟩ := harmless_timeValue own harmless clean valueLowered
    exact ⟨firstHarmless, fun _ member => Option.some.inj member ▸ made,
      fun _ member => Option.some.inj member ▸ made⟩
  | interval start finish =>
    obtain ⟨⟨first, opening, middle⟩, startLowered, further⟩ := bind_ok.1 lowered
    obtain ⟨⟨second, closing, next⟩, finishLowered, total⟩ := bind_ok.1 further
    cases total
    obtain ⟨firstHarmless, opens⟩ := harmless_bound own harmless clean.1 startLowered
    obtain ⟨secondHarmless, closes⟩ := harmless_bound own harmless clean.2 finishLowered
    exact ⟨(Group.harmless_append _ _).2 ⟨firstHarmless, secondHarmless⟩, opens, closes⟩

theorem harmless_temporal {relation : TemporalRelation} {left right : TemporalOperand}
    {count final : Nat} {group : Group} (leftClean : left.Harmless lexicon)
    (rightClean : right.Harmless lexicon)
    (lowered : translator.temporal relation left right count = .ok (group, final)) :
    Group.Harmless lexicon group := by
  obtain ⟨-, -, further⟩ := bind_ok.1 lowered
  obtain ⟨⟨first, before, middle⟩, leftLowered, further⟩ := bind_ok.1 further
  obtain ⟨⟨second, after, next⟩, rightLowered, total⟩ := bind_ok.1 further
  cases total
  obtain ⟨firstHarmless, beforeHarmless⟩ := harmless_period own harmless leftClean leftLowered
  obtain ⟨secondHarmless, afterHarmless⟩ := harmless_period own harmless rightClean rightLowered
  have condition := relation.holds_filter inherited_harmless beforeHarmless afterHarmless
  exact (Group.harmless_append _ _).2 ⟨(Group.harmless_append _ _).2
    ⟨firstHarmless, secondHarmless⟩,
    List.forall_mem_singleton.2 ((Element.harmless_filter _).2 condition)⟩

/-! ### Filters -/

omit own in
theorem harmless_function {name : String} {arguments : List Json} {number : Nat} {group : Group}
    (lowered : translator.function name arguments number = .ok group) :
    Group.Harmless lexicon group := by
  unfold function at lowered
  split at lowered
  · cases lowered
  · rename_i function found
    split at lowered
    · exact harmless.functions function (List.mem_of_find?_eq_some found) lowered
    · cases lowered

theorem harmless_leaf {condition : Leaf} {count final : Nat} {group : Group}
    (clean : condition.Harmless lexicon)
    (lowered : translator.leaf count condition = .ok (group, final)) :
    Group.Harmless lexicon group := by
  cases condition with
  | temporal relation left right =>
    exact harmless_temporal own harmless clean.1 clean.2 lowered
  | compare comparison property value =>
    obtain ⟨single, singleLowered, total⟩ := bind_ok.1 lowered
    cases total
    exact harmless_compare own harmless clean singleLowered
  | like property pattern =>
    obtain ⟨single, singleLowered, total⟩ := bind_ok.1 lowered
    cases total
    exact harmless_like own harmless singleLowered
  | oneOf property values =>
    obtain ⟨single, singleLowered, total⟩ := bind_ok.1 lowered
    cases total
    exact harmless_oneOf own harmless clean singleLowered
  | spatial relation property geometry =>
    obtain ⟨single, singleLowered, total⟩ := bind_ok.1 lowered
    cases total
    exact harmless_spatial own harmless singleLowered
  | function name arguments =>
    obtain ⟨single, singleLowered, total⟩ := bind_ok.1 lowered
    cases total
    exact harmless_function harmless singleLowered

end Own

mutual

/-- A harmless filter is lowered to a harmless group. -/
theorem harmless_lower (own : Lexicon.own.Within lexicon) {translator : Translator}
    (harmless : translator.Harmless lexicon) (filter : Filter.Expression) {count final : Nat}
    {group : Group} (clean : Expression.Harmless lexicon filter)
    (lowered : translator.lower count filter = .ok (group, final)) :
    Group.Harmless lexicon group := by
  rw [Expression.Harmless.eq_def] at clean
  match filter with
  | .leaf condition => exact harmless_leaf own harmless clean lowered
  | .all operands => exact harmless_lowerAll own harmless operands clean lowered
  | .any operands =>
    obtain ⟨⟨branches, next⟩, operandsLowered, total⟩ := bind_ok.1 lowered
    cases total
    exact List.forall_mem_singleton.2
      ((Element.harmless_union _).2 (harmless_lowerEach own harmless operands clean operandsLowered))
  | .not operand =>
    obtain ⟨⟨inner, next⟩, operandLowered, total⟩ := bind_ok.1 lowered
    cases total
    have forbidden := harmless_lower own harmless operand clean operandLowered
    exact List.forall_mem_singleton.2
      ((Element.harmless_filter _).2 ((Expression.harmless_notExists _).2 forbidden))

theorem harmless_lowerAll (own : Lexicon.own.Within lexicon) {translator : Translator}
    (harmless : translator.Harmless lexicon) (operands : List Filter.Expression)
    {count final : Nat} {group : Group}
    (clean : ∀ operand ∈ operands, Expression.Harmless lexicon operand)
    (lowered : translator.lowerAll count operands = .ok (group, final)) :
    Group.Harmless lexicon group := by
  match operands with
  | [] =>
    cases lowered
    exact Group.harmless_nil
  | operand :: rest =>
    rw [List.forall_mem_cons] at clean
    obtain ⟨⟨first, middle⟩, firstLowered, further⟩ := bind_ok.1 lowered
    obtain ⟨⟨others, next⟩, othersLowered, total⟩ := bind_ok.1 further
    cases total
    exact (Group.harmless_append _ _).2 ⟨harmless_lower own harmless operand clean.1 firstLowered,
      harmless_lowerAll own harmless rest clean.2 othersLowered⟩

theorem harmless_lowerEach (own : Lexicon.own.Within lexicon) {translator : Translator}
    (harmless : translator.Harmless lexicon) (operands : List Filter.Expression)
    {count final : Nat} {branches : List Group}
    (clean : ∀ operand ∈ operands, Expression.Harmless lexicon operand)
    (lowered : translator.lowerEach count operands = .ok (branches, final)) :
    ∀ branch ∈ branches, Group.Harmless lexicon branch := by
  match operands with
  | [] =>
    cases lowered
    exact fun _ member => absurd member List.not_mem_nil
  | operand :: rest =>
    rw [List.forall_mem_cons] at clean
    obtain ⟨⟨first, middle⟩, firstLowered, further⟩ := bind_ok.1 lowered
    obtain ⟨⟨others, next⟩, othersLowered, total⟩ := bind_ok.1 further
    cases total
    exact List.forall_mem_cons.2 ⟨harmless_lower own harmless operand clean.1 firstLowered,
      harmless_lowerEach own harmless rest clean.2 othersLowered⟩

end

/-- Whatever a document says, its filter selects with a harmless group. -/
theorem harmless_translate (own : Lexicon.own.Within lexicon) {translator : Translator}
    (harmless : translator.Harmless lexicon) {document : Json} {filter : Filter.Expression}
    {group : Group}
    (read : Expression.ofJson document = .ok filter)
    (translated : translator.translate filter = .ok group) : Group.Harmless lexicon group := by
  obtain ⟨⟨lowered, final⟩, succeeds, total⟩ := bind_ok.1 translated
  cases total
  exact harmless_lower own harmless filter (Expression.harmless_ofJson read) succeeds

end Translator

end ShapeQuery.Filter
