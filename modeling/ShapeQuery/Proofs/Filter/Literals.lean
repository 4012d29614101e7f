/-
This file tells which literals the groups of filters have. The values of a filter are no geometries;
the geometry of a spatial relation stands in the group together with the coordinate reference system
of the translator, at whatever depth of the filter the relation is.
-/
import ShapeQuery.Proofs.Filter.Renumbering
import ShapeQuery.Proofs.Filter.Temporal
import ShapeQuery.Proofs.Shape.Literals

namespace ShapeQuery

/-- Whether a literal is the text of a geometry. -/
def Literal.IsGeometry : Literal → Prop
  | .typed _ datatype => datatype = Vocabulary.geoWktLiteral
  | _ => False

namespace Filter

open Sparql (Term Variable Group Element Path)

/-- The literal of a geometry, with a coordinate reference system before it. -/
def Geometry.literal (geometry : Geometry) (system : String) : Literal :=
  .typed ("<" ++ system ++ "> " ++ geometry.wellKnownText) Vocabulary.geoWktLiteral

variable {kind : Literal → Prop}

/-! ### Relations -/

theorem SpatialFilter.quotedIn_lower (filter : SpatialFilter)
    (subject : filter.subject.QuotedIn kind) (literal : kind (filter.geometry.literal filter.system))
    {target : SpatialTarget} (other : target ≠ .qlever) :
    YieldsOnly (Group.QuotedIn kind) (filter.lower target) := by
  have triples : Group.QuotedIn kind (Group.ofTriples filter.geometryTriples) :=
    Group.quotedIn_ofTriples (List.forall_mem_cons.2 ⟨by simp [subject],
      List.forall_mem_singleton.2 (by simp)⟩)
  have written : kind filter.literal := literal
  unfold lower
  split
  · exact .ok (by simp [triples, written])
  · exact .ok (by simp [triples, written])
  · exact absurd rfl other

theorem inherited_quotedIn (plain : ∀ literal : Literal, ¬ literal.IsGeometry → kind literal) :
    Inherited (Sparql.Expression.QuotedIn kind) (Sparql.Expression.QuotedIn kind)
      (Sparql.Expression.QuotedIn kind) where
  ofBool value := (Sparql.Expression.quotedIn_literal _).2
    (plain (.ofBool value) (by simp only [Literal.ofBool, Literal.IsGeometry]; decide))
  compare left right := (Sparql.Expression.quotedIn_compare _ _ _).2 ⟨left, right⟩
  and _ operands := (Sparql.Expression.quotedIn_and _).2 operands
  or _ operands := (Sparql.Expression.quotedIn_or _).2 operands

/-! ### Values -/

section Values

variable (plain : ∀ literal : Literal, ¬ literal.IsGeometry → kind literal)

include plain

theorem quotedIn_timeLiteral {α : Type} (read : String → Except Calendar.Fault α) {datatype : Iri}
    (other : datatype ≠ Vocabulary.geoWktLiteral) (value : Json) :
    YieldsOnly kind (timeLiteral read datatype value) := by
  unfold timeLiteral
  split
  · split
    · exact .ok (plain _ other)
    · exact .error _
  · exact .error _

theorem quotedIn_dateLiteral (value : Json) : YieldsOnly kind (dateLiteral value) :=
  quotedIn_timeLiteral plain _ (by decide) value

theorem quotedIn_timestampLiteral (value : Json) : YieldsOnly kind (timestampLiteral value) :=
  quotedIn_timeLiteral plain _ (by decide) value

theorem quotedIn_numberLiteral (number : JsonNumber) : kind (numberLiteral number) := by
  have integer : Vocabulary.xsdInteger ≠ Vocabulary.geoWktLiteral := by decide
  have decimal : Vocabulary.xsdDecimal ≠ Vocabulary.geoWktLiteral := by decide
  unfold numberLiteral
  split
  · split
    · exact plain _ integer
    · exact plain _ decimal
  · exact plain _ decimal

theorem Value.quotedIn_ofJson (operator : String) (document : Json) :
    YieldsOnly (fun value => value.term.QuotedIn kind) (ofJson operator document) := by
  have boolean : Vocabulary.xsdBoolean ≠ Vocabulary.geoWktLiteral := by decide
  have quoted {literal : Literal} (good : kind literal) :
      (Value.literal literal).term.QuotedIn kind := (Term.quotedIn_literal literal).2 good
  unfold ofJson
  split
  · split
    · split
      · exact .ok (Term.quotedIn_iri _)
      · exact .error _
    · exact .ok (quoted (plain _ not_false))
  · exact .ok (quoted (plain _ boolean))
  · exact .ok (quoted (quotedIn_numberLiteral plain _))
  · split
    · exact .map ((quotedIn_dateLiteral plain _).mono fun _ => quoted)
    · exact .map ((quotedIn_timestampLiteral plain _).mono fun _ => quoted)
    · exact .error _
  · exact .error _

theorem Value.quotedIn_listOfJson (operator : String) (document : Json) :
    YieldsOnly (fun values => ∀ value ∈ values, value.term.QuotedIn kind)
      (listOfJson operator document) := by
  unfold listOfJson
  split
  · exact .error _
  · exact .mapM fun _ _ => quotedIn_ofJson plain operator _
  · exact .map ((quotedIn_ofJson plain operator _).mono fun value quoted =>
      (@List.forall_mem_singleton _ (fun value : Value => value.term.QuotedIn kind) value).2
        quoted)

/-! ### Functions -/

omit plain in
/-- Whether the literals of the groups of a function are of one kind. -/
def FilterFunction.QuotedIn (kind : Literal → Prop) (function : FilterFunction) : Prop :=
  ∀ arguments suffix,
    YieldsOnly (Group.QuotedIn kind) (function.lower Translator.focus arguments suffix)

omit plain in
/-- Whether the literals of the groups of all functions are of one kind. -/
def Registry.QuotedIn (kind : Literal → Prop) (registry : Registry) : Prop :=
  ∀ function ∈ registry.functions, function.QuotedIn kind

theorem quotedIn_valuesElement (operator : String) (target : Variable) (document : Json) :
    YieldsOnly (Element.QuotedIn kind) (valuesElement operator target document) :=
  (Value.quotedIn_listOfJson plain operator document).bind fun _ quoted =>
    .ok ((Element.quotedIn_column _ _).2 (List.forall_mem_map.2 quoted))

omit plain in
theorem quotedIn_locations (subject : Variable) (paths : List Path) (object : Variable) :
    (locations subject paths object).QuotedIn kind := by
  simp [locations]

omit plain in
theorem quotedIn_observationOf (observation : Variable) :
    (observationOf Translator.focus observation).QuotedIn kind := by
  simp [observationOf, Translator.focus]

omit plain in
theorem yields_predicateArgument (operator : String) (value : Json) :
    YieldsOnly (fun _ => True) (predicateArgument operator value) :=
  fun _ _ => trivial

theorem Registry.standard_quotedIn : Registry.standard.QuotedIn kind := by
  have focus : Translator.focus.QuotedIn kind := Term.quotedIn_var _
  have tables (operator : String) (first second : Variable) (left right : Json)
      {group : Element → Element → Group} (quoted : ∀ one other, one.QuotedIn kind →
        other.QuotedIn kind → Group.QuotedIn kind (group one other)) :
      YieldsOnly (Group.QuotedIn kind) (do
        let one ← valuesElement operator first left
        let other ← valuesElement operator second right
        return group one other) :=
    (quotedIn_valuesElement plain _ _ _).bind fun one oneQuoted =>
      (quotedIn_valuesElement plain _ _ _).bind fun other otherQuoted =>
        .ok (quoted one other oneQuoted otherQuoted)
  unfold Registry.QuotedIn Registry.standard
  simp only [List.forall_mem_cons]
  refine ⟨?_, ?_, ?_, ?_, ?_, ?_, List.forall_mem_nil _⟩
  · exact fun _ _ => (yields_predicateArgument _ _).bind fun _ _ =>
      (Value.quotedIn_ofJson plain _ _).bind fun _ first => (yields_predicateArgument _ _).bind
        fun _ _ => (Value.quotedIn_ofJson plain _ _).bind fun _ second =>
          .ok (by simp [quotedIn_observationOf, first, second])
  · exact fun _ _ => (yields_predicateArgument _ _).bind fun _ _ =>
      (Value.quotedIn_ofJson plain _ _).bind fun _ first => (yields_predicateArgument _ _).bind
        fun _ _ => (yields_predicateArgument _ _).bind fun _ _ =>
          (Value.quotedIn_ofJson plain _ _).bind fun _ second =>
            .ok (by simp [quotedIn_observationOf, first, second])
  · exact fun _ _ => tables _ _ _ _ _ fun _ _ first second => by
      simp [quotedIn_observationOf, quotedIn_locations, first, second]
  all_goals
    exact fun _ _ => tables _ _ _ _ _ fun _ _ first second => by
      simp [quotedIn_locations, first, second, focus]

end Values

/-! ### Documents -/

mutual

/-- The conditions of a filter. -/
def Expression.conditions : Expression → List Leaf
  | .leaf condition => [condition]
  | .all operands => listConditions operands
  | .any operands => listConditions operands
  | .not operand => operand.conditions

/-- The conditions of some filters. -/
def listConditions : List Expression → List Leaf
  | [] => []
  | operand :: rest => operand.conditions ++ listConditions rest

end

theorem forall_listConditions {holds : Leaf → Prop} {operands : List Expression} :
    (∀ condition ∈ listConditions operands, holds condition) ↔
      ∀ operand ∈ operands, ∀ condition ∈ operand.conditions, holds condition := by
  induction operands with
  | nil => simp [listConditions]
  | cons operand rest inductionHypothesis =>
    rw [listConditions, List.forall_mem_append, inductionHypothesis, List.forall_mem_cons]

/-- The geometry of a condition. -/
def Leaf.geometry? : Leaf → Option Geometry
  | .spatial _ _ geometry => some geometry
  | _ => none

/-- The geometries of a filter. -/
def Expression.geometries (filter : Expression) : List Geometry :=
  filter.conditions.filterMap Leaf.geometry?

/-- Whether a bounded side is a literal of one kind, unless it is a property. -/
def TimeValue.QuotedIn (kind : Literal → Prop) : TimeValue → Prop
  | .literal value => kind value
  | .property _ => True

/-- Whether the literals of an operand are of one kind. -/
def TemporalOperand.QuotedIn (kind : Literal → Prop) : TemporalOperand → Prop
  | .instant value => value.QuotedIn kind
  | .interval start finish =>
    (∀ bound ∈ start, bound.QuotedIn kind) ∧ ∀ bound ∈ finish, bound.QuotedIn kind

/-- Whether the literals that a condition compares with are of one kind. -/
def Leaf.QuotedIn (kind : Literal → Prop) : Leaf → Prop
  | .compare _ _ value => value.term.QuotedIn kind
  | .oneOf _ values => ∀ value ∈ values, value.term.QuotedIn kind
  | .temporal _ left right => left.QuotedIn kind ∧ right.QuotedIn kind
  | _ => True

/-- What holds of the conditions that can be read holds of all conditions of a filter. -/
theorem Expression.yields_ofJson {holds : Leaf → Prop}
    (conditions : ∀ operator arguments, YieldsOnly holds (Leaf.ofJson operator arguments))
    (document : Json) :
    YieldsOnly (fun filter => ∀ condition ∈ filter.conditions, holds condition)
      (ofJson document) := by
  rw [Expression.ofJson]
  split
  · exact .error _
  · rename_i node _
    split
    · split
      · exact .error _
      · refine @YieldsOnly.bind _ _ _ (fun operands => ∀ operand ∈ operands,
          ∀ condition ∈ operand.conditions, holds condition) _ _ _ (.mapM fun argument _ => ?_)
          fun operands each => .ok ?_
        · have := node.smaller argument.1 argument.2
          exact Expression.yields_ofJson conditions argument.1
        · split
          · exact forall_listConditions.2 each
          · exact forall_listConditions.2 each
    · split
      · split
        · rename_i operand smaller _ _
          have := smaller operand List.mem_cons_self
          exact .map (Expression.yields_ofJson conditions operand)
        · exact .error _
      · exact .map ((conditions _ _).mono fun _ => List.forall_mem_singleton.2)
termination_by sizeOf document

section Documents

variable (plain : ∀ literal : Literal, ¬ literal.IsGeometry → kind literal)

include plain

theorem TimeValue.quotedIn_ofJson (operator : String) (document : Json) :
    YieldsOnly (QuotedIn kind) (ofJson operator document) := by
  unfold ofJson
  split
  · refine .map ?_
    unfold dateOrTimeLiteral
    split
    · exact quotedIn_timestampLiteral plain _
    · exact quotedIn_dateLiteral plain _
  · split
    · exact .map fun _ _ => trivial
    · split
      · exact .map (quotedIn_dateLiteral plain _)
      · exact .map (quotedIn_timestampLiteral plain _)
      · exact .error _
  · exact .error _

theorem quotedIn_boundOfJson (operator : String) (document : Json) :
    YieldsOnly (fun bound => ∀ value ∈ bound, value.QuotedIn kind)
      (boundOfJson operator document) := by
  unfold boundOfJson
  split
  · exact .ok fun _ member => by cases member
  · refine .map ((TimeValue.quotedIn_ofJson plain operator document).mono
      fun value quoted other same => ?_)
    exact Option.some.inj same ▸ quoted

theorem TemporalOperand.quotedIn_ofJson (operator : String) (document : Json) :
    YieldsOnly (QuotedIn kind) (ofJson operator document) := by
  unfold ofJson
  split
  · split
    · exact (quotedIn_boundOfJson plain _ _).bind fun _ first =>
        (quotedIn_boundOfJson plain _ _).bind fun _ second => .ok ⟨first, second⟩
    · exact .error _
  · split
    · exact .error _
    · exact (TimeValue.quotedIn_ofJson plain _ _).bind fun _ quoted => .ok quoted

theorem Leaf.quotedIn_ofJson (operator : String) (arguments : List Json) :
    YieldsOnly (QuotedIn kind) (ofJson operator arguments) := by
  have anything {ε α : Type} (computed : Except ε α) : YieldsOnly (fun _ => True) computed :=
    fun _ _ => trivial
  unfold ofJson
  split
  · exact (anything _).bind fun _ _ => (anything _).bind fun _ _ =>
      (Value.quotedIn_ofJson plain _ _).bind fun _ quoted => .ok quoted
  · split
    · exact (anything _).bind fun _ _ => (anything _).bind fun _ _ => (anything _).bind
        fun _ _ => .ok trivial
    · split
      · exact (anything _).bind fun _ _ => (TemporalOperand.quotedIn_ofJson plain _ _).bind
          fun _ left => (TemporalOperand.quotedIn_ofJson plain _ _).bind
            fun _ right => .ok ⟨left, right⟩
      · split
        · refine (anything _).bind fun both _ => ?_
          obtain ⟨property, pattern⟩ := both
          dsimp only
          split
          · exact (anything _).bind fun _ _ => .ok trivial
          · exact .error _
        · split
          · unfold oneOfOfJson
            split
            · exact (Value.quotedIn_listOfJson plain _ _).bind fun _ quoted =>
                (anything _).bind fun _ _ => .ok quoted
            · exact (YieldsOnly.mapM fun _ _ => Value.quotedIn_ofJson plain _ _).bind
                fun _ quoted => (anything _).bind fun _ _ => .ok quoted
            · exact .error _
          · exact .ok trivial

end Documents

/-! ### Lowering -/

namespace Translator

variable {translator : Translator}

/-- What a translator has to keep to for the literals of its groups to be of one kind. -/
structure QuotedIn (kind : Literal → Prop) (translator : Translator) : Prop where
  plain : ∀ literal : Literal, ¬ literal.IsGeometry → kind literal
  functions : translator.functions.QuotedIn kind
  queryables : ∀ entry ∈ translator.queryables, ∀ value ∈ entry.2.values, value.QuotedIn kind
  target : translator.target ≠ .qlever

theorem quotedIn_operand (operator : String) {term : Term} (quoted : term.QuotedIn kind) :
    YieldsOnly (Sparql.Expression.QuotedIn kind) (operand operator term) := by
  unfold operand
  split
  · rename_i found
    exact .ok (quoted.expression? found)
  · exact .error _

theorem quotedIn_bindShape (operator : String) (property : Property) {shape : PropertyShape}
    (values : ∀ value ∈ shape.values, value.QuotedIn kind) (number : Nat) :
    YieldsOnly (fun bound => bound.1.QuotedIn kind ∧ bound.2.QuotedIn kind)
      (bindShape operator property shape number) := by
  unfold bindShape
  split
  · exact .error _
  · dsimp only
    split
    · exact .error _
    · rename_i lowered
      have plain : Lowering.Plain ⟨.profile, focus, []⟩ := ⟨by decide, rfl⟩
      have quoted := Lowering.quotedIn_property plain (Term.quotedIn_var _) values lowered
      split
      · rename_i terminal ended
        exact .ok ⟨quoted.pattern, quoted.terminal terminal ended⟩
      · exact .error _

theorem quotedIn_bindPredicate (property : Property) (number : Nat) :
    YieldsOnly (fun bound => bound.1.QuotedIn kind ∧ bound.2.QuotedIn kind)
      (bindPredicate property number) := by
  unfold bindPredicate
  split
  · exact .error _
  · refine .ok ⟨?_, Term.quotedIn_var _⟩
    split
    · simp [focus]
    · simp [focus]

section Conditions

variable (quoted : translator.QuotedIn kind)

include quoted

theorem quotedIn_bind (operator : String) (property : Property) (number : Nat) :
    YieldsOnly (fun bound => bound.1.QuotedIn kind ∧ bound.2.QuotedIn kind)
      (translator.bind operator property number) := by
  unfold bind
  split
  · rename_i shape found
    obtain ⟨entry, member, rfl⟩ := mem_of_shape? found
    exact quotedIn_bindShape operator property (quoted.queryables entry member) number
  · exact quotedIn_bindPredicate property number

theorem quotedIn_compare (comparison : Sparql.Comparison) (property : Property) {value : Value}
    (literal : value.term.QuotedIn kind) (number : Nat) :
    YieldsOnly (Group.QuotedIn kind) (translator.compare comparison property value number) := by
  have expression : value.expression.QuotedIn kind := by
    cases value with
    | _ => exact literal
  refine (quotedIn_bind quoted _ _ _).bind fun bound both => ?_
  obtain ⟨group, object⟩ := bound
  dsimp only at both ⊢
  split
  · exact .ok (by simp [both.1, literal])
  · exact (quotedIn_operand _ both.2).bind fun left leftQuoted =>
      .ok (by simp [both.1, leftQuoted, expression])

theorem quotedIn_like (property : Property) (pattern : String) (number : Nat) :
    YieldsOnly (Group.QuotedIn kind) (translator.like property pattern number) := by
  have text (content : String) : kind (.plain content) := quoted.plain _ not_false
  exact (quotedIn_bind quoted _ _ _).bind fun bound both =>
    (quotedIn_operand _ both.2).bind fun left leftQuoted =>
      .ok (by simp [both.1, leftQuoted, text])

theorem quotedIn_oneOf (property : Property) {values : List Value}
    (literals : ∀ value ∈ values, value.term.QuotedIn kind) (number : Nat) :
    YieldsOnly (Group.QuotedIn kind) (translator.oneOf property values number) := by
  have expressions : ∀ value ∈ values, value.expression.QuotedIn kind := by
    intro value member
    have literal := literals value member
    cases value with
    | _ => exact literal
  refine (quotedIn_bind quoted _ _ _).bind fun bound both => ?_
  obtain ⟨group, object⟩ := bound
  dsimp only at both ⊢
  split
  · exact .ok (by simpa [both.1] using literals)
  · exact (quotedIn_operand _ both.2).bind fun left leftQuoted =>
      .ok (by simpa [both.1, leftQuoted] using expressions)

theorem quotedIn_spatial (relation : SpatialRelation) (property : Property) {geometry : Geometry}
    (literal : kind (geometry.literal translator.system)) (number : Nat) :
    YieldsOnly (Group.QuotedIn kind)
      (translator.spatial relation property geometry number) := by
  have bound : YieldsOnly (fun bound => bound.1.QuotedIn kind ∧ bound.2.QuotedIn kind)
      (translator.bindGeometry relation property number) := by
    unfold bindGeometry
    split
    · exact .ok ⟨Group.quotedIn_nil, Term.quotedIn_var _⟩
    · exact quotedIn_bind quoted _ _ _
  rw [spatial_eq]
  refine bound.bind fun made both => ?_
  exact (SpatialFilter.quotedIn_lower ⟨relation, geometry, _, _, _⟩ both.2 literal
    quoted.target).bind fun _ related =>
      .ok ((Group.quotedIn_append _ _).2 ⟨both.1, related⟩)

theorem quotedIn_timeValue (operator : String) (count : Nat) {value : TimeValue}
    (literal : value.QuotedIn kind) :
    YieldsOnly (fun lowered => lowered.1.QuotedIn kind ∧ lowered.2.1.QuotedIn kind)
      (translator.timeValue operator count value) := by
  cases value with
  | literal value => exact .ok ⟨Group.quotedIn_nil, (Sparql.Expression.quotedIn_literal _).2 literal⟩
  | property property =>
    exact (quotedIn_bind quoted _ _ _).bind fun bound both =>
      (quotedIn_operand _ both.2).bind fun _ operand => .ok ⟨both.1, operand⟩

theorem quotedIn_bound (operator : String) (count : Nat) {value : Option TimeValue}
    (literal : ∀ bounded ∈ value, bounded.QuotedIn kind) :
    YieldsOnly (fun lowered => lowered.1.QuotedIn kind ∧
      ∀ expression ∈ lowered.2.1, expression.QuotedIn kind)
      (translator.bound operator count value) := by
  cases value with
  | none => exact .ok ⟨Group.quotedIn_nil, fun _ member => by cases member⟩
  | some bounded =>
    exact (quotedIn_timeValue quoted operator count (literal bounded rfl)).bind fun _ both =>
      .ok ⟨both.1, fun _ same => Option.some.inj same ▸ both.2⟩

theorem quotedIn_period (operator : String) (count : Nat) {operand : TemporalOperand}
    (literals : operand.QuotedIn kind) :
    YieldsOnly (fun lowered => lowered.1.QuotedIn kind ∧
      lowered.2.1.All (Sparql.Expression.QuotedIn kind))
      (translator.period operator count operand) := by
  cases operand with
  | instant value =>
    exact (quotedIn_timeValue quoted operator count literals).bind fun _ both =>
      .ok ⟨both.1, fun _ same => Option.some.inj same ▸ both.2,
        fun _ same => Option.some.inj same ▸ both.2⟩
  | interval start finish =>
    exact (quotedIn_bound quoted operator count literals.1).bind fun _ opening =>
      (quotedIn_bound quoted operator _ literals.2).bind fun _ closing =>
        .ok ⟨(Group.quotedIn_append _ _).2 ⟨opening.1, closing.1⟩, opening.2, closing.2⟩

theorem quotedIn_temporal (relation : TemporalRelation) {left right : TemporalOperand}
    (leftLiterals : left.QuotedIn kind) (rightLiterals : right.QuotedIn kind) (count : Nat) :
    YieldsOnly (fun lowered => lowered.1.QuotedIn kind)
      (translator.temporal relation left right count) := by
  refine @YieldsOnly.bind _ _ _ (fun _ => True) _ _ _ (fun _ _ => trivial) fun _ _ => ?_
  refine (quotedIn_period quoted _ _ leftLiterals).bind fun before beforeQuoted => ?_
  refine (quotedIn_period quoted _ _ rightLiterals).bind fun after afterQuoted => .ok ?_
  have condition := relation.holds_filter (inherited_quotedIn quoted.plain) beforeQuoted.2
    afterQuoted.2
  simpa [beforeQuoted.1, afterQuoted.1] using condition

theorem quotedIn_function (name : String) (arguments : List Json) (number : Nat) :
    YieldsOnly (Group.QuotedIn kind) (translator.function name arguments number) := by
  unfold function
  split
  · exact .error _
  · rename_i found
    split
    · exact quoted.functions _ (List.mem_of_find?_eq_some found) _ _
    · exact .error _

theorem quotedIn_leaf (count : Nat) {condition : Leaf} (literals : condition.QuotedIn kind)
    (geometry : ∀ geometry ∈ condition.geometry?, kind (geometry.literal translator.system)) :
    YieldsOnly (fun lowered => lowered.1.QuotedIn kind) (translator.leaf count condition) := by
  have counted {computed : Except Error Group} (single : YieldsOnly (Group.QuotedIn kind) computed) :
      YieldsOnly (fun lowered => lowered.1.QuotedIn kind) (do return (← computed, count + 1)) :=
    single.bind fun _ good => .ok good
  cases condition with
  | compare comparison property value =>
    exact counted (quotedIn_compare quoted comparison property literals _)
  | like property pattern => exact counted (quotedIn_like quoted property pattern _)
  | oneOf property values => exact counted (quotedIn_oneOf quoted property literals _)
  | spatial relation property place =>
    exact counted (quotedIn_spatial quoted relation property (geometry place rfl) _)
  | temporal relation left right =>
    exact quotedIn_temporal quoted relation literals.1 literals.2 count
  | function name arguments => exact counted (quotedIn_function quoted name arguments _)

end Conditions

/-- Whether a translator finds literals of one kind only in a condition, its geometry included. -/
def Keeps (kind : Literal → Prop) (translator : Translator) (condition : Leaf) : Prop :=
  condition.QuotedIn kind ∧
    ∀ geometry ∈ condition.geometry?, kind (geometry.literal translator.system)

mutual

/-- The literals of a lowered filter are of one kind if those of all its conditions are. -/
theorem quotedIn_lower (quoted : translator.QuotedIn kind) (count : Nat) (filter : Expression)
    (keeps : ∀ condition ∈ filter.conditions, translator.Keeps kind condition) :
    YieldsOnly (fun lowered => lowered.1.QuotedIn kind) (translator.lower count filter) := by
  match filter with
  | .leaf condition =>
    obtain ⟨literals, geometry⟩ := keeps condition List.mem_cons_self
    exact quotedIn_leaf quoted count literals geometry
  | .all operands => exact quotedIn_lowerAll quoted count operands keeps
  | .any operands =>
    exact (quotedIn_lowerEach quoted count operands keeps).bind fun _ branches =>
      .ok (by simpa using branches)
  | .not operand =>
    exact (quotedIn_lower quoted count operand keeps).bind fun _ forbidden =>
      .ok (by simpa using forbidden)

theorem quotedIn_lowerAll (quoted : translator.QuotedIn kind) (count : Nat)
    (operands : List Expression)
    (keeps : ∀ condition ∈ listConditions operands, translator.Keeps kind condition) :
    YieldsOnly (fun lowered => lowered.1.QuotedIn kind) (translator.lowerAll count operands) := by
  match operands with
  | [] => exact .ok Group.quotedIn_nil
  | operand :: rest =>
    rw [listConditions, List.forall_mem_append] at keeps
    exact (quotedIn_lower quoted count operand keeps.1).bind fun first firstQuoted =>
      (quotedIn_lowerAll quoted first.2 rest keeps.2).bind fun _ othersQuoted =>
        .ok ((Group.quotedIn_append _ _).2 ⟨firstQuoted, othersQuoted⟩)

theorem quotedIn_lowerEach (quoted : translator.QuotedIn kind) (count : Nat)
    (operands : List Expression)
    (keeps : ∀ condition ∈ listConditions operands, translator.Keeps kind condition) :
    YieldsOnly (fun lowered => ∀ branch ∈ lowered.1, Group.QuotedIn kind branch)
      (translator.lowerEach count operands) := by
  match operands with
  | [] => exact .ok (List.forall_mem_nil _)
  | operand :: rest =>
    rw [listConditions, List.forall_mem_append] at keeps
    exact (quotedIn_lower quoted count operand keeps.1).bind fun first firstQuoted =>
      (quotedIn_lowerEach quoted first.2 rest keeps.2).bind fun _ othersQuoted =>
        .ok (List.forall_mem_cons.2 ⟨firstQuoted, othersQuoted⟩)

end

/-- The literals of the group of a document are of one kind if those of its geometries are. -/
theorem quotedIn_translate (quoted : translator.QuotedIn kind) {document : Json}
    {filter : Expression} (read : Expression.ofJson document = .ok filter)
    (geometries : ∀ geometry ∈ filter.geometries, kind (geometry.literal translator.system)) :
    YieldsOnly (Group.QuotedIn kind) (translator.translate filter) := by
  have literals := Expression.yields_ofJson (Leaf.quotedIn_ofJson quoted.plain) document filter read
  refine (quotedIn_lower quoted 0 filter fun condition member => ?_).bind fun _ good => .ok good
  exact ⟨literals condition member, fun geometry placed =>
    geometries geometry (List.mem_filterMap.2 ⟨condition, member, placed⟩)⟩

end Translator

end Filter

end ShapeQuery
