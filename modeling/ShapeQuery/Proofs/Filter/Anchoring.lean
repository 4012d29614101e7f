/-
This file tells which filters bind the focus. A condition does so if it looks at a property that is
not optional, a conjunction if one of its operands does, and a disjunction if each of them does. A
negation never binds anything.
-/
import ShapeQuery.Proofs.Filter.Renumbering
import ShapeQuery.Proofs.Shape.Anchoring

namespace ShapeQuery.Filter

open Sparql (Term Group groupBinds groupBinds_append groupBinds_single groupBinds_ofTriples)
open Success (bind_ok)

/-! ### Anchored filters -/

/-- Whether the patterns of a function bind their focus. -/
def FilterFunction.Anchors (function : FilterFunction) : Prop :=
  ∀ {arguments suffix group}, function.lower Translator.focus arguments suffix = .ok group →
    groupBinds Shape.focusNode group

/-- Whether a property is no optional queryable. -/
def Translator.Requires (translator : Translator) (property : Property) : Prop :=
  ∀ shape ∈ translator.shape? property, shape.minCount ≠ some 0

/-- Whether a value is that of a required property. -/
def TimeValue.Anchors (translator : Translator) : TimeValue → Prop
  | .property wanted => translator.Requires wanted
  | .literal _ => False

/-- Whether a side of an operand is the value of a required property. -/
def TemporalOperand.Anchors (translator : Translator) : TemporalOperand → Prop
  | .instant value => value.Anchors translator
  | .interval start finish => ∃ value, (start = some value ∨ finish = some value) ∧
      value.Anchors translator

/-- Whether a condition looks at something that the focus must have. -/
def Leaf.Anchors (translator : Translator) : Leaf → Prop
  | .compare _ property _ => translator.Requires property
  | .like property _ => translator.Requires property
  | .oneOf property _ => translator.Requires property
  | .spatial _ property _ =>
    Translator.isOwnGeometry property = true ∨ translator.Requires property
  | .temporal _ left right => left.Anchors translator ∨ right.Anchors translator
  | .function name _ => ∀ function ∈ translator.functions.function? name, function.Anchors

mutual

/-- Whether a filter looks at something that the focus must have. -/
def Expression.Anchors (translator : Translator) : Expression → Prop
  | .leaf condition => condition.Anchors translator
  | .all operands => someAnchors translator operands
  | .any operands => allAnchor translator operands
  | .not _ => False

/-- Whether one of some filters looks at something that the focus must have. -/
def someAnchors (translator : Translator) : List Expression → Prop
  | [] => False
  | operand :: rest => operand.Anchors translator ∨ someAnchors translator rest

/-- Whether each of some filters looks at something that the focus must have. -/
def allAnchor (translator : Translator) : List Expression → Prop
  | [] => True
  | operand :: rest => operand.Anchors translator ∧ allAnchor translator rest

end

/-! ### Functions -/

theorem names_focus : Shape.focusNode ∈ Translator.focus.names :=
  List.mem_singleton.2 rfl

/-- A group that starts with a triple of the focus binds the focus. -/
theorem binds_of_subject {verb : Sparql.Verb} {object : Term} {rest : Group} :
    groupBinds Shape.focusNode (.ofTriple Translator.focus verb object :: rest) :=
  .inl (List.mem_append_left _ (List.mem_append_left _ names_focus))

theorem Registry.standard_anchors : ∀ function ∈ Registry.standard.functions, function.Anchors := by
  refine List.forall_mem_cons.2 ⟨?_, List.forall_mem_cons.2 ⟨?_, List.forall_mem_cons.2 ⟨?_,
    List.forall_mem_cons.2 ⟨?_, List.forall_mem_cons.2 ⟨?_, List.forall_mem_singleton.2 ?_⟩⟩⟩⟩⟩
  · intro arguments suffix group lowered
    obtain ⟨_, -, lowered⟩ := bind_ok.1 lowered
    obtain ⟨_, -, lowered⟩ := bind_ok.1 lowered
    obtain ⟨_, -, lowered⟩ := bind_ok.1 lowered
    obtain ⟨_, -, lowered⟩ := bind_ok.1 lowered
    cases lowered
    exact binds_of_subject
  · intro arguments suffix group lowered
    obtain ⟨_, -, lowered⟩ := bind_ok.1 lowered
    obtain ⟨_, -, lowered⟩ := bind_ok.1 lowered
    obtain ⟨_, -, lowered⟩ := bind_ok.1 lowered
    obtain ⟨_, -, lowered⟩ := bind_ok.1 lowered
    obtain ⟨_, -, lowered⟩ := bind_ok.1 lowered
    cases lowered
    exact binds_of_subject
  all_goals
    intro arguments suffix group lowered
    obtain ⟨_, -, lowered⟩ := bind_ok.1 lowered
    obtain ⟨_, -, lowered⟩ := bind_ok.1 lowered
    cases lowered
    exact binds_of_subject

/-- A use of a standard function looks at something that the focus must have. -/
theorem Leaf.anchors_function {translator : Translator}
    (standard : translator.functions = .standard) (name : String) (arguments : List Json) :
    (Leaf.function name arguments).Anchors translator := by
  intro function found
  rw [standard] at found
  exact Registry.standard_anchors function (List.mem_of_find?_eq_some found)

/-! ### Spatial relations -/

theorem SpatialFilter.binds_geometryTriples {filter : SpatialFilter}
    (subject : filter.subject = Translator.focus) :
    groupBinds Shape.focusNode (Group.ofTriples filter.geometryTriples) := by
  refine groupBinds_ofTriples.2 ⟨_, List.mem_cons_self, ?_⟩
  rw [subject]
  exact List.mem_append_left _ (List.mem_append_left _ names_focus)

/-- A relation to the geometry of the focus binds the focus, in any dialect. -/
theorem SpatialFilter.binds_lower {filter : SpatialFilter} {target : SpatialTarget} {group : Group}
    (subject : filter.subject = Translator.focus) (lowered : filter.lower target = .ok group) :
    groupBinds Shape.focusNode group := by
  have geometry := binds_geometryTriples subject
  cases target with
  | geoSparql =>
    cases lowered
    exact groupBinds_append.2 (.inl geometry)
  | graphDb =>
    cases lowered
    exact groupBinds_append.2 (.inl geometry)
  | qlever =>
    unfold lower at lowered
    dsimp only at lowered
    split at lowered
    · cases lowered
      -- The service has the triples of the geometry in a group of their own.
      have service : groupBinds Shape.focusNode
          [.group (Group.ofTriples filter.geometryTriples)] := groupBinds_single.2 geometry
      exact groupBinds_single.2 (.inr (.inl ⟨trivial, groupBinds_append.2 (.inr service)⟩))
    · cases lowered

namespace Translator

variable {translator : Translator}

/-! ### Properties -/

theorem binds_bindShape {operator : String} {property : Property} {shape : PropertyShape}
    {number : Nat} {bound : Group × Term} (regular : shape.Regular)
    (required : shape.minCount ≠ some 0)
    (made : bindShape operator property shape number = .ok bound) :
    groupBinds Shape.focusNode bound.1 := by
  unfold bindShape at made
  split at made
  · cases made
  · dsimp only at made
    split at made
    · cases made
    · rename_i fragment next lowered
      split at made
      · rename_i terminal ended
        cases made
        by_cases values : shape.maxCount = some 0
        · exact Lowering.binds_property names_focus regular (.inl values) lowered
        · refine Lowering.binds_property names_focus regular (.inr ⟨required, ?_⟩) lowered
          -- A shape without paths has no terminal.
          by_contra nothing
          push Not at nothing
          obtain ⟨paths, choices, filters⟩ := nothing
          rw [Lowering.property_of_values _ _ values, if_neg required] at lowered
          obtain ⟨rfl, -⟩ := Prod.mk.inj (Except.ok.inj lowered)
          rw [Lowering.together_terminal, Lowering.chosen, Lowering.required, paths, choices,
            Lowering.longestFirst, List.mergeSort_nil] at ended
          cases ended
      · cases made

theorem binds_bind (regular : ∀ entry ∈ translator.queryables, entry.2.Regular)
    {operator : String} {property : Property} {number : Nat} {bound : Group × Term}
    (required : translator.Requires property)
    (made : translator.bind operator property number = .ok bound) :
    groupBinds Shape.focusNode bound.1 := by
  unfold bind at made
  split at made
  · rename_i shape found
    obtain ⟨entry, member, rfl⟩ := mem_of_shape? found
    exact binds_bindShape (regular entry member) (required _ found) made
  · unfold bindPredicate at made
    split at made
    · cases made
    · cases made
      split
      · exact groupBinds_single.2 (List.mem_append_right _ names_focus)
      · exact binds_of_subject

/-! ### Conditions -/

section Conditions

variable (regular : ∀ entry ∈ translator.queryables, entry.2.Regular)

include regular

theorem binds_compare {comparison : Sparql.Comparison} {property : Property} {value : Value}
    {number : Nat} {group : Group} (required : translator.Requires property)
    (lowered : translator.compare comparison property value number = .ok group) :
    groupBinds Shape.focusNode group := by
  obtain ⟨⟨first, object⟩, bound, further⟩ := bind_ok.1 lowered
  have binds := binds_bind regular required bound
  dsimp only at further
  split at further
  · cases further
    exact groupBinds_append.2 (.inl binds)
  · obtain ⟨left, -, total⟩ := bind_ok.1 further
    cases total
    exact groupBinds_append.2 (.inl binds)

theorem binds_like {property : Property} {pattern : String} {number : Nat} {group : Group}
    (required : translator.Requires property)
    (lowered : translator.like property pattern number = .ok group) :
    groupBinds Shape.focusNode group := by
  obtain ⟨⟨first, object⟩, bound, further⟩ := bind_ok.1 lowered
  obtain ⟨left, -, total⟩ := bind_ok.1 further
  cases total
  exact groupBinds_append.2 (.inl (binds_bind regular required bound))

theorem binds_oneOf {property : Property} {values : List Value} {number : Nat} {group : Group}
    (required : translator.Requires property)
    (lowered : translator.oneOf property values number = .ok group) :
    groupBinds Shape.focusNode group := by
  obtain ⟨⟨first, object⟩, bound, further⟩ := bind_ok.1 lowered
  have binds := binds_bind regular required bound
  dsimp only at further
  split at further
  · cases further
    exact groupBinds_append.2 (.inl binds)
  · obtain ⟨left, -, total⟩ := bind_ok.1 further
    cases total
    exact groupBinds_append.2 (.inl binds)

theorem binds_spatial {relation : SpatialRelation} {property : Property} {geometry : Geometry}
    {number : Nat} {group : Group}
    (anchors : isOwnGeometry property = true ∨ translator.Requires property)
    (lowered : translator.spatial relation property geometry number = .ok group) :
    groupBinds Shape.focusNode group := by
  rw [spatial_eq] at lowered
  obtain ⟨⟨first, subject⟩, bound, further⟩ := bind_ok.1 lowered
  obtain ⟨related, relatedLowered, total⟩ := bind_ok.1 further
  cases total
  unfold bindGeometry at bound
  split at bound
  · cases bound
    exact groupBinds_append.2 (.inr (SpatialFilter.binds_lower rfl relatedLowered))
  · rename_i other
    exact groupBinds_append.2 (.inl (binds_bind regular (anchors.resolve_left other) bound))

/-! ### Temporal relations -/

theorem binds_timeValue {operator : String} {count final : Nat} {value : TimeValue}
    {group : Group} {expression : Sparql.Expression} (anchors : value.Anchors translator)
    (lowered : translator.timeValue operator count value = .ok (group, expression, final)) :
    groupBinds Shape.focusNode group := by
  cases value with
  | literal literal => exact absurd anchors id
  | property property =>
    obtain ⟨⟨first, object⟩, bound, further⟩ := bind_ok.1 lowered
    obtain ⟨made, -, total⟩ := bind_ok.1 further
    cases total
    exact binds_bind regular anchors bound

theorem binds_bound {operator : String} {count final : Nat} {value : TimeValue}
    {group : Group} {side : Option Sparql.Expression} (anchors : value.Anchors translator)
    (lowered : translator.bound operator count (some value) = .ok (group, side, final)) :
    groupBinds Shape.focusNode group := by
  obtain ⟨⟨first, expression, next⟩, valueLowered, total⟩ := bind_ok.1 lowered
  cases total
  exact binds_timeValue regular anchors valueLowered

theorem binds_period {operator : String} {count final : Nat} {operand : TemporalOperand}
    {group : Group} {period : Period} (anchors : operand.Anchors translator)
    (lowered : translator.period operator count operand = .ok (group, period, final)) :
    groupBinds Shape.focusNode group := by
  cases operand with
  | instant value =>
    obtain ⟨⟨first, expression, next⟩, valueLowered, total⟩ := bind_ok.1 lowered
    cases total
    exact binds_timeValue regular anchors valueLowered
  | interval start finish =>
    obtain ⟨⟨first, opening, middle⟩, startLowered, further⟩ := bind_ok.1 lowered
    obtain ⟨⟨second, closing, next⟩, finishLowered, total⟩ := bind_ok.1 further
    cases total
    obtain ⟨value, rfl | rfl, anchored⟩ := anchors
    · exact groupBinds_append.2 (.inl (binds_bound regular anchored startLowered))
    · exact groupBinds_append.2 (.inr (binds_bound regular anchored finishLowered))

theorem binds_temporal {relation : TemporalRelation} {left right : TemporalOperand}
    {count final : Nat} {group : Group}
    (anchors : left.Anchors translator ∨ right.Anchors translator)
    (lowered : translator.temporal relation left right count = .ok (group, final)) :
    groupBinds Shape.focusNode group := by
  obtain ⟨-, -, further⟩ := bind_ok.1 lowered
  obtain ⟨⟨first, before, middle⟩, leftLowered, further⟩ := bind_ok.1 further
  obtain ⟨⟨second, after, next⟩, rightLowered, total⟩ := bind_ok.1 further
  cases total
  refine groupBinds_append.2 (.inl (groupBinds_append.2 ?_))
  exact anchors.imp (fun anchored => binds_period regular anchored leftLowered)
    fun anchored => binds_period regular anchored rightLowered

/-! ### Filters -/

omit regular in
theorem binds_function {name : String} {arguments : List Json} {number : Nat} {group : Group}
    (anchors : ∀ function ∈ translator.functions.function? name, function.Anchors)
    (lowered : translator.function name arguments number = .ok group) :
    groupBinds Shape.focusNode group := by
  unfold function at lowered
  split at lowered
  · cases lowered
  · rename_i function found
    split at lowered
    · exact anchors function found lowered
    · cases lowered

theorem binds_leaf {condition : Leaf} {count final : Nat} {group : Group}
    (anchors : condition.Anchors translator)
    (lowered : translator.leaf count condition = .ok (group, final)) :
    groupBinds Shape.focusNode group := by
  cases condition with
  | temporal relation left right => exact binds_temporal regular anchors lowered
  | compare comparison property value =>
    obtain ⟨single, singleLowered, total⟩ := bind_ok.1 lowered
    cases total
    exact binds_compare regular anchors singleLowered
  | like property pattern =>
    obtain ⟨single, singleLowered, total⟩ := bind_ok.1 lowered
    cases total
    exact binds_like regular anchors singleLowered
  | oneOf property values =>
    obtain ⟨single, singleLowered, total⟩ := bind_ok.1 lowered
    cases total
    exact binds_oneOf regular anchors singleLowered
  | spatial relation property geometry =>
    obtain ⟨single, singleLowered, total⟩ := bind_ok.1 lowered
    cases total
    exact binds_spatial regular anchors singleLowered
  | function name arguments =>
    obtain ⟨single, singleLowered, total⟩ := bind_ok.1 lowered
    cases total
    exact binds_function anchors singleLowered

end Conditions

mutual

/-- A filter that looks at something that the focus must have binds the focus. -/
theorem binds_lowered {translator : Translator}
    (regular : ∀ entry ∈ translator.queryables, entry.2.Regular) (filter : Filter.Expression)
    (anchors : filter.Anchors translator) {count final : Nat} {group : Group}
    (lowered : translator.lower count filter = .ok (group, final)) :
    groupBinds Shape.focusNode group := by
  match filter with
  | .leaf condition => exact binds_leaf regular anchors lowered
  | .all operands => exact binds_lowerAll regular operands anchors lowered
  | .any operands =>
    obtain ⟨⟨branches, next⟩, operandsLowered, total⟩ := bind_ok.1 lowered
    cases total
    exact groupBinds_single.2 (Sparql.branchesBind_iff.2
      (binds_lowerEach regular operands anchors operandsLowered))
  | .not operand => exact absurd anchors id

theorem binds_lowerAll {translator : Translator}
    (regular : ∀ entry ∈ translator.queryables, entry.2.Regular)
    (operands : List Filter.Expression) (anchors : someAnchors translator operands)
    {count final : Nat} {group : Group}
    (lowered : translator.lowerAll count operands = .ok (group, final)) :
    groupBinds Shape.focusNode group := by
  match operands with
  | [] => exact absurd anchors id
  | operand :: rest =>
    obtain ⟨⟨first, middle⟩, firstLowered, further⟩ := bind_ok.1 lowered
    obtain ⟨⟨others, next⟩, othersLowered, total⟩ := bind_ok.1 further
    cases total
    rcases anchors with here | later
    · exact groupBinds_append.2 (.inl (binds_lowered regular operand here firstLowered))
    · exact groupBinds_append.2 (.inr (binds_lowerAll regular rest later othersLowered))

theorem binds_lowerEach {translator : Translator}
    (regular : ∀ entry ∈ translator.queryables, entry.2.Regular)
    (operands : List Filter.Expression) (anchors : allAnchor translator operands)
    {count final : Nat} {branches : List Group}
    (lowered : translator.lowerEach count operands = .ok (branches, final)) :
    ∀ branch ∈ branches, groupBinds Shape.focusNode branch := by
  match operands with
  | [] =>
    cases lowered
    exact fun _ member => absurd member List.not_mem_nil
  | operand :: rest =>
    obtain ⟨⟨first, middle⟩, firstLowered, further⟩ := bind_ok.1 lowered
    obtain ⟨⟨others, next⟩, othersLowered, total⟩ := bind_ok.1 further
    cases total
    exact List.forall_mem_cons.2 ⟨binds_lowered regular operand anchors.1 firstLowered,
      binds_lowerEach regular rest anchors.2 othersLowered⟩

end

theorem binds_translate (regular : ∀ entry ∈ translator.queryables, entry.2.Regular)
    {filter : Filter.Expression} (anchors : filter.Anchors translator) {group : Group}
    (translated : translator.translate filter = .ok group) :
    groupBinds Shape.focusNode group := by
  obtain ⟨⟨lowered, final⟩, succeeds, total⟩ := bind_ok.1 translated
  cases total
  exact binds_lowered regular filter anchors succeeds

end Translator

end ShapeQuery.Filter
