/-
This file proves that the number of a condition matters to the names of its unknowns only: lowered
with another number, a condition is the same group with these renamed. It follows that its unknowns
are the focus node and those of its own numbers, and that it gives no values to the focus node.
-/
import ShapeQuery.Proofs.Filter.Numbering
import ShapeQuery.Proofs.Shape.Replacement

namespace ShapeQuery.Filter

open Shape (Slot Scope)
open Sparql (Term Variable Group Replacement Element Substitute)
open Success (bind_ok map_ok)

/-- Whether a replacement keeps the focus node and gives the unknowns of one condition the number
of another one. -/
structure Carries (replacement : Replacement) (number other : Nat) : Prop where
  focus : replacement.substitute Shape.focusNode = .var Shape.focusNode
  substitute : ∀ part : Part, replacement.substitute (part.name number) = .var (part.name other)
  target : ∀ part : Part, replacement.target (part.name number) = part.name other
  label : replacement.label (configuration number) = configuration other

namespace Carries

variable {replacement : Replacement} {number other : Nat}
  (carries : Carries replacement number other)

include carries

theorem term (part : Part) :
    replacement.term (.var (part.name number)) = .var (part.name other) := by
  rw [Replacement.term, carries.substitute]
  rfl

theorem focusTerm : replacement.term Translator.focus = Translator.focus := by
  show (replacement.substitute Shape.focusNode).term = _
  rw [carries.focus]
  rfl

theorem expression (part : Part) :
    replacement.expression (.var (part.name number)) = .var (part.name other) := by
  rw [Replacement.expression, carries.substitute]
  rfl

/-- The lowering of queryables is moved to the other number. -/
theorem moves : Lowering.Moves replacement ⟨.profile, Translator.focus, []⟩
    ⟨.profile, Translator.focus, []⟩ (Translator.stem number) (Translator.stem other) where
  kind := rfl
  plainBefore := ⟨nofun, rfl⟩
  plainAfter := ⟨nofun, rfl⟩
  focus := carries.focusTerm
  substitute slot := carries.substitute (.slot slot)
  target slot := carries.target (.slot slot)

end Carries

theorem Value.ground (value : Value) : value.term.unknown? = none := by
  cases value <;> rfl

theorem Value.ground_map (values : List Value) :
    ∀ term ∈ values.map Value.term, term.unknown? = none := by
  intro term member
  obtain ⟨value, -, rfl⟩ := List.mem_map.1 member
  exact value.ground

theorem Value.term_eq (replacement : Replacement) (value : Value) :
    replacement.term value.term = value.term :=
  Fragment.term_of_ground replacement value.ground

theorem Value.expression_eq (replacement : Replacement) (value : Value) :
    replacement.expression value.expression = value.expression := by
  cases value <;> rfl

namespace Translator

variable {translator : Translator} {replacement : Replacement} {number other : Nat}

/-! ### Properties -/

theorem mem_of_shape? {property : Property} {shape : PropertyShape}
    (found : translator.shape? property = some shape) :
    ∃ entry ∈ translator.queryables, entry.2 = shape := by
  unfold shape? at found
  obtain ⟨before, after, split, -⟩ := List.lookup_eq_some_iff.1 found
  refine ⟨(property.name, shape), ?_, rfl⟩
  rw [split]
  exact List.mem_append_right _ List.mem_cons_self

/-- Whether the shapes of all queryables have regular parts. -/
def Regular (translator : Translator) : Prop :=
  ∀ entry ∈ translator.queryables, entry.2.Regular

theorem bindShape_renumbered (carries : Carries replacement number other) {operator : String}
    {property : Property} {shape : PropertyShape} (regular : shape.Regular) {group : Group}
    {term : Term} (bound : bindShape operator property shape number = .ok (group, term)) :
    bindShape operator property shape other =
        .ok (replacement.group group, replacement.term term) ∧
      ∃ part : Part, term = .var (part.name number) := by
  have moved := carries.moves.property
    (show (Scope.start (stem number)).stem = stem number from rfl) regular
  unfold bindShape at bound ⊢
  split at bound
  · cases bound
  · rename_i direct
    rw [if_neg direct]
    simp only at bound ⊢
    split at bound
    · cases bound
    · rename_i fragment next lowered
      rw [lowered] at moved
      split at bound
      · rename_i terminal ended
        cases bound
        obtain ⟨slot, rfl⟩ := Lowering.property_terminal _ _ carries.moves.plainBefore regular
          lowered ended
        refine ⟨?_, .slot slot, rfl⟩
        have lowered : Lowering.property ⟨.profile, focus, []⟩ (Scope.start (stem other)) shape =
          .ok (fragment.replaced replacement, next.moved (stem other)) := moved
        have terminal : (fragment.replaced replacement).terminal =
            some (replacement.term (.var (slot.toVariable (stem number)))) :=
          congrArg (Option.map replacement.term) ended
        rw [lowered]
        simp only [terminal]
        rfl
      · cases bound

theorem bindPredicate_renumbered (carries : Carries replacement number other)
    {property : Property} {group : Group} {term : Term}
    (bound : bindPredicate property number = .ok (group, term)) :
    bindPredicate property other = .ok (replacement.group group, replacement.term term) ∧
      ∃ part : Part, term = .var (part.name number) := by
  unfold bindPredicate at bound ⊢
  split at bound
  · cases bound
  · rename_i predicate _
    cases bound
    refine ⟨?_, .own, rfl⟩
    have own := carries.term .own
    simp only [Part.name_own] at own
    simp only [own]
    split
    · simp only [Replacement.group, Replacement.element, Replacement.triple,
        Sparql.Element.ofTriple, own, carries.focusTerm]
      rfl
    · simp only [Replacement.group, Replacement.element, Replacement.triple,
        Sparql.Element.ofTriple, own, carries.focusTerm]
      rfl

/-- The values of a property are bound alike under another number, to a variable. -/
theorem bind_renumbered (regular : translator.Regular)
    (carries : Carries replacement number other) {operator : String} {property : Property}
    {group : Group} {term : Term}
    (bound : translator.bind operator property number = .ok (group, term)) :
    translator.bind operator property other =
        .ok (replacement.group group, replacement.term term) ∧
      ∃ part : Part, term = .var (part.name number) := by
  unfold bind at bound ⊢
  split at bound
  · rename_i shape found
    obtain ⟨entry, member, rfl⟩ := mem_of_shape? found
    exact bindShape_renumbered carries (regular entry member) bound
  · exact bindPredicate_renumbered carries bound

/-! ### Conditions on values -/

/-- How a variable is compared with a value. -/
def compared (translator : Translator) (comparison : Sparql.Comparison) (property : Property)
    (value : Value) (name : Variable) : Element :=
  if comparison = .equal ∧ (translator.shape? property).isNone then .column name [value.term]
  else .filter (.compare (.var name) comparison value.expression)

theorem compare_of_bind {comparison : Sparql.Comparison} {property : Property} {value : Value}
    {bindings : Group} {name : Variable}
    (bound : translator.bind comparison.symbol property number = .ok (bindings, .var name)) :
    translator.compare comparison property value number =
      .ok (bindings ++ [translator.compared comparison property value name]) := by
  unfold compare compared
  rw [bound]
  cases comparison <;> cases translator.shape? property <;> rfl

theorem compared_renumbered (carries : Carries replacement number other)
    (comparison : Sparql.Comparison) (property : Property) (value : Value) (part : Part) :
    replacement.element
        (translator.compared comparison property value (part.name number)) =
      translator.compared comparison property value (part.name other) := by
  unfold compared
  split
  · rw [Fragment.replaced_column replacement _ (by simpa using value.ground), carries.target]
  · rw [Replacement.element, Replacement.expression, carries.expression, value.expression_eq]

theorem compare_renumbered (regular : translator.Regular)
    (carries : Carries replacement number other) {comparison : Sparql.Comparison}
    {property : Property} {value : Value} {group : Group}
    (lowered : translator.compare comparison property value number = .ok group) :
    translator.compare comparison property value other = .ok (replacement.group group) := by
  obtain ⟨⟨bindings, term⟩, bound, -⟩ := bind_ok.1 lowered
  obtain ⟨moved, part, rfl⟩ := bind_renumbered regular carries bound
  rw [carries.term] at moved
  rw [compare_of_bind bound] at lowered
  cases lowered
  rw [compare_of_bind moved, Replacement.group_append, Replacement.group,
    compared_renumbered carries]
  rfl

theorem like_renumbered (regular : translator.Regular)
    (carries : Carries replacement number other) {property : Property} {pattern : String}
    {group : Group} (lowered : translator.like property pattern number = .ok group) :
    translator.like property pattern other = .ok (replacement.group group) := by
  obtain ⟨⟨bindings, term⟩, bound, further⟩ := bind_ok.1 lowered
  obtain ⟨moved, part, rfl⟩ := bind_renumbered regular carries bound
  rw [carries.term] at moved
  cases further
  unfold like
  rw [moved, Replacement.group_append, Replacement.group, Replacement.element,
    Replacement.expression, Replacement.list, carries.expression]
  rfl

theorem oneOf_renumbered (regular : translator.Regular)
    (carries : Carries replacement number other) {property : Property} {values : List Value}
    {group : Group} (lowered : translator.oneOf property values number = .ok group) :
    translator.oneOf property values other = .ok (replacement.group group) := by
  obtain ⟨⟨bindings, term⟩, bound, further⟩ := bind_ok.1 lowered
  obtain ⟨moved, part, rfl⟩ := bind_renumbered regular carries bound
  rw [carries.term] at moved
  cases further
  unfold oneOf
  rw [moved, Replacement.group_append, Replacement.group,
    Fragment.replaced_column replacement _ (Value.ground_map values), carries.target]
  rfl

/-! ### Spatial relations -/

theorem group_ofTriples (replacement : Replacement) (triples : List Sparql.TriplePattern) :
    replacement.group (Group.ofTriples triples) =
      Group.ofTriples (triples.map replacement.triple) := by
  rw [Replacement.group_eq_map]
  unfold Group.ofTriples
  rw [List.map_map, List.map_map]
  rfl

theorem geometryTriples_renumbered (carries : Carries replacement number other)
    (relation : SpatialRelation) (geometry : Geometry) (system : String) (subject : Term) :
    (SpatialFilter.geometryTriples
        ⟨relation, geometry, system, subject, toString number⟩).map replacement.triple =
      SpatialFilter.geometryTriples
        ⟨relation, geometry, system, replacement.term subject, toString other⟩ := by
  have node : replacement.term (.var ⟨"geom_bnode" ++ "_" ++ toString number⟩) =
      .var ⟨"geom_bnode" ++ "_" ++ toString other⟩ := carries.term (.word "geom_bnode" (by decide))
  have text : replacement.term (.var ⟨"geom_var" ++ "_" ++ toString number⟩) =
      .var ⟨"geom_var" ++ "_" ++ toString other⟩ := carries.term (.word "geom_var" (by decide))
  simp only [SpatialFilter.geometryTriples, SpatialFilter.geometryNode,
    SpatialFilter.geometryText, SpatialFilter.named, List.map_cons, List.map_nil,
    Replacement.triple, node, text]
  rfl

theorem join_renumbered (carries : Carries replacement number other)
    (relation : SpatialRelation) (geometry : Geometry) (system : String) (subject : Term)
    (joinType : Iri) :
    replacement.group
        (SpatialFilter.join ⟨relation, geometry, system, subject, toString number⟩ joinType) =
      SpatialFilter.join ⟨relation, geometry, system, replacement.term subject, toString other⟩
        joinType := by
  have text : replacement.term (.var ⟨"geom_var" ++ "_" ++ toString number⟩) =
      .var ⟨"geom_var" ++ "_" ++ toString other⟩ := carries.term (.word "geom_var" (by decide))
  have input : replacement.term (.var ⟨"wkt_input" ++ "_" ++ toString number⟩) =
      .var ⟨"wkt_input" ++ "_" ++ toString other⟩ := carries.term (.word "wkt_input" (by decide))
  have target : replacement.target ⟨"wkt_input" ++ "_" ++ toString number⟩ =
      ⟨"wkt_input" ++ "_" ++ toString other⟩ := carries.target (.word "wkt_input" (by decide))
  have label : replacement.term (.blank ("config_" ++ toString number)) =
      .blank ("config_" ++ toString other) := congrArg Term.blank carries.label
  have column (value : Literal) :
      replacement.element (.column ⟨"wkt_input" ++ "_" ++ toString number⟩ [.literal value]) =
        .column ⟨"wkt_input" ++ "_" ++ toString other⟩ [.literal value] := by
    rw [Fragment.replaced_column replacement _ (by simp [Term.unknown?]), target]
  unfold SpatialFilter.join
  simp only [Replacement.group, Replacement.element, Replacement.group_append, group_ofTriples,
    geometryTriples_renumbered carries, List.map_cons, List.map_nil, Replacement.triple,
    SpatialFilter.geometryText, SpatialFilter.named, text, input, label, column]
  rfl

/-- A spatial filter is lowered alike for another subject and under another number. -/
theorem lower_renumbered (carries : Carries replacement number other)
    {relation : SpatialRelation} {geometry : Geometry} {system : String} {subject : Term}
    {target : SpatialTarget} {group : Group}
    (lowered : SpatialFilter.lower ⟨relation, geometry, system, subject, toString number⟩ target =
      .ok group) :
    SpatialFilter.lower ⟨relation, geometry, system, replacement.term subject, toString other⟩
        target =
      .ok (replacement.group group) := by
  have triples := geometryTriples_renumbered carries relation geometry system subject
  cases target with
  | geoSparql =>
    have text : replacement.substitute ⟨"geom_var" ++ "_" ++ toString number⟩ =
        .var ⟨"geom_var" ++ "_" ++ toString other⟩ :=
      carries.substitute (.word "geom_var" (by decide))
    cases lowered
    rw [Replacement.group_append, group_ofTriples, triples]
    simp only [SpatialFilter.geometryText, SpatialFilter.named, Replacement.group,
      Replacement.element, Replacement.expression, Replacement.list, text]
    rfl
  | graphDb =>
    have node : replacement.term (.var ⟨"geom_bnode" ++ "_" ++ toString number⟩) =
        .var ⟨"geom_bnode" ++ "_" ++ toString other⟩ :=
      carries.term (.word "geom_bnode" (by decide))
    cases lowered
    rw [Replacement.group_append, group_ofTriples, triples]
    simp only [SpatialFilter.geometryNode, SpatialFilter.named, Replacement.group,
      Replacement.element, Replacement.expression, Sparql.Element.ofTriple, Replacement.triple,
      node]
    rfl
  | qlever =>
    unfold SpatialFilter.lower at lowered ⊢
    simp only at lowered ⊢
    cases joined : relation.joinType? with
    | none =>
      rw [joined] at lowered
      cases lowered
    | some joinType =>
      rw [joined] at lowered
      cases lowered
      rw [join_renumbered carries]

/-- Binds what a geometry belongs to: the focus itself, or the values of a property. -/
def bindGeometry (translator : Translator) (relation : SpatialRelation) (property : Property)
    (number : Nat) : Except Error (Group × Term) :=
  if isOwnGeometry property then .ok ([], focus)
  else translator.bind relation.name property number

theorem spatial_eq (translator : Translator) (relation : SpatialRelation) (property : Property)
    (geometry : Geometry) (number : Nat) :
    translator.spatial relation property geometry number = (do
      let (group, subject) ← translator.bindGeometry relation property number
      return group ++ (← SpatialFilter.lower
        ⟨relation, geometry, translator.system, subject, toString number⟩ translator.target)) := by
  unfold spatial bindGeometry
  split <;> rfl

theorem bindGeometry_renumbered (regular : translator.Regular)
    (carries : Carries replacement number other) {relation : SpatialRelation}
    {property : Property} {group : Group} {term : Term}
    (bound : translator.bindGeometry relation property number = .ok (group, term)) :
    translator.bindGeometry relation property other =
      .ok (replacement.group group, replacement.term term) := by
  unfold bindGeometry at bound ⊢
  split at bound
  · rename_i own
    cases bound
    rw [if_pos own, carries.focusTerm]
    rfl
  · rename_i shared
    rw [if_neg shared]
    exact (bind_renumbered regular carries bound).1

theorem spatial_renumbered (regular : translator.Regular)
    (carries : Carries replacement number other) {relation : SpatialRelation}
    {property : Property} {geometry : Geometry} {group : Group}
    (lowered : translator.spatial relation property geometry number = .ok group) :
    translator.spatial relation property geometry other = .ok (replacement.group group) := by
  rw [spatial_eq] at lowered ⊢
  obtain ⟨⟨bindings, subject⟩, bound, further⟩ := bind_ok.1 lowered
  obtain ⟨filters, filtered, total⟩ := bind_ok.1 further
  cases total
  rw [Replacement.group_append]
  exact bind_ok.2 ⟨_, bindGeometry_renumbered regular carries bound,
    bind_ok.2 ⟨_, lower_renumbered carries filtered, rfl⟩⟩

end Translator

/-! ### Temporal conditions -/

/-- A period after a replacement. -/
def Period.replaced (replacement : Replacement) (period : Period) : Period :=
  ⟨period.start.map replacement.expression, period.finish.map replacement.expression⟩

/-- An end of a period after a replacement. -/
def Endpoint.replaced (replacement : Replacement) : Endpoint → Endpoint
  | .beforeAll => .beforeAll
  | .value moment => .value (replacement.expression moment)
  | .afterAll => .afterAll

theorem Period.startPoint_replaced (replacement : Replacement) (period : Period) :
    (period.replaced replacement).startPoint = period.startPoint.replaced replacement := by
  obtain ⟨start, finish⟩ := period
  cases start <;> rfl

theorem Period.finishPoint_replaced (replacement : Replacement) (period : Period) :
    (period.replaced replacement).finishPoint = period.finishPoint.replaced replacement := by
  obtain ⟨start, finish⟩ := period
  cases finish <;> rfl

namespace Condition

/-- A condition after a replacement. -/
def replaced (replacement : Replacement) : Condition → Condition
  | .decided holds => .decided holds
  | .undecided expression => .undecided (replacement.expression expression)

variable (replacement : Replacement)

theorem expression_replaced (condition : Condition) :
    (condition.replaced replacement).expression =
      replacement.expression condition.expression := by
  cases condition <;> rfl

theorem compare_replaced (left : Endpoint) (comparison : Sparql.Comparison) (right : Endpoint) :
    compare (left.replaced replacement) comparison (right.replaced replacement) =
      (compare left comparison right).replaced replacement := by
  cases left <;> cases right <;> rfl

theorem anyDecided_replaced (holds : Bool) (conditions : List Condition) :
    anyDecided holds (conditions.map (replaced replacement)) = anyDecided holds conditions := by
  unfold anyDecided
  rw [List.any_map]
  refine congrArg (List.any conditions) (funext fun condition => ?_)
  cases condition <;> rfl

theorem pending_replaced (conditions : List Condition) :
    pending (conditions.map (replaced replacement)) =
      (pending conditions).map replacement.expression := by
  unfold pending
  rw [List.filterMap_map, List.map_filterMap]
  refine congrArg (List.filterMap · conditions) (funext fun condition => ?_)
  cases condition <;> rfl

theorem all_replaced (conditions : List Condition) :
    all (conditions.map (replaced replacement)) = (all conditions).replaced replacement := by
  unfold all
  rw [anyDecided_replaced, pending_replaced]
  split
  · rfl
  · match pending conditions with
    | [] => rfl
    | [_] => rfl
    | first :: second :: rest =>
      refine congrArg (fun operands => undecided (.and operands)) ?_
      exact (replacement.list_eq_map (first :: second :: rest)).symm

theorem any_replaced (conditions : List Condition) :
    any (conditions.map (replaced replacement)) = (any conditions).replaced replacement := by
  unfold any
  rw [anyDecided_replaced, pending_replaced]
  split
  · rfl
  · match pending conditions with
    | [] => rfl
    | [_] => rfl
    | first :: second :: rest =>
      refine congrArg (fun operands => undecided (.or operands)) ?_
      exact (replacement.list_eq_map (first :: second :: rest)).symm

end Condition

theorem TemporalRelation.filter_replaced (replacement : Replacement)
    (relation : TemporalRelation) (left right : Period) :
    relation.filter (left.replaced replacement) (right.replaced replacement) =
      replacement.expression (relation.filter left right) := by
  have moved : relation.condition (left.replaced replacement) (right.replaced replacement) =
      (relation.condition left right).replaced replacement := by
    unfold condition
    simp only [Period.startPoint_replaced, Period.finishPoint_replaced,
      Condition.compare_replaced]
    cases relation <;>
      first
      | rfl
      | exact Condition.all_replaced replacement [_, _]
      | exact Condition.all_replaced replacement [_, _, _]
      | exact Condition.any_replaced replacement [_, _]
  unfold filter
  rw [moved, Condition.expression_replaced]

/-- Whether a replacement keeps the focus node and gives the unknowns of the `size` conditions
after `count` the numbers after `base`. -/
structure Shifts (replacement : Replacement) (count size base : Nat) : Prop where
  focus : replacement.substitute Shape.focusNode = .var Shape.focusNode
  carries : ∀ offset, 0 < offset → offset ≤ size →
    Carries replacement (count + offset) (base + offset)

namespace Shifts

variable {replacement : Replacement} {count size more base : Nat}

theorem first (shifts : Shifts replacement count (size + more) base) :
    Shifts replacement count size base where
  focus := shifts.focus
  carries offset positive bounded :=
    shifts.carries offset positive (Nat.le_add_right_of_le bounded)

theorem second (shifts : Shifts replacement count (size + more) base) :
    Shifts replacement (count + size) more (base + size) where
  focus := shifts.focus
  carries offset positive bounded := by
    rw [Nat.add_assoc, Nat.add_assoc]
    exact shifts.carries _ (Nat.add_pos_right _ positive) (Nat.add_le_add_left bounded _)

theorem next (shifts : Shifts replacement count 1 base) :
    Carries replacement (count + 1) (base + 1) :=
  shifts.carries 1 Nat.one_pos (Nat.le_refl 1)

end Shifts

namespace Translator

variable {translator : Translator} {operator : String} {count final : Nat} {group : Group}

theorem timeValue_renumbered (regular : translator.Regular) {value : TimeValue}
    {expression : Sparql.Expression}
    (lowered : translator.timeValue operator count value = .ok (group, expression, final)) :
    ∃ size, final = count + size ∧ ∀ {replacement base},
      Shifts replacement count size base →
        translator.timeValue operator base value =
          .ok (replacement.group group, replacement.expression expression, base + size) := by
  cases value with
  | literal value =>
    cases lowered
    exact ⟨0, rfl, fun _ => rfl⟩
  | property property =>
    obtain ⟨⟨bindings, object⟩, bound, further⟩ := bind_ok.1 lowered
    obtain ⟨value, operand, total⟩ := bind_ok.1 further
    cases total
    refine ⟨1, rfl, fun shifts => ?_⟩
    obtain ⟨moved, part, rfl⟩ := bind_renumbered regular shifts.next bound
    cases operand
    refine bind_ok.2 ⟨_, moved, ?_⟩
    show Bind.bind (Translator.operand operator (_ : Term)) _ = _
    rw [shifts.next.term, Replacement.expression, shifts.next.substitute]
    rfl

theorem bound_renumbered (regular : translator.Regular) {value : Option TimeValue}
    {expression : Option Sparql.Expression}
    (lowered : translator.bound operator count value = .ok (group, expression, final)) :
    ∃ size, final = count + size ∧ ∀ {replacement base},
      Shifts replacement count size base →
        translator.bound operator base value =
          .ok (replacement.group group, expression.map replacement.expression,
            base + size) := by
  cases value with
  | none =>
    cases lowered
    exact ⟨0, rfl, fun _ => rfl⟩
  | some value =>
    obtain ⟨⟨bindings, value, after⟩, bound, total⟩ := bind_ok.1 lowered
    cases total
    obtain ⟨size, counted, moved⟩ := timeValue_renumbered regular bound
    exact ⟨size, counted, fun shifts => bind_ok.2 ⟨_, moved shifts, rfl⟩⟩

theorem period_renumbered (regular : translator.Regular) {operand : TemporalOperand}
    {period : Period}
    (lowered : translator.period operator count operand = .ok (group, period, final)) :
    ∃ size, final = count + size ∧ ∀ {replacement base},
      Shifts replacement count size base →
        translator.period operator base operand =
          .ok (replacement.group group, period.replaced replacement, base + size) := by
  cases operand with
  | instant value =>
    obtain ⟨⟨bindings, value, after⟩, bound, total⟩ := bind_ok.1 lowered
    cases total
    obtain ⟨size, counted, moved⟩ := timeValue_renumbered regular bound
    exact ⟨size, counted, fun shifts => bind_ok.2 ⟨_, moved shifts, rfl⟩⟩
  | interval start finish =>
    obtain ⟨⟨startGroup, startValue, middle⟩, started, further⟩ := bind_ok.1 lowered
    obtain ⟨⟨finishGroup, finishValue, after⟩, finished, total⟩ := bind_ok.1 further
    cases total
    obtain ⟨size, rfl, movedStart⟩ := bound_renumbered regular started
    obtain ⟨more, rfl, movedFinish⟩ := bound_renumbered regular finished
    refine ⟨size + more, Nat.add_assoc _ _ _, fun {replacement} {base} shifts => ?_⟩
    rw [Replacement.group_append, ← Nat.add_assoc]
    exact bind_ok.2 ⟨_, movedStart shifts.first, bind_ok.2 ⟨_, movedFinish shifts.second, rfl⟩⟩

theorem temporal_renumbered (regular : translator.Regular) {relation : TemporalRelation}
    {left right : TemporalOperand}
    (lowered : translator.temporal relation left right count = .ok (group, final)) :
    ∃ size, final = count + size ∧ ∀ {replacement base},
      Shifts replacement count size base →
        translator.temporal relation left right base =
          .ok (replacement.group group, base + size) := by
  obtain ⟨_, checked, further⟩ := bind_ok.1 lowered
  obtain ⟨⟨leftGroup, leftPeriod, middle⟩, leftLowered, further⟩ := bind_ok.1 further
  obtain ⟨⟨rightGroup, rightPeriod, after⟩, rightLowered, total⟩ := bind_ok.1 further
  cases total
  obtain ⟨size, rfl, movedLeft⟩ := period_renumbered regular leftLowered
  obtain ⟨more, rfl, movedRight⟩ := period_renumbered regular rightLowered
  refine ⟨size + more, Nat.add_assoc _ _ _, fun {replacement} {base} shifts => ?_⟩
  rw [Replacement.group_append, Replacement.group_append, ← Nat.add_assoc, Replacement.group,
    Replacement.element, ← TemporalRelation.filter_replaced]
  exact bind_ok.2 ⟨_, checked, bind_ok.2 ⟨_, movedLeft shifts.first,
    bind_ok.2 ⟨_, movedRight shifts.second, rfl⟩⟩⟩

end Translator

end ShapeQuery.Filter
