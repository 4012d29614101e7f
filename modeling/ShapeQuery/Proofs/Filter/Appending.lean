/-
This file proves that lowering a filter only appends. It defines a lowering that builds the blocks
of one group in place, adding triples and other elements behind whatever is there, and proves that
this lowering adds what the lowering to a group of its own makes: it never looks at what is there
before, and the seam is where a run of triples may go on. Since a conjunction adds the contents of
its operands one after another, how conjunctions are nested makes no difference.
-/
import ShapeQuery.Proofs.Filter.Sites
import ShapeQuery.Proofs.Sparql.Runs

namespace ShapeQuery.Filter

open Sparql (Term Group Comparison Blocks)
open Success (map_ok)

namespace SpatialFilter

/-- Adds the filter in a dialect behind some blocks. -/
def lowerOnto (filter : SpatialFilter) (target : SpatialTarget) (blocks : Blocks) :
    Except Error Blocks :=
  let located := filter.geometryTriples.foldl Blocks.addTriple blocks
  match target with
  | .geoSparql =>
    .ok (located.addElement
      (.filter (.call (.custom filter.relation.function)
        [.var filter.geometryText, .literal filter.literal])))
  | .graphDb =>
    .ok (located.addElement
      (.filter (.exists
        [.ofTriple (.var filter.geometryNode) (.predicate filter.relation.predicate)
          (.literal filter.literal)])))
  | .qlever =>
    match filter.relation.joinType? with
    | some joinType => .ok (blocks.extend (filter.join joinType))
    | none => .error (.unsupported (.spatialRelation filter.relation.name))

theorem lowerOnto_eq (filter : SpatialFilter) (target : SpatialTarget) (blocks : Blocks) :
    filter.lowerOnto target blocks = (filter.lower target).map (blocks.extend) := by
  cases target with
  | geoSparql => rfl
  | graphDb => rfl
  | qlever =>
    rw [lowerOnto, lower]
    cases filter.relation.joinType? <;> rfl

end SpatialFilter

namespace Translator

/-! ### Properties in place -/

/-- Binds the values of a queryable behind some blocks. -/
def bindShapeOnto (operator : String) (property : Property) (shape : PropertyShape) (number : Nat)
    (blocks : Blocks) : Except Error (Blocks × Term) :=
  if property.inverse then .error (.unsupported (.inverseQueryable property.name))
  else
    let lowering : Lowering := ⟨.profile, focus, []⟩
    match lowering.property (Shape.Scope.start (stem number)) shape with
    | .error source => .error (.queryable property.name source)
    | .ok (fragment, _) =>
      let built := blocks.append fragment.pattern.blocks
      match fragment.terminal with
      | some terminal => .ok (built, terminal)
      | none => .error (.invalidArgument operator (.noValueNode property.name))

/-- Binds the values of a predicate behind some blocks. -/
def bindPredicateOnto (property : Property) (number : Nat) (blocks : Blocks) :
    Except Error (Blocks × Term) :=
  match Iri.ofText? property.name with
  | none => .error (.unknownQueryable property.name)
  | some predicate =>
    let value : Term := .var ⟨stem number⟩
    let triple : Sparql.TriplePattern :=
      if property.inverse then ⟨value, .predicate predicate, focus⟩
      else ⟨focus, .predicate predicate, value⟩
    .ok (blocks.addTriple triple, value)

/-- Binds the values of a property behind some blocks. -/
def bindOnto (translator : Translator) (operator : String) (property : Property) (number : Nat)
    (blocks : Blocks) : Except Error (Blocks × Term) :=
  match translator.shape? property with
  | some shape => bindShapeOnto operator property shape number blocks
  | none => bindPredicateOnto property number blocks

/-! ### Conditions in place -/

/-- Adds a comparison behind some blocks. -/
def compareOnto (translator : Translator) (comparison : Comparison) (property : Property)
    (value : Value) (number : Nat) (blocks : Blocks) : Except Error Blocks := do
  let (built, object) ← translator.bindOnto comparison.symbol property number blocks
  match object, comparison, translator.shape? property with
  | .var name, .equal, none => return built.addElement (.column name [value.term])
  | _, _, _ =>
    let left ← operand comparison.symbol object
    return built.addElement (.filter (.compare left comparison value.expression))

/-- Adds a comparison with a pattern behind some blocks. -/
def likeOnto (translator : Translator) (property : Property) (pattern : String) (number : Nat)
    (blocks : Blocks) : Except Error Blocks := do
  let (built, object) ← translator.bindOnto "like" property number blocks
  let left ← operand "like" object
  let regex := Sparql.Expression.literal (.plain (Text.wildcardRegex pattern))
  return built.addElement (.filter (.call .regex [left, regex, .literal (.plain "i")]))

/-- Adds a choice of values behind some blocks. -/
def oneOfOnto (translator : Translator) (property : Property) (values : List Value) (number : Nat)
    (blocks : Blocks) : Except Error Blocks := do
  let (built, object) ← translator.bindOnto "in" property number blocks
  match object with
  | .var name => return built.addElement (.column name (values.map Value.term))
  | _ =>
    let left ← operand "in" object
    return built.addElement (.filter (.oneOf left (values.map Value.expression)))

/-- Adds a spatial relation behind some blocks. -/
def spatialOnto (translator : Translator) (relation : SpatialRelation) (property : Property)
    (geometry : Geometry) (number : Nat) (blocks : Blocks) : Except Error Blocks := do
  let (built, subject) ←
    if isOwnGeometry property then .ok (blocks, focus)
    else translator.bindOnto relation.name property number blocks
  let filter : SpatialFilter :=
    ⟨relation, geometry, translator.system, subject, toString number⟩
  filter.lowerOnto translator.target built

/-- Adds what binds a bounded side of an operand behind some blocks. -/
def timeValueOnto (translator : Translator) (operator : String) (count : Nat) (value : TimeValue)
    (blocks : Blocks) : Except Error (Blocks × Sparql.Expression × Nat) :=
  match value with
  | .literal value => .ok (blocks, .literal value, count)
  | .property property => do
    let (built, object) ← translator.bindOnto operator property (count + 1) blocks
    return (built, ← operand operator object, count + 1)

/-- Adds what binds a side of an operand behind some blocks. -/
def boundOnto (translator : Translator) (operator : String) (count : Nat)
    (value : Option TimeValue) (blocks : Blocks) :
    Except Error (Blocks × Option Sparql.Expression × Nat) :=
  match value with
  | none => .ok (blocks, none, count)
  | some value => do
    let (built, expression, count) ← translator.timeValueOnto operator count value blocks
    return (built, some expression, count)

/-- Adds what binds an operand behind some blocks. -/
def periodOnto (translator : Translator) (operator : String) (count : Nat)
    (operand : TemporalOperand) (blocks : Blocks) :
    Except Error (Blocks × Period × Nat) :=
  match operand with
  | .instant value => do
    let (built, expression, count) ← translator.timeValueOnto operator count value blocks
    return (built, .instant expression, count)
  | .interval start finish => do
    let (built, start, count) ← translator.boundOnto operator count start blocks
    let (built, finish, count) ← translator.boundOnto operator count finish built
    return (built, ⟨start, finish⟩, count)

/-- Adds a temporal relation behind some blocks. -/
def temporalOnto (translator : Translator) (relation : TemporalRelation)
    (left right : TemporalOperand) (count : Nat) (blocks : Blocks) :
    Except Error (Blocks × Nat) := do
  relation.checkKinds left.kind right.kind
  let (built, left, count) ← translator.periodOnto relation.name count left blocks
  let (built, right, count) ← translator.periodOnto relation.name count right built
  return (built.addElement (.filter (relation.filter left right)), count)

/-- Adds the use of a function behind some blocks. -/
def functionOnto (translator : Translator) (name : String) (arguments : List Json) (number : Nat)
    (blocks : Blocks) : Except Error Blocks :=
  match translator.functions.function? name with
  | none => .error (.unknownOperator name)
  | some function =>
    if size : arguments.toArray.size = function.arity then
      (function.lower focus ⟨arguments.toArray, size⟩ ("_" ++ toString number)).map blocks.extend
    else .error (.argumentCount name function.arity arguments.length)

/-- Adds a condition behind some blocks. -/
def leafOnto (translator : Translator) (count : Nat) (condition : Leaf) (blocks : Blocks) :
    Except Error (Blocks × Nat) :=
  match condition with
  | .compare comparison property value => do
    return (← translator.compareOnto comparison property value (count + 1) blocks, count + 1)
  | .like property pattern => do
    return (← translator.likeOnto property pattern (count + 1) blocks, count + 1)
  | .oneOf property values => do
    return (← translator.oneOfOnto property values (count + 1) blocks, count + 1)
  | .spatial relation property geometry => do
    return (← translator.spatialOnto relation property geometry (count + 1) blocks, count + 1)
  | .temporal relation left right => translator.temporalOnto relation left right count blocks
  | .function name arguments => do
    return (← translator.functionOnto name arguments (count + 1) blocks, count + 1)

/-! ### Filters in place -/

mutual

/-- Adds a filter behind some blocks after the given number of conditions. A conjunction adds its
operands to the same blocks, the branches of a disjunction and what a negation forbids start from
nothing. -/
def lowerOnto (translator : Translator) (count : Nat) (filter : Expression)
    (blocks : Blocks) : Except Error (Blocks × Nat) :=
  match filter with
  | .leaf condition => translator.leafOnto count condition blocks
  | .all operands => translator.allOnto count operands blocks
  | .any operands => do
    let (branches, count) ← translator.eachOnto count operands
    return (blocks.addElement (.union (List.map Blocks.content branches)), count)
  | .not operand => do
    let (forbidden, count) ← translator.lowerOnto count operand []
    return (blocks.addElement (.filter (.notExists (Blocks.content forbidden))), count)

/-- Adds some filters behind some blocks. -/
def allOnto (translator : Translator) (count : Nat) (filters : List Expression)
    (blocks : Blocks) : Except Error (Blocks × Nat) :=
  match filters with
  | [] => .ok (blocks, count)
  | operand :: rest => do
    let (built, count) ← translator.lowerOnto count operand blocks
    translator.allOnto count rest built

/-- Builds the blocks of some filters, each from nothing. -/
def eachOnto (translator : Translator) (count : Nat) (filters : List Expression) :
    Except Error (List Blocks × Nat) :=
  match filters with
  | [] => .ok ([], count)
  | operand :: rest => do
    let (first, count) ← translator.lowerOnto count operand []
    let (others, count) ← translator.eachOnto count rest
    return (first :: others, count)

end

/-! ### What is added -/

/-- A result with the group that is made for it, behind some blocks. -/
def behind {α : Type} (blocks : Blocks) (made : Group × α) : Blocks × α :=
  (blocks.extend made.1, made.2)

variable {translator : Translator}

theorem bindOnto_eq (operator : String) (property : Property) (number : Nat) (blocks : Blocks) :
    translator.bindOnto operator property number blocks =
      (translator.bind operator property number).map (behind blocks) := by
  rw [bindOnto, Translator.bind]
  match translator.shape? property with
  | some shape =>
    dsimp only
    rw [bindShapeOnto, bindShape]
    split
    · rfl
    dsimp only
    match Lowering.property ⟨.profile, focus, []⟩ (Shape.Scope.start (stem number)) shape with
    | .error source => rfl
    | .ok (⟨pattern, template, none⟩, scope) => rfl
    | .ok (⟨pattern, template, some terminal⟩, scope) =>
      dsimp only
      rw [Group.append_blocks]
      rfl
  | none =>
    dsimp only
    rw [bindPredicateOnto, bindPredicate]
    cases Iri.ofText? property.name with
    | none => rfl
    | some predicate => cases property.inverse <;> rfl

/-! ### Conditions -/

theorem compareOnto_eq (comparison : Comparison) (property : Property) (value : Value)
    (number : Nat) (blocks : Blocks) :
    translator.compareOnto comparison property value number blocks =
      (translator.compare comparison property value number).map blocks.extend := by
  rw [compareOnto, bindOnto_eq, compare]
  match translator.bind comparison.symbol property number with
  | .error fault => rfl
  | .ok (group, object) =>
    cases object with
    | var name =>
      cases comparison <;> cases translator.shape? property <;>
        exact congrArg Except.ok (Blocks.extend_concat ..).symm
    | blank label => rfl
    | _ => exact congrArg Except.ok (Blocks.extend_concat ..).symm

theorem likeOnto_eq (property : Property) (pattern : String) (number : Nat) (blocks : Blocks) :
    translator.likeOnto property pattern number blocks =
      (translator.like property pattern number).map blocks.extend := by
  rw [likeOnto, bindOnto_eq, like]
  match translator.bind "like" property number with
  | .error fault => rfl
  | .ok (group, object) =>
    cases object with
    | blank label => rfl
    | _ => exact congrArg Except.ok (Blocks.extend_concat ..).symm

theorem oneOfOnto_eq (property : Property) (values : List Value) (number : Nat)
    (blocks : Blocks) :
    translator.oneOfOnto property values number blocks =
      (translator.oneOf property values number).map blocks.extend := by
  rw [oneOfOnto, bindOnto_eq, oneOf]
  match translator.bind "in" property number with
  | .error fault => rfl
  | .ok (group, object) =>
    cases object with
    | blank label => rfl
    | _ => exact congrArg Except.ok (Blocks.extend_concat ..).symm

theorem spatialOnto_eq (relation : SpatialRelation) (property : Property) (geometry : Geometry)
    (number : Nat) (blocks : Blocks) :
    translator.spatialOnto relation property geometry number blocks =
      (translator.spatial relation property geometry number).map blocks.extend := by
  rw [spatialOnto, spatial]
  split
  · dsimp only [Bind.bind, Except.bind]
    rw [SpatialFilter.lowerOnto_eq]
    cases SpatialFilter.lower ⟨relation, geometry, translator.system, focus, toString number⟩
      translator.target <;> rfl
  · rw [bindOnto_eq]
    match translator.bind relation.name property number with
    | .error fault => rfl
    | .ok (group, subject) =>
      dsimp only [Except.map, Bind.bind, Except.bind, behind]
      rw [SpatialFilter.lowerOnto_eq]
      cases SpatialFilter.lower ⟨relation, geometry, translator.system, subject, toString number⟩
        translator.target with
      | error fault => rfl
      | ok filter => exact congrArg Except.ok (Blocks.extend_append ..).symm

theorem functionOnto_eq (name : String) (arguments : List Json) (number : Nat)
    (blocks : Blocks) :
    translator.functionOnto name arguments number blocks =
      (translator.function name arguments number).map blocks.extend := by
  rw [functionOnto, function]
  cases translator.functions.function? name with
  | none => rfl
  | some function =>
    dsimp only
    by_cases size : arguments.length = function.arity
    · rw [dif_pos size]
      exact dif_pos size
    · rw [dif_neg size]
      exact dif_neg size

/-! ### Temporal relations -/

theorem timeValueOnto_eq (operator : String) (count : Nat) (value : TimeValue)
    (blocks : Blocks) :
    translator.timeValueOnto operator count value blocks =
      (translator.timeValue operator count value).map (behind blocks) := by
  cases value with
  | literal literal => rfl
  | property property =>
    rw [timeValueOnto, bindOnto_eq, timeValue]
    cases translator.bind operator property (count + 1) with
    | error fault => rfl
    | ok bound =>
      obtain ⟨group, object⟩ := bound
      dsimp only [Except.map, Bind.bind, Except.bind, behind]
      cases operand operator object <;> rfl

theorem boundOnto_eq (operator : String) (count : Nat) (value : Option TimeValue)
    (blocks : Blocks) :
    translator.boundOnto operator count value blocks =
      (translator.bound operator count value).map (behind blocks) := by
  cases value with
  | none => rfl
  | some bounded =>
    rw [boundOnto, timeValueOnto_eq, bound]
    cases translator.timeValue operator count bounded <;> rfl

theorem periodOnto_eq (operator : String) (count : Nat) (operand : TemporalOperand)
    (blocks : Blocks) :
    translator.periodOnto operator count operand blocks =
      (translator.period operator count operand).map (behind blocks) := by
  cases operand with
  | instant value =>
    rw [periodOnto, timeValueOnto_eq, period]
    cases translator.timeValue operator count value <;> rfl
  | interval start finish =>
    rw [periodOnto, boundOnto_eq, period]
    cases translator.bound operator count start with
    | error fault => rfl
    | ok opened =>
      obtain ⟨first, opening, middle⟩ := opened
      dsimp only [Except.map, Bind.bind, Except.bind, behind]
      rw [boundOnto_eq]
      cases translator.bound operator middle finish with
      | error fault => rfl
      | ok closed =>
        obtain ⟨second, closing, final⟩ := closed
        exact congrArg (fun built => Except.ok (built, _)) (Blocks.extend_append ..).symm

theorem temporalOnto_eq (relation : TemporalRelation) (left right : TemporalOperand)
    (count : Nat) (blocks : Blocks) :
    translator.temporalOnto relation left right count blocks =
      (translator.temporal relation left right count).map (behind blocks) := by
  rw [temporalOnto, periodOnto_eq, temporal]
  cases relation.checkKinds left.kind right.kind with
  | error fault => rfl
  | ok checked =>
    match translator.period relation.name count left with
    | .error fault => rfl
    | .ok (first, before, middle) =>
      dsimp only [Except.map, Bind.bind, Except.bind, behind]
      rw [periodOnto_eq]
      match translator.period relation.name middle right with
      | .error fault => rfl
      | .ok (second, after, final) =>
        refine congrArg (fun built => Except.ok (built, _)) ?_
        rw [Blocks.extend_concat, Blocks.extend_append]
        rfl

theorem leafOnto_eq (count : Nat) (condition : Leaf) (blocks : Blocks) :
    translator.leafOnto count condition blocks =
      (translator.leaf count condition).map (behind blocks) := by
  cases condition with
  | compare comparison property value =>
    rw [leafOnto, compareOnto_eq, leaf]
    cases translator.compare comparison property value (count + 1) <;> rfl
  | like property pattern =>
    rw [leafOnto, likeOnto_eq, leaf]
    cases translator.like property pattern (count + 1) <;> rfl
  | oneOf property values =>
    rw [leafOnto, oneOfOnto_eq, leaf]
    cases translator.oneOf property values (count + 1) <;> rfl
  | spatial relation property geometry =>
    rw [leafOnto, spatialOnto_eq, leaf]
    cases translator.spatial relation property geometry (count + 1) <;> rfl
  | temporal relation left right => exact temporalOnto_eq ..
  | function name arguments =>
    rw [leafOnto, functionOnto_eq, leaf]
    cases translator.function name arguments (count + 1) <;> rfl

/-! ### Filters -/

mutual

/-- A filter adds the group that it is lowered to. -/
theorem lowerOnto_eq (filter : Expression) (count : Nat) (blocks : Blocks) :
    translator.lowerOnto count filter blocks =
      (translator.lower count filter).map (behind blocks) := by
  match filter with
  | .leaf condition => exact leafOnto_eq ..
  | .all operands => exact allOnto_eq operands count blocks
  | .any operands =>
    rw [lowerOnto, eachOnto_eq operands, lower]
    match translator.lowerEach count operands with
    | .error fault => rfl
    | .ok (branches, final) =>
      have contents : List.map Blocks.content (branches.map (Blocks.extend [])) = branches := by
        simp [← Group.blocks_eq_extend, Function.comp_def, Group.content_blocks]
      dsimp only [Except.map, Bind.bind, Except.bind, behind]
      rw [contents]
      rfl
  | .not operand =>
    rw [lowerOnto, lowerOnto_eq operand, lower]
    match translator.lower count operand with
    | .error fault => rfl
    | .ok (forbidden, final) =>
      dsimp only [Except.map, Bind.bind, Except.bind, behind]
      rw [← Group.blocks_eq_extend, Group.content_blocks]
      rfl

theorem allOnto_eq (operands : List Expression) (count : Nat) (blocks : Blocks) :
    translator.allOnto count operands blocks =
      (translator.lowerAll count operands).map (behind blocks) := by
  match operands with
  | [] => rfl
  | operand :: rest =>
    rw [allOnto, lowerOnto_eq operand, lowerAll]
    match translator.lower count operand with
    | .error fault => rfl
    | .ok (first, middle) =>
      dsimp only [Except.map, Bind.bind, Except.bind, behind]
      rw [allOnto_eq rest]
      match translator.lowerAll middle rest with
      | .error fault => rfl
      | .ok (others, final) =>
        exact congrArg (fun built => Except.ok (built, final)) (Blocks.extend_append ..).symm

theorem eachOnto_eq (operands : List Expression) (count : Nat) :
    translator.eachOnto count operands =
      (translator.lowerEach count operands).map fun made =>
        (made.1.map (Blocks.extend []), made.2) := by
  match operands with
  | [] => rfl
  | operand :: rest =>
    rw [eachOnto, lowerOnto_eq operand, lowerEach]
    match translator.lower count operand with
    | .error fault => rfl
    | .ok (first, middle) =>
      dsimp only [Except.map, Bind.bind, Except.bind, behind]
      rw [eachOnto_eq rest]
      match translator.lowerEach middle rest with
      | .error fault => rfl
      | .ok (others, final) => rfl

end

/-- What a filter adds to nothing are the blocks of the group that it is lowered to. -/
theorem lowerOnto_nil (filter : Expression) (count : Nat) :
    translator.lowerOnto count filter [] =
      (translator.lower count filter).map fun made => (made.1.blocks, made.2) := by
  rw [lowerOnto_eq]
  cases translator.lower count filter with
  | error fault => rfl
  | ok made => exact congrArg (fun built => Except.ok (built, _)) (Group.blocks_eq_extend _).symm

/-! ### Nested conjunctions -/

theorem lowerAll_append (operands others : List Expression) (count : Nat) :
    translator.lowerAll count (operands ++ others) = (do
      let (first, count) ← translator.lowerAll count operands
      let (second, count) ← translator.lowerAll count others
      return (first ++ second, count)) := by
  induction operands generalizing count with
  | nil =>
    change _ = translator.lowerAll count others >>= pure
    rw [bind_pure, List.nil_append]
  | cons operand rest inductionHypothesis =>
    simp only [List.cons_append, lowerAll, inductionHypothesis, bind_assoc, pure_bind,
      List.append_assoc]

theorem lowerEach_append (operands others : List Expression) (count : Nat) :
    translator.lowerEach count (operands ++ others) = (do
      let (first, count) ← translator.lowerEach count operands
      let (second, count) ← translator.lowerEach count others
      return (first ++ second, count)) := by
  induction operands generalizing count with
  | nil =>
    change _ = translator.lowerEach count others >>= pure
    rw [bind_pure, List.nil_append]
  | cons operand rest inductionHypothesis =>
    simp only [List.cons_append, lowerEach, inductionHypothesis, bind_assoc, pure_bind]

end Translator

/-- Whether a filter becomes another one when one of its conjunctions, anywhere in it, is made
flatter: the operands of a conjunction within a conjunction take its place, or the only operand of a
conjunction does. -/
inductive Expression.Flattens : Expression → Expression → Prop
  | spread (before inner after : List Expression) :
    Flattens (.all (before ++ .all inner :: after)) (.all (before ++ inner ++ after))
  | single (operand : Expression) : Flattens (.all [operand]) operand
  | all (before after : List Expression) {operand other : Expression}
    (flattens : Flattens operand other) :
    Flattens (.all (before ++ operand :: after)) (.all (before ++ other :: after))
  | any (before after : List Expression) {operand other : Expression}
    (flattens : Flattens operand other) :
    Flattens (.any (before ++ operand :: after)) (.any (before ++ other :: after))
  | not {operand other : Expression} (flattens : Flattens operand other) :
    Flattens (.not operand) (.not other)

namespace Translator

variable {translator : Translator}

theorem lower_single (operand : Expression) (count : Nat) :
    translator.lower count (.all [operand]) = translator.lower count operand := by
  rw [lower, lowerAll]
  match translator.lower count operand with
  | .error fault => rfl
  | .ok (group, final) =>
    exact congrArg (fun group => Except.ok (group, final)) (List.append_nil group)

/-- A flatter filter is lowered to the same group with the same numbers. -/
theorem lower_flattens {filter other : Expression} (flattens : filter.Flattens other)
    (count : Nat) : translator.lower count filter = translator.lower count other := by
  induction flattens generalizing count with
  | spread before inner after =>
    rw [lower, lower, List.append_assoc, lowerAll_append, lowerAll_append]
    simp only [lowerAll_append, lowerAll, lower]
  | single operand => exact lower_single operand count
  | all before after _ inductionHypothesis =>
    simp only [lower, lowerAll_append, lowerAll, inductionHypothesis]
  | any before after _ inductionHypothesis =>
    simp only [lower, lowerEach_append, lowerEach, inductionHypothesis]
  | not _ inductionHypothesis => simp only [lower, inductionHypothesis]

/-! ### Appending -/

/-- Whether lowering a filter only appends. -/
structure Appends (translator : Translator) (filter : Expression) : Prop where
  /-- What the filter adds to some blocks, or fails with, is what it adds to nothing or fails with
  there. -/
  behind : ∀ count blocks, translator.lowerOnto count filter blocks =
    (translator.lowerOnto count filter []).map fun made => (blocks.append made.1, made.2)
  /-- How many conditions the filter has is a matter of the filter alone. -/
  counted : ∀ count blocks made, translator.lowerOnto count filter blocks = .ok made →
    made.2 = count + filter.sites.length
  /-- What the filter adds to nothing is the group that it is lowered to. -/
  lowered : ∀ count, translator.lowerOnto count filter [] =
    (translator.lower count filter).map fun made => (made.1.blocks, made.2)
  /-- A flatter filter has the same translation, or fails with the same error. -/
  flattened : ∀ other, filter.Flattens other →
    translator.translate other = translator.translate filter

theorem lowerOnto_counted {filter : Expression} {count : Nat} {blocks : Blocks}
    {made : Blocks × Nat} (succeeds : translator.lowerOnto count filter blocks = .ok made) :
    made.2 = count + filter.sites.length := by
  rw [lowerOnto_eq] at succeeds
  obtain ⟨⟨group, final⟩, lowered, rfl⟩ := map_ok.1 succeeds
  exact (lower_made filter lowered).final

/-- Lowering a filter appends to what is there and counts its conditions, and flattening its
conjunctions changes neither its translation nor its error. -/
theorem lowering_appends (translator : Translator) (filter : Expression) :
    translator.Appends filter where
  behind count blocks := by
    rw [lowerOnto_nil, lowerOnto_eq]
    cases translator.lower count filter with
    | error fault => rfl
    | ok made =>
      exact congrArg (fun built => Except.ok (built, made.2)) (Group.append_blocks ..).symm
  counted _ _ _ := lowerOnto_counted
  lowered := lowerOnto_nil filter
  flattened other flattens := by rw [translate, translate, lower_flattens flattens]

end Translator

end ShapeQuery.Filter
