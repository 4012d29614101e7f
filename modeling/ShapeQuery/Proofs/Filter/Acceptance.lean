/-
This file tells which filters can be lowered with the standard functions. Every condition has to
resolve: its properties are bound, its function is known and takes the arguments, its temporal
relation is defined for the operands, and its spatial relation in the dialect. Nothing else is asked
for; in particular, every term that a condition is about can stand in an expression.
-/
import ShapeQuery.Proofs.Failure
import ShapeQuery.Proofs.Filter.Arguments
import ShapeQuery.Proofs.Filter.Sites
import ShapeQuery.Proofs.Shape.Ending

namespace ShapeQuery.Filter

open Sparql (Term Group Variable Comparison)

/-! ### Acceptance -/

/-- Whether an error finds fault with a term that cannot stand in an expression. -/
def Error.IsOfOperand : Error → Prop
  | .invalidArgument _ (.blankOperand _) => True
  | _ => False

/-- Whether a computation succeeds exactly under a condition, and otherwise does not find fault with
a term that cannot stand in an expression. -/
structure Accepts {α : Type} (condition : Prop) (computed : Except Error α) : Prop where
  succeeds : (∃ result, computed = .ok result) ↔ condition
  fails : FailsOnly (fun fault => ¬ fault.IsOfOperand) computed

namespace Accepts

variable {α β : Type} {condition further : Prop}

theorem ok (value : α) (met : condition) : Accepts condition (.ok value) :=
  ⟨iff_of_true ⟨value, rfl⟩ met, .ok value⟩

theorem error {fault : Error} (unmet : ¬ condition) (other : ¬ fault.IsOfOperand) :
    Accepts condition (.error fault : Except Error α) :=
  ⟨iff_of_false nofun unmet, .error other⟩

theorem congr {computed : Except Error α} (accepts : Accepts condition computed)
    (same : condition ↔ further) : Accepts further computed :=
  ⟨accepts.succeeds.trans same, accepts.fails⟩

theorem bind {first : Except Error α} {next : α → Except Error β}
    (accepts : Accepts condition first)
    (later : ∀ value, first = .ok value → Accepts further (next value)) :
    Accepts (condition ∧ further) (first >>= next) := by
  cases first with
  | error fault =>
    refine ⟨iff_of_false nofun fun both => ?_, .error (accepts.fails fault rfl)⟩
    obtain ⟨value, impossible⟩ := accepts.succeeds.2 both.1
    cases impossible
  | ok value =>
    have given : condition := accepts.succeeds.1 ⟨value, rfl⟩
    exact ⟨(later value rfl).succeeds.trans (and_iff_right given).symm, (later value rfl).fails⟩

/-- A last step that does not fail asks for nothing. -/
theorem done {first : Except Error α} {next : α → Except Error β}
    (accepts : Accepts condition first)
    (later : ∀ value, first = .ok value → Accepts True (next value)) :
    Accepts condition (first >>= next) :=
  (accepts.bind later).congr (and_iff_left trivial)

/-- A reader accepts what has its form. -/
theorem of_reads {read : Json → Except Error α} {form : Json → α → Prop} (reads : Reads read form)
    {document : Json} (fails : FailsOnly (fun fault => ¬ fault.IsOfOperand) (read document)) :
    Accepts (∃ value, form document value) (read document) :=
  ⟨exists_congr fun value => reads document value, fails⟩

end Accepts

/-! ### Arguments of functions -/

/-- What a function takes for an argument. -/
inductive ArgumentKind where
  | predicate
  | value
  | values
deriving DecidableEq

/-- Whether a document can be converted to an argument of a kind. -/
def ArgumentKind.Fits : ArgumentKind → Json → Prop
  | .predicate, document => ∃ text name, document = .string text ∧ Iri.ofText? text = some name
  | .value, document => ∃ value, Value.Form document value
  | .values, document => ∃ values, Value.ListForm document values

/-- The arguments of the standard functions. -/
def signatures : List (String × List ArgumentKind) :=
  [("FOIObservationFilterDirect", [.predicate, .value, .predicate, .value]),
   ("FOIObservationFilterSequence", [.predicate, .value, .predicate, .predicate, .value]),
   ("hasObservation", [.values, .values]),
   ("hasAttribute", [.values, .values]),
   ("hasAdditional", [.values, .values]),
   ("qualifiedAttribution", [.values, .values])]

theorem fails_timeLiteral {α : Type} (read : String → Except Calendar.Fault α) (datatype : Iri)
    (document : Json) :
    FailsOnly (fun fault => ¬ fault.IsOfOperand) (timeLiteral read datatype document) := by
  unfold timeLiteral
  split
  · split
    · exact .ok _
    · exact .error not_false
  · exact .error not_false

theorem accepts_value (operator : String) (document : Json) :
    Accepts (∃ value, Value.Form document value) (Value.ofJson operator document) := by
  refine .of_reads (Value.reads operator) ?_
  unfold Value.ofJson
  split
  · split
    · split
      · exact .ok _
      · exact .error not_false
    · exact .ok _
  · exact .ok _
  · exact .ok _
  · split
    · exact (fails_timeLiteral _ _ _).map _
    · exact (fails_timeLiteral _ _ _).map _
    · exact .error not_false
  · exact .error not_false

theorem accepts_values (operator : String) (target : Variable) (document : Json) :
    Accepts (∃ values, Value.ListForm document values)
      (valuesElement operator target document) := by
  have listed : Accepts (∃ values, Value.ListForm document values)
      (Value.listOfJson operator document) := by
    refine .of_reads (Value.reads_list operator) ?_
    unfold Value.listOfJson
    split
    · exact .error not_false
    · exact .mapM fun value _ => (accepts_value operator value).fails
    · exact (accepts_value operator _).fails.map _
  exact listed.done fun _ _ => .ok _ trivial

theorem accepts_predicate (operator : String) (document : Json) :
    Accepts (ArgumentKind.predicate.Fits document) (predicateArgument operator document) := by
  unfold predicateArgument
  cases document with
  | string text =>
    dsimp only [Json.string?, Option.bind]
    cases found : Iri.ofText? text with
    | none =>
      refine .error ?_ not_false
      rintro ⟨other, name, same, valid⟩
      cases same
      cases found.symm.trans valid
    | some name => exact .ok name ⟨text, name, rfl, found⟩
  | _ =>
    refine .error ?_ not_false
    rintro ⟨text, name, same, -⟩
    cases same

/-- Whether a function accepts exactly arguments of the given kinds. -/
structure FilterFunction.Takes (function : FilterFunction) (kinds : List ArgumentKind) : Prop where
  arity : kinds.length = function.arity
  accepts : ∀ focus (arguments : Vector Json function.arity) suffix,
    Accepts (List.Forall₂ ArgumentKind.Fits kinds arguments.toList)
      (function.lower focus arguments suffix)

theorem directObservation_takes :
    directObservation.Takes [.predicate, .value, .predicate, .value] where
  arity := rfl
  accepts focus arguments suffix := by
    obtain ⟨⟨elements⟩, size⟩ := arguments
    match elements, size with
    | [first, second, third, fourth], _ =>
      have fits : List.Forall₂ ArgumentKind.Fits [.predicate, .value, .predicate, .value]
          [first, second, third, fourth] ↔ ArgumentKind.predicate.Fits first ∧
            ArgumentKind.value.Fits second ∧ ArgumentKind.predicate.Fits third ∧
              ArgumentKind.value.Fits fourth := by simp
      exact Accepts.congr ((accepts_predicate _ first).bind fun _ _ =>
        (accepts_value _ second).bind fun _ _ => (accepts_predicate _ third).bind fun _ _ =>
          (accepts_value _ fourth).done fun _ _ => .ok _ trivial) fits.symm

theorem sequenceObservation_takes :
    sequenceObservation.Takes [.predicate, .value, .predicate, .predicate, .value] where
  arity := rfl
  accepts focus arguments suffix := by
    obtain ⟨⟨elements⟩, size⟩ := arguments
    match elements, size with
    | [first, second, third, fourth, fifth], _ =>
      have fits : List.Forall₂ ArgumentKind.Fits
          [.predicate, .value, .predicate, .predicate, .value]
          [first, second, third, fourth, fifth] ↔ ArgumentKind.predicate.Fits first ∧
            ArgumentKind.value.Fits second ∧ ArgumentKind.predicate.Fits third ∧
              ArgumentKind.predicate.Fits fourth ∧ ArgumentKind.value.Fits fifth := by simp
      exact Accepts.congr ((accepts_predicate _ first).bind fun _ _ =>
        (accepts_value _ second).bind fun _ _ => (accepts_predicate _ third).bind fun _ _ =>
          (accepts_predicate _ fourth).bind fun _ _ =>
            (accepts_value _ fifth).done fun _ _ => .ok _ trivial) fits.symm

/-- A function of two lists of values accepts exactly such lists. -/
theorem takes_lists {function : FilterFunction} (two : function.arity = 2)
    (lists : ∀ focus (arguments : Vector Json function.arity) suffix,
      ∃ (operator : String) (first second : Variable)
        (group : Sparql.Element → Sparql.Element → Group),
        function.lower focus arguments suffix = do
          let names ← valuesElement operator first arguments[0]
          let values ← valuesElement operator second arguments[1]
          return group names values) :
    function.Takes [.values, .values] where
  arity := two.symm
  accepts focus arguments suffix := by
    obtain ⟨operator, first, second, group, same⟩ := lists focus arguments suffix
    have fits : List.Forall₂ ArgumentKind.Fits [.values, .values] arguments.toList ↔
        ArgumentKind.values.Fits arguments[0] ∧ ArgumentKind.values.Fits arguments[1] := by
      obtain ⟨⟨elements⟩, size⟩ := arguments
      have length : elements.length = 2 := size.trans two
      match elements, length with
      | [first, second], _ => simp
    rw [same]
    exact ((accepts_values ..).bind fun _ _ => (accepts_values ..).done
      fun _ _ => .ok _ trivial).congr fits.symm

theorem hasObservation_takes : hasObservation.Takes [.values, .values] :=
  takes_lists rfl fun _ _ _ => ⟨_, _, _, _, rfl⟩

theorem hasAttribute_takes : hasAttribute.Takes [.values, .values] :=
  takes_lists rfl fun _ _ _ => ⟨_, _, _, _, rfl⟩

theorem hasAdditional_takes : hasAdditional.Takes [.values, .values] :=
  takes_lists rfl fun _ _ _ => ⟨_, _, _, _, rfl⟩

theorem qualifiedAttribution_takes : qualifiedAttribution.Takes [.values, .values] :=
  takes_lists rfl fun _ _ _ => ⟨_, _, _, _, rfl⟩

/-- The standard functions are those with a signature, and take what it says. -/
theorem function?_standard (name : String) :
    (Registry.standard.function? name = none ∧ signatures.lookup name = none) ∨
      ∃ function kinds, Registry.standard.function? name = some function ∧
        signatures.lookup name = some kinds ∧ function.Takes kinds := by
  by_cases known : ∃ function ∈ Registry.standard.functions, function.name = name
  · right
    obtain ⟨function, member, rfl⟩ := known
    simp only [Registry.standard, List.mem_cons, List.not_mem_nil, or_false] at member
    rcases member with rfl | rfl | rfl | rfl | rfl | rfl
    · exact ⟨_, _, rfl, rfl, directObservation_takes⟩
    · exact ⟨_, _, rfl, rfl, sequenceObservation_takes⟩
    · exact ⟨_, _, rfl, rfl, hasObservation_takes⟩
    · exact ⟨_, _, rfl, rfl, hasAttribute_takes⟩
    · exact ⟨_, _, rfl, rfl, hasAdditional_takes⟩
    · exact ⟨_, _, rfl, rfl, qualifiedAttribution_takes⟩
  · refine .inl ⟨List.find?_eq_none.2 fun function member named =>
      known ⟨function, member, of_decide_eq_true named⟩, ?_⟩
    have names : signatures.map Prod.fst =
      Registry.standard.functions.map FilterFunction.name := rfl
    refine List.lookup_eq_none_iff.2 fun entry member => bne_iff_ne.2 fun same => known ?_
    have named : entry.1 ∈ Registry.standard.functions.map FilterFunction.name :=
      names ▸ List.mem_map_of_mem member
    rw [same]
    exact List.mem_map.1 named

/-! ### Conditions that resolve -/

/-- Whether a property is named by an absolute IRI. -/
def Property.IsPredicate (property : Property) : Prop :=
  ∃ predicate, Iri.ofText? property.name = some predicate

namespace Translator

/-- Whether a property is that of a queryable with values: it is the name of a queryable whose shape
is lowered with a terminal, and it is not followed backwards. -/
def BindsQueryable (translator : Translator) (property : Property) : Prop :=
  property.inverse = false ∧ ∃ shape, translator.shape? property = some shape ∧
    ∃ number fragment next terminal,
      Lowering.property ⟨.profile, focus, []⟩ (Shape.Scope.start (stem number)) shape =
        .ok (fragment, next) ∧ fragment.terminal = some terminal

/-- Whether a property is bound: by its queryable, or else by a predicate. -/
def Binds (translator : Translator) (property : Property) : Prop :=
  translator.BindsQueryable property ∨
    (translator.shape? property = none ∧ property.IsPredicate)

end Translator

/-- Whether a condition resolves, where it is known which properties are bound. -/
def Leaf.Resolves (binds : Property → Prop) (target : SpatialTarget) : Leaf → Prop
  | .compare _ property _ => binds property
  | .like property _ => binds property
  | .oneOf property _ => binds property
  | .spatial relation property _ =>
    (Translator.isOwnGeometry property = true ∨ binds property) ∧
      ¬ (relation = .disjoint ∧ target = .qlever)
  | .temporal relation left right =>
    (relation.acceptsInstants = true ∨ left.kind = .interval ∧ right.kind = .interval) ∧
      ∀ property ∈ left.properties ++ right.properties, binds property
  | .function name arguments =>
    ∃ kinds, signatures.lookup name = some kinds ∧ List.Forall₂ ArgumentKind.Fits kinds arguments

mutual

/-- The conditions of a filter. -/
def Expression.leaves : Expression → List Leaf
  | .leaf condition => [condition]
  | .all operands => listLeaves operands
  | .any operands => listLeaves operands
  | .not operand => operand.leaves

/-- The conditions of some filters. -/
def listLeaves : List Expression → List Leaf
  | [] => []
  | operand :: rest => operand.leaves ++ listLeaves rest

end

namespace Translator

variable {translator : Translator}

/-! ### Properties -/

theorem accepts_bindShape (operator : String) (property : Property) (shape : PropertyShape)
    (number : Nat) :
    Accepts (property.inverse = false ∧ shape.Ends) (bindShape operator property shape number) ∧
      ∀ bound, bindShape operator property shape number = .ok bound →
        ∃ name, bound.2 = .var name := by
  have plain : Lowering.Plain ⟨.profile, focus, []⟩ := ⟨nofun, rfl⟩
  have ends := Lowering.ends_iff plain rfl (Shape.Scope.start (stem number)) shape
  unfold bindShape
  cases property.inverse with
  | true => exact ⟨.error (fun both => nomatch both.1) not_false, nofun⟩
  | false =>
    rw [if_neg Bool.false_ne_true]
    dsimp only
    cases lowered : Lowering.property ⟨.profile, focus, []⟩ (Shape.Scope.start (stem number))
        shape with
    | error source =>
      refine ⟨.error (fun both => ?_) not_false, nofun⟩
      obtain ⟨fragment, next, name, made, -⟩ := ends.1 both.2
      cases lowered.symm.trans made
    | ok made =>
      obtain ⟨fragment, next⟩ := made
      obtain ⟨flag, terminated, same⟩ := Lowering.terminated_property plain rfl _ lowered
      dsimp only
      generalize fragment.terminal = terminal at terminated
      cases terminated with
      | ended name =>
        refine ⟨.ok _ ⟨rfl, same.1 rfl⟩, ?_⟩
        rintro bound made
        cases made
        exact ⟨name, rfl⟩
      | endless => exact ⟨.error (fun both => nomatch same.2 both.2) not_false, nofun⟩

/-- A queryable has values under every number if it has them under one. -/
theorem bindsQueryable_iff {property : Property} {shape : PropertyShape}
    (declared : translator.shape? property = some shape) :
    translator.BindsQueryable property ↔ property.inverse = false ∧ shape.Ends := by
  have plain : Lowering.Plain ⟨.profile, focus, []⟩ := ⟨nofun, rfl⟩
  refine and_congr_right fun _ => ?_
  constructor
  · rintro ⟨other, same, number, fragment, next, terminal, lowered, ended⟩
    cases declared.symm.trans same
    obtain ⟨flag, terminated, ends⟩ := Lowering.terminated_property plain rfl _ lowered
    rw [ended] at terminated
    cases terminated
    exact ends.1 rfl
  · intro ends
    obtain ⟨fragment, next, name, lowered, ended⟩ :=
      (Lowering.ends_iff plain rfl (Shape.Scope.start (stem 1)) shape).1 ends
    exact ⟨shape, declared, 1, fragment, next, _, lowered, ended⟩

theorem accepts_bind (operator : String) (property : Property) (number : Nat) :
    Accepts (translator.Binds property) (translator.bind operator property number) := by
  unfold Translator.bind Binds
  cases declared : translator.shape? property with
  | some shape =>
    refine (accepts_bindShape operator property shape number).1.congr ?_
    rw [← bindsQueryable_iff declared]
    exact (or_iff_left fun other => nomatch other.1).symm
  | none =>
    have undeclared : ¬ translator.BindsQueryable property := by
      rintro ⟨-, shape, found, -⟩
      cases declared.symm.trans found
    unfold bindPredicate
    dsimp only
    cases found : Iri.ofText? property.name with
    | none =>
      refine .error ?_ not_false
      rintro (queryable | ⟨-, predicate, valid⟩)
      · exact undeclared queryable
      · cases found.symm.trans valid
    | some predicate => exact .ok _ (.inr ⟨rfl, predicate, found⟩)

/-- A property is bound to a variable. -/
theorem exists_var_of_bind {operator : String} {property : Property} {number : Nat}
    {bound : Group × Term} (made : translator.bind operator property number = .ok bound) :
    ∃ name, bound.2 = .var name := by
  unfold Translator.bind at made
  split at made
  · exact (accepts_bindShape ..).2 bound made
  · unfold bindPredicate at made
    split at made
    · cases made
    · cases made
      exact ⟨_, rfl⟩

/-- What is done with a variable that a property is bound to asks for the property alone. -/
theorem accepts_bind_then {α : Type} {operator : String} {property : Property} {number : Nat}
    {next : Group × Term → Except Error α}
    (later : ∀ group name, Accepts True (next (group, .var name))) :
    Accepts (translator.Binds property) (translator.bind operator property number >>= next) := by
  refine (accepts_bind ..).done fun bound made => ?_
  obtain ⟨name, named⟩ := exists_var_of_bind made
  obtain ⟨group, object⟩ := bound
  cases named
  exact later group name

/-! ### Conditions -/

theorem accepts_compare (comparison : Comparison) (property : Property) (value : Value)
    (number : Nat) :
    Accepts (translator.Binds property)
      (translator.compare comparison property value number) := by
  refine accepts_bind_then fun group name => ?_
  dsimp only
  split
  · exact .ok _ trivial
  · exact .ok _ trivial

theorem accepts_like (property : Property) (pattern : String) (number : Nat) :
    Accepts (translator.Binds property) (translator.like property pattern number) :=
  accepts_bind_then fun _ _ => .ok _ trivial

theorem accepts_oneOf (property : Property) (values : List Value) (number : Nat) :
    Accepts (translator.Binds property) (translator.oneOf property values number) :=
  accepts_bind_then fun _ _ => .ok _ trivial

theorem accepts_spatialFilter (filter : SpatialFilter) (target : SpatialTarget) :
    Accepts (¬ (filter.relation = .disjoint ∧ target = .qlever)) (filter.lower target) := by
  unfold SpatialFilter.lower
  cases target with
  | geoSparql => exact .ok _ fun both => nomatch both.2
  | graphDb => exact .ok _ fun both => nomatch both.2
  | qlever =>
    dsimp only
    cases related : filter.relation with
    | disjoint => exact .error (fun other => other ⟨rfl, rfl⟩) not_false
    | _ => exact .ok _ fun both => nomatch both.1

theorem accepts_spatial (relation : SpatialRelation) (property : Property) (geometry : Geometry)
    (number : Nat) :
    Accepts ((isOwnGeometry property = true ∨ translator.Binds property) ∧
        ¬ (relation = .disjoint ∧ translator.target = .qlever))
      (translator.spatial relation property geometry number) := by
  rw [spatial_eq]
  refine Accepts.bind ?_ fun (_, subject) _ => Accepts.done
    (accepts_spatialFilter ⟨relation, geometry, translator.system, subject, toString number⟩
      translator.target) fun _ _ => .ok _ trivial
  unfold bindGeometry
  split
  · rename_i own
    exact .ok _ (.inl own)
  · rename_i other
    exact (accepts_bind ..).congr (or_iff_right other).symm

/-! ### Temporal relations -/

theorem accepts_checkKinds (relation : TemporalRelation) (left right : OperandKind) :
    Accepts (relation.acceptsInstants = true ∨ left = .interval ∧ right = .interval)
      (relation.checkKinds left right) := by
  unfold TemporalRelation.checkKinds
  cases relation.acceptsInstants <;> cases left <;> cases right <;>
    first
      | exact .ok _ (by decide)
      | exact .error (by decide) not_false

theorem accepts_timeValue (operator : String) (count : Nat) (value : TimeValue) :
    Accepts (∀ property ∈ value.properties, translator.Binds property)
      (translator.timeValue operator count value) := by
  cases value with
  | literal literal => exact .ok _ fun _ member => absurd member List.not_mem_nil
  | property property =>
    have single : (∀ other ∈ (TimeValue.property property).properties, translator.Binds other) ↔
        translator.Binds property := List.forall_mem_singleton
    exact Accepts.congr (accepts_bind_then fun _ _ => .ok _ trivial) single.symm

theorem accepts_bound (operator : String) (count : Nat) (value : Option TimeValue) :
    Accepts (∀ property ∈ value.toList.flatMap TimeValue.properties, translator.Binds property)
      (translator.bound operator count value) := by
  cases value with
  | none => exact .ok _ fun _ member => absurd member List.not_mem_nil
  | some bounded =>
    rw [Option.toList_some, List.flatMap_singleton]
    exact (accepts_timeValue ..).done fun _ _ => .ok _ trivial

theorem accepts_period (operator : String) (count : Nat) (operand : TemporalOperand) :
    Accepts (∀ property ∈ operand.properties, translator.Binds property)
      (translator.period operator count operand) := by
  cases operand with
  | instant value => exact (accepts_timeValue ..).done fun _ _ => .ok _ trivial
  | interval start finish =>
    refine Accepts.congr ((accepts_bound operator count start).bind fun opened _ =>
      (accepts_bound operator opened.2.2 finish).done fun _ _ => .ok _ trivial) ?_
    rw [TemporalOperand.properties, List.forall_mem_append]

theorem accepts_temporal (relation : TemporalRelation) (left right : TemporalOperand)
    (count : Nat) :
    Accepts ((relation.acceptsInstants = true ∨ left.kind = .interval ∧ right.kind = .interval) ∧
        ∀ property ∈ left.properties ++ right.properties, translator.Binds property)
      (translator.temporal relation left right count) := by
  refine Accepts.congr ((accepts_checkKinds ..).bind fun _ _ =>
    (accepts_period relation.name count left).bind fun before _ =>
      (accepts_period relation.name before.2.2 right).done fun _ _ => .ok _ trivial) ?_
  rw [List.forall_mem_append]

/-! ### Filters -/

theorem accepts_function (standard : translator.functions = .standard) (name : String)
    (arguments : List Json) (number : Nat) :
    Accepts (∃ kinds, signatures.lookup name = some kinds ∧
        List.Forall₂ ArgumentKind.Fits kinds arguments)
      (translator.function name arguments number) := by
  unfold Translator.function
  rw [standard]
  rcases function?_standard name with ⟨unknown, unsigned⟩ | ⟨function, kinds, known, signed, takes⟩
  · rw [unknown]
    refine .error ?_ not_false
    rintro ⟨kinds, signed, -⟩
    cases unsigned.symm.trans signed
  · rw [known]
    dsimp only
    split
    · refine (takes.accepts ..).congr ⟨fun each => ⟨kinds, signed, each⟩, ?_⟩
      rintro ⟨others, same, each⟩
      cases signed.symm.trans same
      exact each
    · rename_i different
      refine .error ?_ not_false
      rintro ⟨others, same, each⟩
      cases signed.symm.trans same
      exact different (each.length_eq.symm.trans takes.arity)

theorem accepts_leaf (standard : translator.functions = .standard) (count : Nat)
    (condition : Leaf) :
    Accepts (condition.Resolves translator.Binds translator.target)
      (translator.leaf count condition) := by
  cases condition with
  | temporal relation left right => exact accepts_temporal relation left right count
  | compare => exact (accepts_compare ..).done fun _ _ => .ok _ trivial
  | like => exact (accepts_like ..).done fun _ _ => .ok _ trivial
  | oneOf => exact (accepts_oneOf ..).done fun _ _ => .ok _ trivial
  | spatial => exact (accepts_spatial ..).done fun _ _ => .ok _ trivial
  | function => exact (accepts_function standard ..).done fun _ _ => .ok _ trivial

mutual

/-- A filter is lowered exactly if all of its conditions resolve. -/
theorem accepts_lower (standard : translator.functions = .standard) (filter : Expression)
    (count : Nat) :
    Accepts (∀ condition ∈ filter.leaves, condition.Resolves translator.Binds translator.target)
      (translator.lower count filter) := by
  match filter with
  | .leaf condition =>
    exact (accepts_leaf standard count condition).congr List.forall_mem_singleton.symm
  | .all operands => exact accepts_lowerAll standard operands count
  | .any operands =>
    exact (accepts_lowerEach standard operands count).done fun _ _ => .ok _ trivial
  | .not operand => exact (accepts_lower standard operand count).done fun _ _ => .ok _ trivial

theorem accepts_lowerAll (standard : translator.functions = .standard)
    (operands : List Expression) (count : Nat) :
    Accepts
      (∀ condition ∈ listLeaves operands, condition.Resolves translator.Binds translator.target)
      (translator.lowerAll count operands) := by
  match operands with
  | [] => exact .ok _ fun _ member => absurd member List.not_mem_nil
  | operand :: rest =>
    rw [listLeaves, List.forall_mem_append]
    exact (accepts_lower standard operand count).bind fun first _ =>
      (accepts_lowerAll standard rest first.2).done fun _ _ => .ok _ trivial

theorem accepts_lowerEach (standard : translator.functions = .standard)
    (operands : List Expression) (count : Nat) :
    Accepts
      (∀ condition ∈ listLeaves operands, condition.Resolves translator.Binds translator.target)
      (translator.lowerEach count operands) := by
  match operands with
  | [] => exact .ok _ fun _ member => absurd member List.not_mem_nil
  | operand :: rest =>
    rw [listLeaves, List.forall_mem_append]
    exact (accepts_lower standard operand count).bind fun first _ =>
      (accepts_lowerEach standard rest first.2).done fun _ _ => .ok _ trivial

end

theorem accepts_query (standard : translator.functions = .standard) (filter : Expression) :
    Accepts (∀ condition ∈ filter.leaves, condition.Resolves translator.Binds translator.target)
      (translator.query filter) :=
  ((accepts_lower standard filter 0).done fun _ _ => .ok _ trivial).done fun _ _ => .ok _ trivial

end Translator

end ShapeQuery.Filter
