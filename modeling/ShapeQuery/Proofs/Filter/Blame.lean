/-
This file tells whose fault it is that a filter cannot be lowered. Nothing but the shape of a
queryable makes an error tell of a shape: the readers of documents, the spatial and temporal
relations and the standard functions only find fault with the document.
-/
import ShapeQuery.Filter.Lowering
import ShapeQuery.Proofs.Failure

namespace ShapeQuery.Filter

open Sparql (Variable Comparison)

/-- Whether an error finds fault with a filter, and not with the shape of a queryable. -/
def Error.IsOwn : Error → Prop
  | .queryable _ _ => False
  | _ => True

/-! ### Values -/

theorem blame_timeLiteral {α : Type} (read : String → Except Calendar.Fault α) (datatype : Iri)
    (value : Json) : FailsOnly Error.IsOwn (timeLiteral read datatype value) := by
  unfold timeLiteral
  split
  · split
    · exact .ok _
    · exact .error trivial
  · exact .error trivial

theorem blame_dateOrTimeLiteral (text : String) :
    FailsOnly Error.IsOwn (dateOrTimeLiteral text) := by
  unfold dateOrTimeLiteral
  split <;> exact blame_timeLiteral _ _ _

theorem Value.blame_ofJson (operator : String) (value : Json) :
    FailsOnly Error.IsOwn (ofJson operator value) := by
  unfold ofJson
  split
  · split
    · split
      · exact .ok _
      · exact .error trivial
    · exact .ok _
  · exact .ok _
  · exact .ok _
  · split
    · exact (blame_timeLiteral _ _ _).map _
    · exact (blame_timeLiteral _ _ _).map _
    · exact .error trivial
  · exact .error trivial

theorem Value.blame_listOfJson (operator : String) (value : Json) :
    FailsOnly Error.IsOwn (listOfJson operator value) := by
  unfold listOfJson
  split
  · exact .error trivial
  · exact .mapM fun value _ => blame_ofJson operator value
  · exact (blame_ofJson operator value).map _

theorem Property.blame_ofJson (operator : String) (value : Json) :
    FailsOnly Error.IsOwn (ofJson operator value) := by
  unfold ofJson
  split
  · exact .ok _
  · exact .error trivial

/-! ### Geometries and periods -/

theorem Geometry.blame_ofBox (values : List Number.Binary64) :
    FailsOnly Error.IsOwn (ofBox values) := by
  unfold ofBox
  split
  · exact .ok _
  · exact .error trivial
  · exact .error trivial

theorem Geometry.blame_ofJson (value : Json) : FailsOnly Error.IsOwn (ofJson value) := by
  unfold ofJson
  split
  · unfold boxOfJson
    split
    · exact blame_ofBox _
    · exact .error trivial
  · exact (FailsOnly.mapError fun _ _ => trivial).bind fun geometry =>
      (FailsOnly.mapError fun _ _ => trivial).bind fun _ => .ok geometry

theorem TimeValue.blame_ofJson (operator : String) (value : Json) :
    FailsOnly Error.IsOwn (ofJson operator value) := by
  unfold ofJson
  split
  · exact (blame_dateOrTimeLiteral _).map _
  · split
    · exact (Property.blame_ofJson _ _).map _
    · split
      · exact (blame_timeLiteral _ _ _).map _
      · exact (blame_timeLiteral _ _ _).map _
      · exact .error trivial
  · exact .error trivial

theorem blame_boundOfJson (operator : String) (value : Json) :
    FailsOnly Error.IsOwn (boundOfJson operator value) := by
  unfold boundOfJson
  split
  · exact .ok _
  · exact (TimeValue.blame_ofJson _ _).map _

theorem TemporalOperand.blame_ofJson (operator : String) (value : Json) :
    FailsOnly Error.IsOwn (ofJson operator value) := by
  unfold ofJson
  split
  · split
    · exact (blame_boundOfJson _ _).bind fun start =>
        (blame_boundOfJson _ _).bind fun finish => .ok _
    · exact .error trivial
  · split
    · exact .error trivial
    · exact (TimeValue.blame_ofJson _ _).bind fun value => .ok _

/-! ### Documents -/

theorem blame_twoArguments (operator : String) (arguments : List Json) :
    FailsOnly Error.IsOwn (twoArguments operator arguments) := by
  unfold twoArguments
  split
  · exact .ok _
  · exact .error trivial

theorem Leaf.blame_ofJson (operator : String) (arguments : List Json) :
    FailsOnly Error.IsOwn (ofJson operator arguments) := by
  unfold ofJson
  split
  · exact (blame_twoArguments _ _).bind fun _ => (Property.blame_ofJson _ _).bind fun _ =>
      (Value.blame_ofJson _ _).bind fun _ => .ok _
  · split
    · exact (blame_twoArguments _ _).bind fun _ => (Property.blame_ofJson _ _).bind fun _ =>
        (Geometry.blame_ofJson _).bind fun _ => .ok _
    · split
      · exact (blame_twoArguments _ _).bind fun _ => (TemporalOperand.blame_ofJson _ _).bind
          fun _ => (TemporalOperand.blame_ofJson _ _).bind fun _ => .ok _
      · split
        · refine (blame_twoArguments _ _).bind fun both => ?_
          obtain ⟨property, pattern⟩ := both
          dsimp only
          split
          · exact (Property.blame_ofJson _ _).bind fun _ => .ok _
          · exact .error trivial
        · split
          · unfold oneOfOfJson
            split
            · exact (Value.blame_listOfJson _ _).bind fun _ =>
                (Property.blame_ofJson _ _).bind fun _ => .ok _
            · exact (FailsOnly.mapM fun _ _ => Value.blame_ofJson _ _).bind fun _ =>
                (Property.blame_ofJson _ _).bind fun _ => .ok _
            · exact .error trivial
          · exact .ok _

/-- A document that cannot be read is at fault itself. -/
theorem Expression.blame_ofJson (document : Json) :
    FailsOnly Error.IsOwn (Expression.ofJson document) := by
  rw [Expression.ofJson]
  split
  · exact .error trivial
  · rename_i node _
    split
    · split
      · exact .error trivial
      · refine FailsOnly.bind (.mapM fun argument _ => ?_) fun operands => .ok _
        have := node.smaller argument.1 argument.2
        exact Expression.blame_ofJson argument.1
    · split
      · split
        · rename_i operand smaller _ _
          have := smaller operand List.mem_cons_self
          exact (Expression.blame_ofJson operand).map _
        · exact .error trivial
      · exact (Leaf.blame_ofJson _ _).map _
termination_by sizeOf document

/-! ### Relations and functions -/

theorem SpatialFilter.blame_lower (filter : SpatialFilter) (target : SpatialTarget) :
    FailsOnly Error.IsOwn (filter.lower target) := by
  unfold lower
  split
  · exact .ok _
  · exact .ok _
  · split
    · exact .ok _
    · exact .error trivial

theorem TemporalRelation.blame_checkKinds (relation : TemporalRelation)
    (left right : OperandKind) : FailsOnly Error.IsOwn (relation.checkKinds left right) := by
  unfold checkKinds
  split
  · exact .error trivial
  · exact .ok _

/-- Whether a function finds fault with its arguments only. -/
def FilterFunction.IsSparing (function : FilterFunction) : Prop :=
  ∀ focus arguments suffix, FailsOnly Error.IsOwn (function.lower focus arguments suffix)

/-- Whether all functions of a registry find fault with their arguments only. -/
def Registry.IsSparing (registry : Registry) : Prop :=
  ∀ function ∈ registry.functions, function.IsSparing

theorem blame_predicateArgument (operator : String) (value : Json) :
    FailsOnly Error.IsOwn (predicateArgument operator value) := by
  unfold predicateArgument
  split
  · exact .ok _
  · exact .error trivial

theorem blame_valuesElement (operator : String) (target : Variable) (value : Json) :
    FailsOnly Error.IsOwn (valuesElement operator target value) :=
  (Value.blame_listOfJson _ _).bind fun _ => .ok _

theorem Registry.standard_isSparing : Registry.standard.IsSparing := by
  have tables (operator : String) (first second : Variable) (left right : Json)
      (group : Sparql.Element → Sparql.Element → Sparql.Group) :
      FailsOnly Error.IsOwn (do
        let one ← valuesElement operator first left
        let other ← valuesElement operator second right
        return group one other) :=
    (blame_valuesElement _ _ _).bind fun _ => (blame_valuesElement _ _ _).bind fun _ => .ok _
  unfold Registry.IsSparing Registry.standard
  simp only [List.forall_mem_cons]
  refine ⟨?_, ?_, ?_, ?_, ?_, ?_, List.forall_mem_nil _⟩
  · exact fun _ _ _ => (blame_predicateArgument _ _).bind fun _ => (Value.blame_ofJson _ _).bind
      fun _ => (blame_predicateArgument _ _).bind fun _ => (Value.blame_ofJson _ _).bind
        fun _ => .ok _
  · exact fun _ _ _ => (blame_predicateArgument _ _).bind fun _ => (Value.blame_ofJson _ _).bind
      fun _ => (blame_predicateArgument _ _).bind fun _ => (blame_predicateArgument _ _).bind
        fun _ => (Value.blame_ofJson _ _).bind fun _ => .ok _
  all_goals exact fun _ _ _ => tables _ _ _ _ _ _

/-! ### Lowering -/

namespace Translator

/-- Whether a queryable is declared with a shape that cannot be lowered. -/
def Faulty (translator : Translator) (name : String) (source : Shape.Error) : Prop :=
  ∃ shape number, translator.queryables.lookup name = some shape ∧
    Lowering.property ⟨.profile, focus, []⟩ (Shape.Scope.start (stem number)) shape =
      .error source

/-- Whether an error is deserved: a queryable is only blamed if its shape is at fault. -/
def Blames (translator : Translator) : Error → Prop
  | .queryable name source => translator.Faulty name source
  | _ => True

variable (translator : Translator)

theorem blames_of_own {α : Type} {computed : Except Error α}
    (own : FailsOnly Error.IsOwn computed) : FailsOnly translator.Blames computed := by
  refine own.mono fun fault isOwn => ?_
  cases fault with
  | queryable name source => cases isOwn
  | _ => trivial

theorem blame_operand (operator : String) (term : Sparql.Term) :
    FailsOnly translator.Blames (operand operator term) := by
  unfold operand
  split
  · exact .ok _
  · exact .error trivial

theorem blame_bind (operator : String) (property : Property) (number : Nat) :
    FailsOnly translator.Blames (translator.bind operator property number) := by
  unfold Translator.bind
  split
  · rename_i shape declared
    unfold bindShape
    split
    · exact .error trivial
    · dsimp only
      split
      · rename_i source failed
        exact .error ⟨shape, number, declared, failed⟩
      · split
        · exact .ok _
        · exact .error trivial
  · unfold bindPredicate
    split
    · exact .error trivial
    · exact .ok _

theorem blame_compare (comparison : Comparison) (property : Property) (value : Value)
    (number : Nat) :
    FailsOnly translator.Blames (translator.compare comparison property value number) := by
  refine (translator.blame_bind _ _ _).bind fun bound => ?_
  obtain ⟨group, object⟩ := bound
  dsimp only
  split
  · exact .ok _
  · exact (translator.blame_operand _ _).bind fun _ => .ok _

theorem blame_like (property : Property) (pattern : String) (number : Nat) :
    FailsOnly translator.Blames (translator.like property pattern number) :=
  (translator.blame_bind _ _ _).bind fun _ => (translator.blame_operand _ _).bind fun _ => .ok _

theorem blame_oneOf (property : Property) (values : List Value) (number : Nat) :
    FailsOnly translator.Blames (translator.oneOf property values number) := by
  refine (translator.blame_bind _ _ _).bind fun bound => ?_
  obtain ⟨group, object⟩ := bound
  dsimp only
  split
  · exact .ok _
  · exact (translator.blame_operand _ _).bind fun _ => .ok _

theorem blame_spatial (relation : SpatialRelation) (property : Property) (geometry : Geometry)
    (number : Nat) :
    FailsOnly translator.Blames (translator.spatial relation property geometry number) := by
  unfold spatial
  dsimp only
  split
  · exact (translator.blames_of_own (SpatialFilter.blame_lower _ _)).bind fun _ => .ok _
  · exact (translator.blame_bind _ _ _).bind fun _ =>
      (translator.blames_of_own (SpatialFilter.blame_lower _ _)).bind fun _ => .ok _

theorem blame_timeValue (operator : String) (count : Nat) (value : TimeValue) :
    FailsOnly translator.Blames (translator.timeValue operator count value) := by
  cases value with
  | literal value => exact .ok _
  | property property =>
    exact (translator.blame_bind _ _ _).bind fun _ =>
      (translator.blame_operand _ _).bind fun _ => .ok _

theorem blame_bound (operator : String) (count : Nat) (value : Option TimeValue) :
    FailsOnly translator.Blames (translator.bound operator count value) := by
  cases value with
  | none => exact .ok _
  | some value => exact (translator.blame_timeValue _ _ _).bind fun _ => .ok _

theorem blame_period (operator : String) (count : Nat) (operand : TemporalOperand) :
    FailsOnly translator.Blames (translator.period operator count operand) := by
  cases operand with
  | instant value => exact (translator.blame_timeValue _ _ _).bind fun _ => .ok _
  | interval start finish =>
    exact (translator.blame_bound _ _ _).bind fun _ =>
      (translator.blame_bound _ _ _).bind fun _ => .ok _

theorem blame_temporal (relation : TemporalRelation) (left right : TemporalOperand)
    (count : Nat) :
    FailsOnly translator.Blames (translator.temporal relation left right count) :=
  (translator.blames_of_own (relation.blame_checkKinds _ _)).bind fun _ =>
    (translator.blame_period _ _ _).bind fun _ =>
      (translator.blame_period _ _ _).bind fun _ => .ok _

theorem blame_function (sparing : translator.functions.IsSparing) (name : String)
    (arguments : List Json) (number : Nat) :
    FailsOnly translator.Blames (translator.function name arguments number) := by
  unfold Translator.function
  split
  · exact .error trivial
  · rename_i function found
    split
    · exact translator.blames_of_own (sparing function (List.mem_of_find?_eq_some found) _ _ _)
    · exact .error trivial

theorem blame_leaf (sparing : translator.functions.IsSparing) (count : Nat) (leaf : Leaf) :
    FailsOnly translator.Blames (translator.leaf count leaf) := by
  cases leaf with
  | compare => exact (translator.blame_compare _ _ _ _).bind fun _ => .ok _
  | like => exact (translator.blame_like _ _ _).bind fun _ => .ok _
  | oneOf => exact (translator.blame_oneOf _ _ _).bind fun _ => .ok _
  | spatial => exact (translator.blame_spatial _ _ _ _).bind fun _ => .ok _
  | temporal => exact translator.blame_temporal _ _ _ _
  | function => exact (translator.blame_function sparing _ _ _).bind fun _ => .ok _

mutual

/-- At every depth of a filter, a queryable is only blamed if its shape is at fault. -/
theorem blame_lower (sparing : translator.functions.IsSparing) (count : Nat)
    (filter : Expression) :
    FailsOnly translator.Blames (translator.lower count filter) := by
  match filter with
  | .leaf leaf => exact translator.blame_leaf sparing count leaf
  | .all operands => exact blame_lowerAll sparing count operands
  | .any operands => exact (blame_lowerEach sparing count operands).bind fun _ => .ok _
  | .not operand => exact (blame_lower sparing count operand).bind fun _ => .ok _

theorem blame_lowerAll (sparing : translator.functions.IsSparing) (count : Nat)
    (operands : List Expression) :
    FailsOnly translator.Blames (translator.lowerAll count operands) := by
  match operands with
  | [] => exact .ok _
  | operand :: rest =>
    exact (blame_lower sparing count operand).bind fun lowered =>
      (blame_lowerAll sparing lowered.2 rest).bind fun _ => .ok _

theorem blame_lowerEach (sparing : translator.functions.IsSparing) (count : Nat)
    (operands : List Expression) :
    FailsOnly translator.Blames (translator.lowerEach count operands) := by
  match operands with
  | [] => exact .ok _
  | operand :: rest =>
    exact (blame_lower sparing count operand).bind fun lowered =>
      (blame_lowerEach sparing lowered.2 rest).bind fun _ => .ok _

end

theorem blame_translate (sparing : translator.functions.IsSparing) (filter : Expression) :
    FailsOnly translator.Blames (translator.translate filter) :=
  (translator.blame_lower sparing 0 filter).bind fun _ => .ok _

end Translator

end ShapeQuery.Filter
