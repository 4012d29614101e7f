/-
This file gives the grammar of filters and proves that a document is read to a filter exactly if the
grammar derives the filter from it: the conditions with their operators and arguments first, then
the nodes of documents, then the filters that connectives make of others.
-/
import ShapeQuery.Proofs.Filter.Arguments

namespace ShapeQuery.Filter

open Sparql (Comparison)
open Success (bind_ok error_ne_ok map_ok)

/-! ### Conditions -/

/-- The symbols of comparisons; inequality has two of them. -/
def comparisonSymbols : List (String × Comparison) :=
  [("=", .equal), ("<>", .notEqual), ("!=", .notEqual), ("<", .less), ("<=", .lessOrEqual),
   (">", .greater), (">=", .greaterOrEqual)]

/-- The operators of conditions that are not functions. -/
def leafOperators : List String :=
  comparisonSymbols.map Prod.fst ++ SpatialRelation.all.map SpatialRelation.name ++
    TemporalRelation.all.map TemporalRelation.name ++ ["like", "in"]

/-- A condition with its operator and arguments. Whatever is not an operator of another condition
is the name of a function. -/
inductive Leaf.Form : String → List Json → Leaf → Prop
  | compare {symbol : String} {comparison : Comparison} {first second : Json} {property : Property}
    {value : Value} (compares : (symbol, comparison) ∈ comparisonSymbols)
    (propertyForm : Property.Form first property) (valueForm : Value.Form second value) :
    Form symbol [first, second] (.compare comparison property value)
  | like {first : Json} {property : Property} {pattern : String}
    (propertyForm : Property.Form first property) :
    Form "like" [first, .string pattern] (.like property pattern)
  | listed {first : Json} {elements : List Json} {property : Property} {values : List Value}
    (propertyForm : Property.Form first property) (given : elements ≠ [])
    (each : List.Forall₂ Value.Form elements values) :
    Form "in" [first, .array elements] (.oneOf property values)
  | flattened {first : Json} {elements : List Json} {property : Property} {values : List Value}
    (propertyForm : Property.Form first property) (given : elements ≠ [])
    (each : List.Forall₂ Value.Form elements values) :
    Form "in" (first :: elements) (.oneOf property values)
  | spatial {relation : SpatialRelation} {first second : Json} {property : Property}
    {geometry : Geometry} (propertyForm : Property.Form first property)
    (geometryForm : Geometry.Form second geometry) :
    Form relation.name [first, second] (.spatial relation property geometry)
  | temporal {relation : TemporalRelation} {first second : Json} {left right : TemporalOperand}
    (leftForm : TemporalOperand.Form first left) (rightForm : TemporalOperand.Form second right) :
    Form relation.name [first, second] (.temporal relation left right)
  | function {name : String} {arguments : List Json} (other : name ∉ leafOperators) :
    Form name arguments (.function name arguments)

theorem comparison_ofSymbol?_iff {symbol : String} {comparison : Comparison} :
    Comparison.ofSymbol? symbol = some comparison ↔ (symbol, comparison) ∈ comparisonSymbols := by
  constructor
  · intro found
    unfold Comparison.ofSymbol? at found
    split at found <;> cases found <;> decide
  · intro member
    simp only [comparisonSymbols, List.mem_cons, List.not_mem_nil, or_false,
      Prod.mk.injEq] at member
    rcases member with ⟨rfl, rfl⟩ | ⟨rfl, rfl⟩ | ⟨rfl, rfl⟩ | ⟨rfl, rfl⟩ | ⟨rfl, rfl⟩ | ⟨rfl, rfl⟩ |
      ⟨rfl, rfl⟩ <;> rfl

theorem twoArguments_ok {operator : String} {arguments : List Json} {both : Json × Json} :
    twoArguments operator arguments = .ok both ↔ arguments = [both.1, both.2] := by
  obtain ⟨first, second⟩ := both
  constructor
  · intro succeeds
    unfold twoArguments at succeeds
    split at succeeds
    · cases succeeds
      rfl
    · cases succeeds
  · rintro rfl
    rfl

theorem SpatialRelation.ofName?_iff {name : String} {relation : SpatialRelation} :
    ofName? name = some relation ↔ relation.name = name := by
  constructor
  · intro found
    simpa using List.find?_some found
  · rintro rfl
    cases relation <;> rfl

theorem TemporalRelation.ofName?_iff {name : String} {relation : TemporalRelation} :
    ofName? name = some relation ↔ relation.name = name := by
  constructor
  · intro found
    simpa using List.find?_some found
  · rintro rfl
    cases relation <;> rfl

namespace Leaf

/-- A condition on two arguments is read from exactly two documents of their forms. -/
theorem ofTwoArguments_ok {α β : Type} {readFirst : Json → Except Error α}
    {readSecond : Json → Except Error β} {firstForm : Json → α → Prop}
    {secondForm : Json → β → Prop}
    (firstReads : Reads readFirst firstForm) (secondReads : Reads readSecond secondForm)
    {operator : String} {make : α → β → Leaf} {arguments : List Json} {condition : Leaf} :
    (do
      let both ← twoArguments operator arguments
      let left ← readFirst both.1
      return make left (← readSecond both.2)) = .ok condition ↔
      ∃ first second left right, arguments = [first, second] ∧ firstForm first left ∧
        secondForm second right ∧ condition = make left right := by
  constructor
  · intro succeeds
    obtain ⟨⟨first, second⟩, given, further⟩ := bind_ok.1 succeeds
    obtain ⟨left, leftRead, further⟩ := bind_ok.1 further
    obtain ⟨right, rightRead, total⟩ := bind_ok.1 further
    cases total
    exact ⟨first, second, left, right, twoArguments_ok.1 given, (firstReads ..).1 leftRead,
      (secondReads ..).1 rightRead, rfl⟩
  · rintro ⟨first, second, left, right, rfl, leftForm, rightForm, rfl⟩
    exact bind_ok.2 ⟨(first, second), rfl,
      bind_ok.2 ⟨left, (firstReads ..).2 leftForm,
        bind_ok.2 ⟨right, (secondReads ..).2 rightForm, rfl⟩⟩⟩

theorem compareOfJson_ok {operator : String} {comparison : Comparison} {arguments : List Json}
    {condition : Leaf} :
    compareOfJson operator comparison arguments = .ok condition ↔
      ∃ first second property value, arguments = [first, second] ∧ Property.Form first property ∧
        Value.Form second value ∧ condition = .compare comparison property value :=
  ofTwoArguments_ok (Property.reads operator) (Value.reads operator)

theorem spatialOfJson_ok {operator : String} {relation : SpatialRelation} {arguments : List Json}
    {condition : Leaf} :
    spatialOfJson operator relation arguments = .ok condition ↔
      ∃ first second property geometry, arguments = [first, second] ∧
        Property.Form first property ∧ Geometry.Form second geometry ∧
          condition = .spatial relation property geometry :=
  ofTwoArguments_ok (Property.reads operator) Geometry.reads

theorem temporalOfJson_ok {operator : String} {relation : TemporalRelation}
    {arguments : List Json} {condition : Leaf} :
    temporalOfJson operator relation arguments = .ok condition ↔
      ∃ first second left right, arguments = [first, second] ∧
        TemporalOperand.Form first left ∧ TemporalOperand.Form second right ∧
          condition = .temporal relation left right :=
  ofTwoArguments_ok (TemporalOperand.reads operator) (TemporalOperand.reads operator)

theorem likeOfJson_ok {arguments : List Json} {condition : Leaf} :
    likeOfJson arguments = .ok condition ↔
      ∃ first property pattern, arguments = [first, .string pattern] ∧
        Property.Form first property ∧ condition = .like property pattern := by
  constructor
  · intro succeeds
    obtain ⟨⟨first, second⟩, given, further⟩ := bind_ok.1 succeeds
    dsimp only at further
    split at further
    · rename_i pattern
      obtain ⟨property, read, total⟩ := bind_ok.1 further
      cases total
      exact ⟨first, property, pattern, twoArguments_ok.1 given, (Property.reads "like" ..).1 read,
        rfl⟩
    · cases further
  · rintro ⟨first, property, pattern, rfl, form, rfl⟩
    exact bind_ok.2 ⟨(first, .string pattern), rfl,
      bind_ok.2 ⟨property, (Property.reads "like" ..).2 form, rfl⟩⟩

theorem oneOfOfJson_ok {arguments : List Json} {condition : Leaf} :
    oneOfOfJson arguments = .ok condition ↔
      ∃ first property elements values,
        (arguments = [first, .array elements] ∨ arguments = first :: elements) ∧ elements ≠ [] ∧
          Property.Form first property ∧ List.Forall₂ Value.Form elements values ∧
            condition = .oneOf property values := by
  constructor
  · intro succeeds
    unfold oneOfOfJson at succeeds
    split at succeeds
    · rename_i first elements
      obtain ⟨values, valuesRead, further⟩ := bind_ok.1 succeeds
      obtain ⟨property, read, total⟩ := bind_ok.1 further
      cases total
      cases (Value.reads_list "in" ..).1 valuesRead with
      | listed given each =>
        exact ⟨first, property, elements, values, .inl rfl, given,
          (Property.reads "in" ..).1 read, each, rfl⟩
      | single form => cases form
    · rename_i first second rest _
      obtain ⟨values, valuesRead, further⟩ := bind_ok.1 succeeds
      obtain ⟨property, read, total⟩ := bind_ok.1 further
      cases total
      exact ⟨first, property, second :: rest, values, .inr rfl, List.cons_ne_nil _ _,
        (Property.reads "in" ..).1 read, ((Value.reads "in").mapM ..).1 valuesRead, rfl⟩
    · cases succeeds
  · rintro ⟨first, property, elements, values, rfl | rfl, given, form, each, rfl⟩
    · exact bind_ok.2 ⟨values, (Value.reads_list "in" ..).2 (.listed given each),
        bind_ok.2 ⟨property, (Property.reads "in" ..).2 form, rfl⟩⟩
    · unfold oneOfOfJson
      split
      · rename_i same
        cases same
        cases each with
        | cons head _ => cases head
      · rename_i same
        cases same
        exact bind_ok.2 ⟨values, ((Value.reads "in").mapM ..).2 each,
          bind_ok.2 ⟨property, (Property.reads "in" ..).2 form, rfl⟩⟩
      · rename_i other
        cases elements with
        | nil => exact absurd rfl given
        | cons second rest => exact absurd rfl (other first second rest)

theorem ofJson_spatial (relation : SpatialRelation) (arguments : List Json) :
    Leaf.ofJson relation.name arguments = spatialOfJson relation.name relation arguments := by
  cases relation <;> rfl

theorem ofJson_temporal (relation : TemporalRelation) (arguments : List Json) :
    Leaf.ofJson relation.name arguments = temporalOfJson relation.name relation arguments := by
  cases relation <;> rfl

/-- What is not an operator of another condition is read as the name of a function. -/
theorem ofJson_function {name : String} (other : name ∉ leafOperators) (arguments : List Json) :
    Leaf.ofJson name arguments = .ok (.function name arguments) := by
  simp only [leafOperators, List.mem_append, List.mem_map, List.mem_cons, List.not_mem_nil,
    or_false, not_or] at other
  obtain ⟨⟨⟨incomparable, notSpatial⟩, notTemporal⟩, notLike, notIn⟩ := other
  have comparison : Comparison.ofSymbol? name = none :=
    Option.eq_none_iff_forall_ne_some.2 fun _ found =>
      incomparable ⟨_, comparison_ofSymbol?_iff.1 found, rfl⟩
  have spatial : SpatialRelation.ofName? name = none :=
    Option.eq_none_iff_forall_ne_some.2 fun relation found =>
      notSpatial ⟨relation, List.mem_of_find?_eq_some found, SpatialRelation.ofName?_iff.1 found⟩
  have temporal : TemporalRelation.ofName? name = none :=
    Option.eq_none_iff_forall_ne_some.2 fun relation found =>
      notTemporal ⟨relation, List.mem_of_find?_eq_some found, TemporalRelation.ofName?_iff.1 found⟩
  unfold Leaf.ofJson
  rw [comparison, spatial, temporal]
  dsimp only
  rw [if_neg notLike, if_neg notIn]

theorem reads (operator : String) : Reads (Leaf.ofJson operator) (Leaf.Form operator) := by
  intro arguments condition
  constructor
  · intro succeeds
    unfold Leaf.ofJson at succeeds
    split at succeeds
    · rename_i comparison compares
      obtain ⟨first, second, property, value, rfl, propertyForm, valueForm, rfl⟩ :=
        compareOfJson_ok.1 succeeds
      exact .compare (comparison_ofSymbol?_iff.1 compares) propertyForm valueForm
    rename_i incomparable
    split at succeeds
    · rename_i relation named
      obtain ⟨first, second, property, geometry, rfl, propertyForm, geometryForm, rfl⟩ :=
        spatialOfJson_ok.1 succeeds
      rw [← SpatialRelation.ofName?_iff.1 named]
      exact .spatial propertyForm geometryForm
    rename_i notSpatial
    split at succeeds
    · rename_i relation named
      obtain ⟨first, second, left, right, rfl, leftForm, rightForm, rfl⟩ :=
        temporalOfJson_ok.1 succeeds
      rw [← TemporalRelation.ofName?_iff.1 named]
      exact .temporal leftForm rightForm
    rename_i notTemporal
    split at succeeds
    · rename_i named
      obtain ⟨first, property, pattern, rfl, form, rfl⟩ := likeOfJson_ok.1 succeeds
      rw [named]
      exact .like form
    rename_i notLike
    split at succeeds
    · rename_i named
      rw [named]
      obtain ⟨first, property, elements, values, rfl | rfl, given, form, each, rfl⟩ :=
        oneOfOfJson_ok.1 succeeds
      · exact .listed form given each
      · exact .flattened form given each
    rename_i notIn
    cases succeeds
    refine .function fun member => ?_
    simp only [leafOperators, List.mem_append, List.mem_map, List.mem_cons, List.not_mem_nil,
      or_false] at member
    rcases member with ((⟨⟨symbol, comparison⟩, member, rfl⟩ | ⟨relation, -, rfl⟩) |
      ⟨relation, -, rfl⟩) | rfl | rfl
    · rw [comparison_ofSymbol?_iff.2 member] at incomparable
      cases incomparable
    · rw [SpatialRelation.ofName?_iff.2 rfl] at notSpatial
      cases notSpatial
    · rw [TemporalRelation.ofName?_iff.2 rfl] at notTemporal
      cases notTemporal
    · exact notLike rfl
    · exact notIn rfl
  · intro form
    cases form with
    | compare compares propertyForm valueForm =>
      unfold Leaf.ofJson
      rw [comparison_ofSymbol?_iff.2 compares]
      exact compareOfJson_ok.2 ⟨_, _, _, _, rfl, propertyForm, valueForm, rfl⟩
    | like form => exact likeOfJson_ok.2 ⟨_, _, _, rfl, form, rfl⟩
    | listed form given each =>
      exact oneOfOfJson_ok.2 ⟨_, _, _, _, .inl rfl, given, form, each, rfl⟩
    | flattened form given each =>
      exact oneOfOfJson_ok.2 ⟨_, _, _, _, .inr rfl, given, form, each, rfl⟩
    | spatial propertyForm geometryForm =>
      rw [ofJson_spatial]
      exact spatialOfJson_ok.2 ⟨_, _, _, _, rfl, propertyForm, geometryForm, rfl⟩
    | temporal leftForm rightForm =>
      rw [ofJson_temporal]
      exact temporalOfJson_ok.2 ⟨_, _, _, _, rfl, leftForm, rightForm, rfl⟩
    | function other => exact ofJson_function other arguments

end Leaf

/-! ### Documents -/

/-- An operator with its arguments: the members of an object, or the elements of an array. An
operator may stand without arguments. -/
inductive Node.Form : Json → String → List Json → Prop
  | object {members : List (String × Json)} {operator : String} {arguments : List Json}
    (named : Json.lookup "op" members = some (.string operator))
    (given : Json.lookup "args" members = some (.array arguments)) :
    Form (.object members) operator arguments
  | bareObject {members : List (String × Json)} {operator : String}
    (named : Json.lookup "op" members = some (.string operator))
    (absent : Json.lookup "args" members = none) : Form (.object members) operator []
  | array (operator : String) (arguments : List Json) :
    Form (.array [.string operator, .array arguments]) operator arguments
  | bareArray (operator : String) : Form (.array [.string operator]) operator []

/-- The operators that combine filters. -/
def connectives : List String := ["and", "or", "not"]

/-- A filter: a conjunction or disjunction of at least one filter, the negation of one, or a
condition. -/
inductive Expression.Form : Json → Expression → Prop
  | all {document : Json} {arguments : List Json} {operands : List Expression}
    (node : Node.Form document "and" arguments) (given : arguments ≠ [])
    (each : List.Forall₂ Expression.Form arguments operands) : Form document (.all operands)
  | any {document : Json} {arguments : List Json} {operands : List Expression}
    (node : Node.Form document "or" arguments) (given : arguments ≠ [])
    (each : List.Forall₂ Expression.Form arguments operands) : Form document (.any operands)
  | not {document argument : Json} {operand : Expression}
    (node : Node.Form document "not" [argument]) (form : Expression.Form argument operand) :
    Form document (.not operand)
  | leaf {document : Json} {operator : String} {arguments : List Json} {condition : Leaf}
    (node : Node.Form document operator arguments) (other : operator ∉ connectives)
    (form : Leaf.Form operator arguments condition) : Form document (.leaf condition)

theorem Node.arguments?_ok {document : Json} {value : Option Json}
    {smaller : ∀ argument, value = some argument → sizeOf argument < sizeOf document}
    {arguments : { arguments : List Json // ∀ argument ∈ arguments,
      sizeOf argument < sizeOf document }} :
    Node.arguments? document value smaller = .ok arguments ↔
      (value = none ∧ arguments.1 = []) ∨ value = some (.array arguments.1) := by
  obtain ⟨arguments, small⟩ := arguments
  constructor
  · intro succeeds
    unfold Node.arguments? at succeeds
    split at succeeds
    · cases succeeds
      exact .inl ⟨rfl, rfl⟩
    · cases succeeds
      exact .inr rfl
    · cases succeeds
  · rintro (⟨rfl, same⟩ | rfl)
    · dsimp only at same
      subst same
      rfl
    · rfl

theorem readString_ok {document : Json} {text : String} :
    Json.readString document = .ok text ↔ document = .string text := by
  cases document with
  | string other =>
    exact ⟨fun same => congrArg Json.string (Except.ok.inj same),
      fun same => congrArg Except.ok (Json.string.inj same)⟩
  | _ => exact iff_of_false nofun nofun

/-- Exactly what has the form of a node is read as one. -/
theorem Node.ofJson_ok {document : Json} {operator : String} {arguments : List Json} :
    (∃ node, Node.ofJson document = .ok node ∧ node.operator = operator ∧
      node.arguments = arguments) ↔ Node.Form document operator arguments := by
  constructor
  · rintro ⟨node, succeeds, rfl, rfl⟩
    unfold Node.ofJson at succeeds
    split at succeeds
    · rename_i members
      obtain ⟨⟨arguments, small⟩, given, further⟩ := bind_ok.1 succeeds
      dsimp only at further
      split at further
      · cases further
      · rename_i value named
        obtain ⟨operator, read, total⟩ := bind_ok.1 further
        cases total
        rw [readString_ok.1 read] at named
        rcases Node.arguments?_ok.1 given with ⟨absent, same⟩ | given
        · cases same
          exact .bareObject named absent
        · exact .object named given
    · cases succeeds
    · rename_i value rest
      obtain ⟨operator, read, further⟩ := bind_ok.1 succeeds
      obtain ⟨⟨arguments, small⟩, given, further⟩ := bind_ok.1 further
      dsimp only at further
      split at further
      · cases further
      · rename_i short
        cases further
        obtain rfl := readString_ok.1 read
        match rest, short with
        | [], _ =>
          rcases Node.arguments?_ok.1 given with ⟨-, same⟩ | impossible
          · cases same
            exact .bareArray operator
          · cases impossible
        | [argument], _ =>
          rcases Node.arguments?_ok.1 given with ⟨impossible, -⟩ | same
          · cases impossible
          · obtain rfl : argument = .array arguments := Option.some.inj same
            exact .array operator arguments
        | _ :: _ :: _, short =>
          simp at short
    · cases succeeds
  · intro form
    cases form with
    | object named given =>
      have small (argument : Json) (member : argument ∈ arguments) :=
        Nat.lt_trans (sizeOf_lt_of_mem_array member) (sizeOf_lt_of_lookup given)
      refine ⟨⟨operator, arguments, small⟩,
        bind_ok.2 ⟨⟨arguments, small⟩, Node.arguments?_ok.2 (.inr given), ?_⟩, rfl, rfl⟩
      dsimp only
      rw [named]
      rfl
    | bareObject named absent =>
      refine ⟨⟨operator, [], fun _ member => absurd member List.not_mem_nil⟩,
        bind_ok.2 ⟨⟨[], fun _ member => absurd member List.not_mem_nil⟩,
          Node.arguments?_ok.2 (.inl ⟨absent, rfl⟩), ?_⟩, rfl, rfl⟩
      dsimp only
      rw [named]
      rfl
    | array => exact ⟨_, rfl, rfl, rfl⟩
    | bareArray => exact ⟨_, rfl, rfl, rfl⟩

/-- A node has one operator and one list of arguments. -/
theorem Node.form_iff {document : Json} {node : Node document}
    (read : Node.ofJson document = .ok node) {operator : String} {arguments : List Json} :
    Node.Form document operator arguments ↔
      operator = node.operator ∧ arguments = node.arguments := by
  rw [← Node.ofJson_ok]
  constructor
  · rintro ⟨other, otherRead, rfl, rfl⟩
    cases read.symm.trans otherRead
    exact ⟨rfl, rfl⟩
  · rintro ⟨rfl, rfl⟩
    exact ⟨node, read, rfl, rfl⟩

/-- The elements of a list are read alike with the proof that they are its elements. -/
theorem mapM_attach_ok {ε α β : Type} {form : α → β → Prop} {sources : List α}
    {read : { source // source ∈ sources } → Except ε β} {results : List β}
    (reads : ∀ source result, read source = .ok result ↔ form source.1 result) :
    sources.attach.mapM read = .ok results ↔ List.Forall₂ form sources results := by
  have readAlike : Reads read fun source result => form source.1 result := reads
  rw [readAlike.mapM, ← List.forall₂_map_left_iff, List.attach_map_subtype_val]

/-! ### Filters -/

namespace Expression

section

variable {document : Json} {node : Node document} (read : Node.ofJson document = .ok node)
  {filter : Expression}

include read

theorem form_connective (connective : node.operator = "and" ∨ node.operator = "or") :
    Expression.Form document filter ↔ node.arguments ≠ [] ∧ ∃ operands,
      List.Forall₂ Expression.Form node.arguments operands ∧
        (if node.operator = "and" then .all operands else .any operands) = filter := by
  have nodeForm : Node.Form document node.operator node.arguments :=
    (Node.form_iff read).2 ⟨rfl, rfl⟩
  constructor
  · intro form
    cases form with
    | all form given each =>
      obtain ⟨operator, rfl⟩ := (Node.form_iff read).1 form
      exact ⟨given, _, each, if_pos operator.symm⟩
    | any form given each =>
      obtain ⟨operator, rfl⟩ := (Node.form_iff read).1 form
      exact ⟨given, _, each, if_neg (by simp [← operator])⟩
    | not form =>
      obtain ⟨operator, -⟩ := (Node.form_iff read).1 form
      simp [← operator] at connective
    | leaf form other =>
      obtain ⟨rfl, -⟩ := (Node.form_iff read).1 form
      rcases connective with operator | operator <;> simp [operator, connectives] at other
  · rintro ⟨given, operands, each, rfl⟩
    split
    · rename_i operator
      exact .all (operator ▸ nodeForm) given each
    · rename_i other
      exact .any (connective.resolve_left other ▸ nodeForm) given each

theorem form_negation (negation : node.operator = "not") :
    Expression.Form document filter ↔ ∃ argument operand, node.arguments = [argument] ∧
      Expression.Form argument operand ∧ .not operand = filter := by
  constructor
  · intro form
    cases form with
    | all form =>
      obtain ⟨operator, -⟩ := (Node.form_iff read).1 form
      simp [← operator] at negation
    | any form =>
      obtain ⟨operator, -⟩ := (Node.form_iff read).1 form
      simp [← operator] at negation
    | not form operand =>
      obtain ⟨-, arguments⟩ := (Node.form_iff read).1 form
      exact ⟨_, _, arguments.symm, operand, rfl⟩
    | leaf form other =>
      obtain ⟨rfl, -⟩ := (Node.form_iff read).1 form
      simp [negation, connectives] at other
  · rintro ⟨argument, operand, arguments, form, rfl⟩
    exact .not ((Node.form_iff read).2 ⟨negation.symm, arguments.symm⟩) form

theorem form_leaf (other : node.operator ∉ connectives) :
    Expression.Form document filter ↔ ∃ condition,
      Leaf.Form node.operator node.arguments condition ∧ .leaf condition = filter := by
  constructor
  · intro form
    cases form with
    | all form =>
      obtain ⟨operator, -⟩ := (Node.form_iff read).1 form
      simp [← operator, connectives] at other
    | any form =>
      obtain ⟨operator, -⟩ := (Node.form_iff read).1 form
      simp [← operator, connectives] at other
    | not form =>
      obtain ⟨operator, -⟩ := (Node.form_iff read).1 form
      simp [← operator, connectives] at other
    | leaf form _ condition =>
      obtain ⟨rfl, rfl⟩ := (Node.form_iff read).1 form
      exact ⟨_, condition, rfl⟩
  · rintro ⟨condition, form, rfl⟩
    exact .leaf ((Node.form_iff read).2 ⟨rfl, rfl⟩) other form

end

/-- What is not a node is no filter. -/
theorem not_form_of_unread {document : Json} {fault : Json.Fault}
    (failed : Node.ofJson document = .error fault) {filter : Expression} :
    ¬ Expression.Form document filter := by
  have unread {operator : String} {arguments : List Json} :
      ¬ Node.Form document operator arguments := by
    rw [← Node.ofJson_ok]
    rintro ⟨node, read, -⟩
    cases failed.symm.trans read
  intro form
  cases form with
  | all node => exact unread node
  | any node => exact unread node
  | not node => exact unread node
  | leaf node => exact unread node

/-- A document is read to a filter exactly if the grammar derives the filter from it. -/
theorem ofJson_ok (document : Json) {filter : Expression} :
    Expression.ofJson document = .ok filter ↔ Expression.Form document filter := by
  rw [Expression.ofJson]
  split
  · rename_i fault failed
    exact iff_of_false error_ne_ok (not_form_of_unread failed)
  rename_i node read
  split
  · rename_i connective
    have listed {operands : List Expression} :
        (node.arguments.attach.mapM fun argument => Expression.ofJson argument.1) = .ok operands ↔
          List.Forall₂ Expression.Form node.arguments operands :=
      mapM_attach_ok fun argument operand => by
        have := node.smaller argument.1 argument.2
        exact ofJson_ok argument.1
    rw [form_connective read connective]
    split
    · rename_i empty
      exact iff_of_false error_ne_ok fun form => form.1 (List.isEmpty_iff.1 empty)
    · rename_i given
      rw [bind_ok]
      constructor
      · rintro ⟨operands, operandsRead, made⟩
        exact ⟨fun empty => given (List.isEmpty_iff.2 empty), operands, listed.1 operandsRead,
          Success.pure_ok.1 made⟩
      · rintro ⟨-, operands, each, made⟩
        exact ⟨operands, listed.2 each, Success.pure_ok.2 made⟩
  rename_i notConnective
  split
  · rename_i negation
    rw [form_negation read negation]
    split
    · rename_i operand smaller arguments _
      have := smaller operand List.mem_cons_self
      rw [map_ok, arguments]
      constructor
      · rintro ⟨inner, innerRead, made⟩
        exact ⟨operand, inner, rfl, (ofJson_ok operand).1 innerRead, made⟩
      · rintro ⟨argument, inner, same, form, made⟩
        cases same
        exact ⟨inner, (ofJson_ok operand).2 form, made⟩
    · rename_i several
      refine iff_of_false error_ne_ok ?_
      rintro ⟨argument, inner, same, -⟩
      exact several argument (same ▸ node.smaller) same (proof_irrel_heq _ _)
  · rename_i notNegation
    rw [not_or] at notConnective
    have other : node.operator ∉ connectives := by simp [connectives, notConnective, notNegation]
    rw [form_leaf read other, map_ok]
    exact exists_congr fun condition => and_congr_left fun _ => Leaf.reads ..
termination_by sizeOf document

end Expression

end ShapeQuery.Filter
