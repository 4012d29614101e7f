/-
This file proves that a predicate can be declared as a queryable without changing what a filter
means. A condition on the predicate is true for a resource if the predicate leads from the resource
to a value that the condition accepts, whether the values are bound by a triple for the predicate or
by the lowered shape of its path.

Equality is the exception. With a predicate it asks for the same term, with a queryable for an equal
value; these agree for IRIs and texts, but not for numbers, which can be written in many ways.
-/
import ShapeQuery.Proofs.Filter.Blocks
import ShapeQuery.Proofs.Shape.Terminals
import ShapeQuery.Proofs.Sparql.Values

namespace ShapeQuery

open Sparql (Engine Element Group Replacement Solution Term TriplePattern Variable)
open Success (bind_ok)

/-! ### Values of a predicate -/

namespace Sparql

variable (engine : Engine) {graph : Rdf.Graph} {resource predicate : Iri} {name : Variable}

/-- The triple that leads from a resource to a value of a predicate. -/
def valueOf (resource predicate : Iri) (name : Variable) : Element :=
  .ofTriple (.iri resource) (.predicate predicate) (.var name)

theorem Group.mem_solutions_valueOf {solution : Solution} :
    solution ∈ Group.solutions engine graph [valueOf resource predicate name] ↔
      ∃ value, (.iri resource, value) ∈ graph.edges predicate ∧
        solution = Solution.single name value := by
  have found : Group.solutions engine graph [valueOf resource predicate name] =
      (graph.edges predicate).filterMap fun pair =>
        (Term.assign .empty pair.1 (.iri resource)).bind fun next =>
          Term.assign next pair.2 (.var name) := by
    rw [Group.solutions_single engine graph fun _ => rfl, valueOf, Element.ofTriple,
      Element.extend, Solution.joined_empty_empty]
    rfl
  rw [found, List.mem_filterMap]
  constructor
  · rintro ⟨⟨first, value⟩, edge, chosen⟩
    obtain ⟨next, start, assigned⟩ := Option.bind_eq_some_iff.1 chosen
    obtain ⟨rfl, same⟩ := Option.ite_none_right_eq_some.1 start
    cases same
    exact ⟨value, edge, (Option.some.inj assigned).symm⟩
  · rintro ⟨value, edge, rfl⟩
    exact ⟨_, edge, by rw [Term.assign, if_pos rfl]; rfl⟩

/-- A filter keeps the values for which its condition is true. -/
theorem Group.solvable_valueOf_filter {condition : Expression} :
    Group.Solvable engine graph [valueOf resource predicate name, .filter condition] ↔
      ∃ value, (.iri resource, value) ∈ graph.edges predicate ∧
        engine.truth? (condition.value engine graph [] (Solution.single name value)) =
          some true := by
  rw [← List.singleton_append, Group.solvable_append_filter]
  simp only [Group.mem_solutions_valueOf]
  constructor
  · rintro ⟨_, ⟨value, edge, rfl⟩, holds⟩
    exact ⟨value, edge, holds⟩
  · rintro ⟨value, edge, holds⟩
    exact ⟨_, ⟨value, edge, rfl⟩, holds⟩

/-- A table keeps the values that it lists. -/
theorem Group.solvable_valueOf_column {terms : List Term} :
    Group.Solvable engine graph [valueOf resource predicate name, .column name terms] ↔
      ∃ value, (.iri resource, value) ∈ graph.edges predicate ∧
        ∃ term ∈ terms, ∀ other, term.value .empty = some other → value = other := by
  have positive : AllPositive [valueOf resource predicate name, .column name terms] :=
    ⟨trivial, trivial, trivial⟩
  refine (Group.solvable_iff_met engine positive).trans ?_
  constructor
  · rintro ⟨valuation, edge, listed, -⟩
    exact ⟨_, edge, met_column.1 listed⟩
  · rintro ⟨value, edge, listed⟩
    exact ⟨fun _ => value, edge, met_column.2 listed, trivial⟩

end Sparql

namespace Filter

/-! ### Conditions on properties -/

/-- A value as a term of a graph. -/
def Value.meaning : Value → Rdf.Term
  | .iri name => .iri name
  | .literal value => .literal value

theorem Value.value_term (value : Value) (view : Solution) :
    value.term.value view = some value.meaning := by
  cases value <;> rfl

theorem Value.value_expression (value : Value) (engine : Engine) (graph : Rdf.Graph)
    (view : Solution) : value.expression.value engine graph [] view = some value.meaning := by
  cases value <;> rfl

namespace Leaf

/-- Whether a condition compares the values of a property with given ones. -/
def On (property : Property) : Leaf → Prop
  | .compare _ compared _ => compared = property
  | .like compared _ => compared = property
  | .oneOf compared _ => compared = property
  | _ => False

/-- Whether a condition accepts a value of its property. -/
def Accepts (engine : Engine) (found : Rdf.Term) : Leaf → Prop
  | .compare comparison _ value => engine.compare found comparison value.meaning = some true
  | .like _ pattern => engine.truth? (engine.call .regex
      [found, .literal (.plain (Text.wildcardRegex pattern)), .literal (.plain "i")]) = some true
  | .oneOf _ values => ∃ value ∈ values, found = value.meaning
  | _ => False

/-- Whether a condition asks for equality with nothing but IRIs and texts. -/
def ByName : Leaf → Prop
  | .compare .equal _ (.literal value) => ∃ text, value = .plain text
  | _ => True

end Leaf

section Conditions

variable (engine : Engine) {graph : Rdf.Graph} {resource predicate : Iri} {name : Variable}

theorem solvable_compare {comparison : Sparql.Comparison} {property : Property} {value : Value} :
    Group.Solvable engine graph [Sparql.valueOf resource predicate name,
        .filter (.compare (.var name) comparison value.expression)] ↔
      ∃ found, (.iri resource, found) ∈ graph.edges predicate ∧
        (Leaf.compare comparison property value).Accepts engine found := by
  rw [Group.solvable_valueOf_filter]
  refine exists_congr fun found => and_congr_right fun _ => ?_
  rw [Sparql.Expression.value, value.value_expression, Sparql.Expression.value,
    Solution.single_self]
  simp only [Option.bind_eq_bind, Option.bind_some]
  rw [Leaf.Accepts]
  cases engine.compare found comparison value.meaning with
  | none => exact iff_of_false nofun nofun
  | some holds => simp [Engine.truth?, engine.truth_ofBool]

theorem solvable_like {property : Property} {pattern : String} :
    Group.Solvable engine graph [Sparql.valueOf resource predicate name,
        .filter (.call .regex [.var name, .literal (.plain (Text.wildcardRegex pattern)),
          .literal (.plain "i")])] ↔
      ∃ found, (.iri resource, found) ∈ graph.edges predicate ∧
        (Leaf.like property pattern).Accepts engine found := by
  rw [Group.solvable_valueOf_filter]
  refine exists_congr fun found => and_congr_right fun _ => ?_
  simp only [Sparql.Expression.value, Sparql.listValues, Solution.single_self]
  rfl

theorem solvable_oneOf {property : Property} {values : List Value} :
    Group.Solvable engine graph [Sparql.valueOf resource predicate name,
        .column name (values.map Value.term)] ↔
      ∃ found, (.iri resource, found) ∈ graph.edges predicate ∧
        (Leaf.oneOf property values).Accepts engine found := by
  rw [Group.solvable_valueOf_column]
  refine exists_congr fun found => and_congr_right fun _ => ?_
  simp only [List.mem_map, exists_exists_and_eq_and, Value.value_term, Option.some.injEq,
    forall_eq']
  rfl

/-- A table with one value asks for an edge to it. -/
theorem solvable_same {value : Value} :
    Group.Solvable engine graph [Sparql.valueOf resource predicate name,
        .column name [value.term]] ↔ (.iri resource, value.meaning) ∈ graph.edges predicate := by
  rw [Group.solvable_valueOf_column]
  simp only [List.mem_singleton, exists_eq_left, Value.value_term, Option.some.injEq, forall_eq',
    exists_eq_right]

/-- The values that are equal to an IRI or a text are that term alone. -/
theorem accepts_iff_same {engine : Engine} (discerns : engine.Discerns) {property : Property}
    {value : Value} (byName : (Leaf.compare .equal property value).ByName) {found : Rdf.Term} :
    (Leaf.compare .equal property value).Accepts engine found ↔ found = value.meaning := by
  cases value with
  | iri name => exact discerns.iri found name
  | literal value =>
    obtain ⟨text, rfl⟩ := byName
    exact discerns.text found text

end Conditions

/-! ### Lowered conditions -/

namespace Translator

/-- Whether a property is bound by a triple that leads from the focus to a variable. -/
def BindsBy (translator : Translator) (property : Property) (predicate : Iri) (number : Nat)
    (name : Variable) : Prop :=
  ∀ operator, translator.bind operator property number =
    .ok ([.ofTriple focus (.predicate predicate) (.var name)], .var name)

section About

variable {resource predicate : Iri} {name : Variable} (other : name ≠ Shape.focusNode)

include other

theorem substitute_single :
    (Replacement.single Shape.focusNode resource).substitute name = .var name :=
  if_neg other

theorem expression_single :
    (Replacement.single Shape.focusNode resource).expression (.var name) = .var name := by
  rw [Replacement.expression, substitute_single other]
  rfl

/-- About a resource, the triple leads from the resource, and a condition that does not name the
focus stays. -/
theorem about_valueOf {condition : Element}
    (kept : (Replacement.single Shape.focusNode resource).element condition = condition) :
    about resource [.ofTriple focus (.predicate predicate) (.var name), condition] =
      [Sparql.valueOf resource predicate name, condition] := by
  have value : (Replacement.single Shape.focusNode resource).term (.var name) = .var name := by
    rw [Replacement.term, substitute_single other]
    rfl
  rw [about, Replacement.group, Replacement.group, kept]
  show [Element.triple ⟨.iri resource, .predicate predicate,
    (Replacement.single Shape.focusNode resource).term (.var name)⟩, condition] = _
  rw [value]
  rfl

theorem about_compare {comparison : Sparql.Comparison} {value : Value} :
    about resource [.ofTriple focus (.predicate predicate) (.var name),
        .filter (.compare (.var name) comparison value.expression)] =
      [Sparql.valueOf resource predicate name,
        .filter (.compare (.var name) comparison value.expression)] := by
  refine about_valueOf other ?_
  rw [Replacement.element, Replacement.expression, expression_single other]
  cases value <;> rfl

theorem about_like {pattern : Sparql.Expression}
    (kept : (Replacement.single Shape.focusNode resource).expression pattern = pattern) :
    about resource [.ofTriple focus (.predicate predicate) (.var name),
        .filter (.call .regex [.var name, pattern, .literal (.plain "i")])] =
      [Sparql.valueOf resource predicate name,
        .filter (.call .regex [.var name, pattern, .literal (.plain "i")])] := by
  refine about_valueOf other ?_
  simp only [Replacement.element, Replacement.expression, Replacement.list, kept,
    substitute_single other]
  rfl

theorem about_column {values : List Value} :
    about resource [.ofTriple focus (.predicate predicate) (.var name),
        .column name (values.map Value.term)] =
      [Sparql.valueOf resource predicate name, .column name (values.map Value.term)] := by
  refine about_valueOf other ?_
  have ground (value : Value) :
      (Replacement.single Shape.focusNode resource).term value.term = value.term := by
    cases value <;> rfl
  have columns : [name].map (Replacement.single Shape.focusNode resource).target = [name] := rfl
  simp only [Element.column, Replacement.element, Replacement.data, Sparql.Data.column, columns,
    List.map_map, Function.comp_def, List.map_cons, List.map_nil, Option.map_some, ground]

end About

/-- The condition on the value of a comparison: a table for equality with a value of a predicate,
and else a filter. -/
theorem compare_of_bindsBy {translator : Translator} {property : Property} {predicate : Iri}
    {number : Nat} {name : Variable} (binds : translator.BindsBy property predicate number name)
    (comparison : Sparql.Comparison) (value : Value) :
    translator.compare comparison property value number =
      .ok [.ofTriple focus (.predicate predicate) (.var name),
        if comparison = .equal ∧ translator.shape? property = none then
          .column name [value.term]
        else .filter (.compare (.var name) comparison value.expression)] := by
  refine bind_ok.2 ⟨_, binds _, ?_⟩
  cases comparison <;> cases translator.shape? property <;> rfl

/-- A condition on a property that is bound by a triple is true for a resource if it accepts some
value to which the triple leads. -/
theorem leaf_solvable_of_bindsBy (engine : Engine) {translator : Translator} {property : Property}
    {predicate : Iri} {count : Nat} {name : Variable} {leaf : Leaf}
    (binds : translator.BindsBy property predicate (count + 1) name)
    (other : name ≠ Shape.focusNode) (on : leaf.On property)
    (exact : translator.shape? property = none → engine.Discerns ∧ leaf.ByName) :
    ∃ group, translator.leaf count leaf = .ok (group, count + 1) ∧
      ∀ (graph : Rdf.Graph) (resource : Iri), (about resource group).Solvable engine graph ↔
        ∃ found, (.iri resource, found) ∈ graph.edges predicate ∧ leaf.Accepts engine found := by
  cases leaf with
  | compare comparison compared value =>
    obtain rfl : compared = property := on
    have lowered := compare_of_bindsBy binds comparison value
    refine ⟨_, bind_ok.2 ⟨_, lowered, rfl⟩, fun graph resource => ?_⟩
    split
    · rename_i identity
      obtain ⟨rfl, plain⟩ := identity
      obtain ⟨discerns, byName⟩ := exact plain
      rw [show [value.term] = [value].map Value.term from rfl, about_column other]
      simp only [accepts_iff_same discerns byName, exists_eq_right]
      exact solvable_same engine
    · rw [about_compare other]
      exact solvable_compare engine
  | like compared pattern =>
    obtain rfl : compared = property := on
    refine ⟨_, bind_ok.2 ⟨_, bind_ok.2 ⟨_, binds _, rfl⟩, rfl⟩, fun graph resource => ?_⟩
    rw [← solvable_like engine, ← about_like other rfl]
    rfl
  | oneOf compared values =>
    obtain rfl : compared = property := on
    refine ⟨_, bind_ok.2 ⟨_, bind_ok.2 ⟨_, binds _, rfl⟩, rfl⟩, fun graph resource => ?_⟩
    rw [← solvable_oneOf engine, ← about_column other]
    rfl
  | spatial => exact on.elim
  | temporal => exact on.elim
  | function => exact on.elim

/-! ### Predicates and queryables -/

/-- The shape of a predicate alone. -/
def predicateShape (id : String) (predicate : Iri) : PropertyShape :=
  { id, paths := [⟨.predicate predicate, none⟩], choices := [], classes := [], minCount := none,
    maxCount := none, filters := [] }

/-- A translator with a further queryable. -/
def declaring (translator : Translator) (name : String) (shape : PropertyShape) : Translator :=
  { translator with queryables := (name, shape) :: translator.queryables }

theorem numbered (count : Nat) : (⟨stem (count + 1)⟩ : Variable) ≠ Shape.focusNode :=
  Shape.numbered_ne_focusNode "var" (count + 1)

theorem bindsBy_predicate {translator : Translator} {name : String} {predicate : Iri}
    (plain : translator.queryables.lookup name = none)
    (given : Iri.ofText? name = some predicate) (number : Nat) :
    translator.BindsBy ⟨name, false⟩ predicate number ⟨stem number⟩ := by
  intro operator
  have undeclared : translator.shape? ⟨name, false⟩ = none := plain
  simp only [bind, undeclared, bindPredicate, given]
  rfl

theorem shape_declaring (translator : Translator) (name : String) (shape : PropertyShape) :
    (translator.declaring name shape).shape? ⟨name, false⟩ = some shape :=
  List.lookup_cons_self

/-- The shape of a predicate is lowered to a triple. -/
theorem bindsBy_declaring (translator : Translator) (name id : String) {predicate : Iri}
    (ordinary : predicate ≠ Vocabulary.shextAllPredicateValues) (number : Nat) :
    (translator.declaring name (predicateShape id predicate)).BindsBy ⟨name, false⟩ predicate number
      ((Shape.Slot.node 1).toVariable (stem number)) := by
  intro operator
  have ofPaths : (predicateShape id predicate).OfPaths :=
    ⟨rfl, rfl, rfl, rfl, .inl ⟨_, rfl, rfl⟩⟩
  have plain : Lowering.Plain ⟨.profile, focus, []⟩ := ⟨nofun, rfl⟩
  have single : ShapePath.isWildcard ⟨.predicate predicate, none⟩ = false :=
    decide_eq_false fun same => ordinary (Option.some.inj same)
  obtain ⟨next, lowered⟩ :=
    ofPaths.property ⟨.profile, focus, []⟩ (Shape.Scope.start (stem number))
  rw [ofPaths.together_of_path _ _ rfl rfl] at lowered
  have step : (ShapePath.mk (.predicate predicate) none).path.hops ≠ 0 := Nat.one_ne_zero
  have pattern :=
    Lowering.path_pattern plain [] true (Shape.Scope.start (stem number)) step single
  have terminal :=
    Lowering.path_terminal _ [] true (Shape.Scope.start (stem number)) plain step
  rw [if_neg (of_decide_eq_false single)] at terminal
  simp only [bind, shape_declaring, bindShape, lowered, terminal, pattern]
  rfl

/-- Equality with a value of a predicate asks for the same term. -/
theorem equal_solvable_of_predicate (engine : Engine) {translator : Translator} {name : String}
    {predicate : Iri} (plain : translator.queryables.lookup name = none)
    (given : Iri.ofText? name = some predicate) (value : Value) (count : Nat) :
    ∃ group,
      translator.leaf count (.compare .equal ⟨name, false⟩ value) = .ok (group, count + 1) ∧
      ∀ (graph : Rdf.Graph) (resource : Iri), (about resource group).Solvable engine graph ↔
        (.iri resource, value.meaning) ∈ graph.edges predicate := by
  have lowered :=
    compare_of_bindsBy (bindsBy_predicate plain given (count + 1)) .equal value
  rw [if_pos ⟨rfl, plain⟩] at lowered
  refine ⟨_, bind_ok.2 ⟨_, lowered, rfl⟩, fun graph resource => ?_⟩
  rw [show [value.term] = [value].map Value.term from rfl, about_column (numbered count)]
  exact solvable_same engine

/-- A condition on a declared predicate asks for a value that it accepts. -/
theorem leaf_solvable_of_declaring (engine : Engine) (translator : Translator) (name id : String)
    {predicate : Iri} (ordinary : predicate ≠ Vocabulary.shextAllPredicateValues) {leaf : Leaf}
    (on : leaf.On ⟨name, false⟩) (count : Nat) :
    ∃ group, (translator.declaring name (predicateShape id predicate)).leaf count leaf =
        .ok (group, count + 1) ∧
      ∀ (graph : Rdf.Graph) (resource : Iri), (about resource group).Solvable engine graph ↔
        ∃ found, (.iri resource, found) ∈ graph.edges predicate ∧ leaf.Accepts engine found := by
  refine leaf_solvable_of_bindsBy engine (bindsBy_declaring translator name id ordinary (count + 1))
    (Shape.Slot.toVariable_ne_focusNode _ _) on fun undeclared => ?_
  rw [shape_declaring] at undeclared
  cases undeclared

/-! ### Agreement -/

/-- A condition on a predicate means the same when the predicate is declared as a queryable, unless
it asks for equality with something other than an IRI or a text. -/
theorem predicate_iff_queryable {engine : Engine} (discerns : engine.Discerns)
    {translator : Translator} {name : String} {predicate : Iri}
    (plain : translator.queryables.lookup name = none)
    (given : Iri.ofText? name = some predicate)
    (ordinary : predicate ≠ Vocabulary.shextAllPredicateValues) {leaf : Leaf}
    (on : leaf.On ⟨name, false⟩) (byName : leaf.ByName) (id : String) (count : Nat) :
    ∃ first second, translator.leaf count leaf = .ok (first, count + 1) ∧
      (translator.declaring name (predicateShape id predicate)).leaf count leaf =
        .ok (second, count + 1) ∧
      ∀ (graph : Rdf.Graph) (resource : Iri), (about resource first).Solvable engine graph ↔
        (about resource second).Solvable engine graph := by
  obtain ⟨first, firstLowered, firstSolvable⟩ := leaf_solvable_of_bindsBy engine
    (bindsBy_predicate plain given (count + 1)) (numbered count) on fun _ => ⟨discerns, byName⟩
  obtain ⟨second, secondLowered, secondSolvable⟩ :=
    leaf_solvable_of_declaring engine translator name id ordinary on count
  refine ⟨first, second, firstLowered, secondLowered, fun graph resource => ?_⟩
  rw [firstSolvable, secondSolvable]

/-- A resource with a predicate whose value is an IRI, and one whose value is a decimal number. -/
def soilGraph : Rdf.Graph :=
  .ofList [⟨.iri ⟨"http://ex/soil"⟩, ⟨"http://ex/p"⟩, .iri ⟨"http://ex/Loam"⟩⟩,
    ⟨.iri ⟨"http://ex/layer"⟩, ⟨"http://ex/p"⟩, .literal (.typed "1.0" Vocabulary.xsdDecimal)⟩]

/-- Equality with an IRI finds the resource either way. -/
theorem predicate_iff_queryable_iri :
    ∃ first second,
      standard.leaf 0 (.compare .equal ⟨"http://ex/p", false⟩ (.iri ⟨"http://ex/Loam"⟩)) =
        .ok (first, 1) ∧
      (standard.declaring "http://ex/p" (predicateShape "p" ⟨"http://ex/p"⟩)).leaf 0
        (.compare .equal ⟨"http://ex/p", false⟩ (.iri ⟨"http://ex/Loam"⟩)) = .ok (second, 1) ∧
      (about ⟨"http://ex/soil"⟩ first).Solvable Engine.ofValues soilGraph ∧
      (about ⟨"http://ex/soil"⟩ second).Solvable Engine.ofValues soilGraph := by
  have plain : standard.queryables.lookup "http://ex/p" = none := rfl
  have given : Iri.ofText? "http://ex/p" = some ⟨"http://ex/p"⟩ := by decide +kernel
  obtain ⟨first, second, firstLowered, secondLowered, same⟩ :=
    predicate_iff_queryable Engine.discerns_ofValues plain given (by decide)
      (show (Leaf.compare .equal ⟨"http://ex/p", false⟩ (.iri ⟨"http://ex/Loam"⟩)).On _ from rfl)
      trivial "p" 0
  obtain ⟨group, lowered, solvable⟩ := equal_solvable_of_predicate Engine.ofValues plain given
    (.iri ⟨"http://ex/Loam"⟩) 0
  cases lowered.symm.trans firstLowered
  have found := (solvable soilGraph ⟨"http://ex/soil"⟩).2 (by decide)
  exact ⟨_, second, firstLowered, secondLowered, found, (same soilGraph _).1 found⟩

/-- Equality with a number finds the resource only when the predicate is declared. -/
theorem equal_number_differs :
    ∃ first second,
      standard.leaf 0 (.compare .equal ⟨"http://ex/p", false⟩ (.literal (.ofInt 1))) =
        .ok (first, 1) ∧
      (standard.declaring "http://ex/p" (predicateShape "p" ⟨"http://ex/p"⟩)).leaf 0
        (.compare .equal ⟨"http://ex/p", false⟩ (.literal (.ofInt 1))) = .ok (second, 1) ∧
      ¬ (about ⟨"http://ex/layer"⟩ first).Solvable Engine.ofValues soilGraph ∧
      (about ⟨"http://ex/layer"⟩ second).Solvable Engine.ofValues soilGraph := by
  have given : Iri.ofText? "http://ex/p" = some ⟨"http://ex/p"⟩ := by decide +kernel
  obtain ⟨first, firstLowered, firstSolvable⟩ := equal_solvable_of_predicate Engine.ofValues
    (show standard.queryables.lookup "http://ex/p" = none from rfl) given (.literal (.ofInt 1)) 0
  obtain ⟨second, secondLowered, secondSolvable⟩ := leaf_solvable_of_declaring Engine.ofValues
    standard "http://ex/p" "p" (by decide : (⟨"http://ex/p"⟩ : Iri) ≠ _)
    (show (Leaf.compare .equal ⟨"http://ex/p", false⟩ (.literal (.ofInt 1))).On _ from rfl) 0
  refine ⟨first, second, firstLowered, secondLowered, ?_, ?_⟩
  · rw [firstSolvable]
    decide
  · rw [secondSolvable]
    have equal : Engine.compareValues (.literal (.typed "1.0" Vocabulary.xsdDecimal)) .equal
        (.literal (.ofInt 1)) = some true := by decide +kernel
    exact ⟨.literal (.typed "1.0" Vocabulary.xsdDecimal), by decide, equal⟩

end Translator

end Filter

end ShapeQuery
