/-
This file proves that a translated filter selects the resources for which the filter is true. The
truth of a condition is that its own group has a solution; a conjunction, a disjunction and a
negation are true by the truth of their operands. The conditions of a filter have no unknown but
the focus node in common, so that the groups of its operands can be solved apart.
-/
import ShapeQuery.Proofs.Filter.Predicates
import ShapeQuery.Proofs.Sparql.Renaming

namespace ShapeQuery.Filter

open Sparql (Engine Group Replacement Renaming)
open Success (bind_ok)

/-- Whether a filter is true for a resource of a graph. -/
def Expression.Holds (engine : Engine) (graph : Rdf.Graph) (translator : Translator)
    (resource : Iri) : Expression → Prop
  | .leaf condition => ∃ group, translator.translate (.leaf condition) = .ok group ∧
      (about resource group).Solvable engine graph
  | .all operands => ∀ operand, operand ∈ operands →
      operand.Holds engine graph translator resource
  | .any operands => ∃ operand, ∃ _ : operand ∈ operands,
      operand.Holds engine graph translator resource
  | .not operand => ¬ operand.Holds engine graph translator resource

/-! ### Renumbered groups -/

/-- Giving a resource to the focus node and permuting the numbers of the conditions do not
interfere. -/
theorem about_renumbering (numbers : Equiv.Perm Nat) (resource : Iri) (group : Group) :
    about resource ((renumbering numbers).replacement.group group) =
      (renumbering numbers).replacement.group (about resource group) := by
  unfold about
  rw [← Replacement.group_after, ← Replacement.group_after]
  refine congrArg (Replacement.group · group) (Replacement.ext (funext fun name => ?_) rfl rfl)
  show (if (renumbering numbers).names name = Shape.focusNode then Sparql.Substitute.iri resource
    else .var ((renumbering numbers).names name)) = (renumbering numbers).replacement.again
      (if name = Shape.focusNode then .iri resource else .var name)
  have kept := renumbering_focusNode numbers
  by_cases focused : name = Shape.focusNode
  · rw [if_pos focused, focused, if_pos kept]
    rfl
  · have moved : (renumbering numbers).names name ≠ Shape.focusNode := fun equal =>
      focused ((renumbering numbers).names.injective (equal.trans kept.symm))
    rw [if_neg focused, if_neg moved]
    rfl

/-- The rotation moves the unknowns of some conditions to the first numbers. -/
theorem shifts_rotation (count size : Nat) :
    Shifts (renumbering (rotation count size)).replacement count size 0 where
  focus := congrArg Sparql.Substitute.var (renumbering_focusNode _)
  carries offset positive bounded := by
    have moved := @rotation_add count size offset positive bounded
    rw [Nat.zero_add]
    exact {
      focus := congrArg Sparql.Substitute.var (renumbering_focusNode _)
      substitute := fun part => by
        show Sparql.Substitute.var _ = _
        rw [renumbering_name, moved]
      target := fun part => by
        show (renumbering _).names _ = _
        rw [renumbering_name, moved]
      label := by
        show (renumbering _).labels _ = _
        rw [renumbering_configuration, moved] }

namespace Translator

variable (engine : Engine) (graph : Rdf.Graph) {translator : Translator} (resource : Iri)

/-- A condition is true exactly if its group has a solution, whatever its number is. -/
theorem leaf_solvable (standard : translator.functions = .standard)
    (regular : translator.Regular) {condition : Leaf} {count final : Nat} {group : Group}
    (lowered : translator.leaf count condition = .ok (group, final)) :
    (about resource group).Solvable engine graph ↔
      (Expression.leaf condition).Holds engine graph translator resource := by
  obtain ⟨size, rfl, moved⟩ := leaf_renumbered standard regular lowered
  have alone : translator.translate (.leaf condition) =
      .ok ((renumbering (rotation count size)).replacement.group group) :=
    bind_ok.2 ⟨_, moved (shifts_rotation count size), rfl⟩
  have same := Renaming.solvable_group engine graph (renumbering (rotation count size))
    (about resource group)
  rw [← about_renumbering] at same
  rw [Expression.Holds]
  constructor
  · intro solvable
    exact ⟨_, alone, same.2 solvable⟩
  · rintro ⟨other, translated, solvable⟩
    rw [alone] at translated
    cases translated
    exact same.1 solvable

/-- The groups of two filters that are lowered one after the other can be solved apart. -/
theorem solvable_append_of_block {low middle high : Nat} {first second : Group}
    (firstBlock : Block low middle (Sparql.groupAtoms first))
    (secondBlock : Block middle high (Sparql.groupAtoms second)) :
    (about resource (first ++ second)).Solvable engine graph ↔
      (about resource first).Solvable engine graph ∧
        (about resource second).Solvable engine graph := by
  unfold about
  rw [Replacement.group_append]
  refine Group.solvable_append engine graph fun unknown inFirst inSecond => ?_
  exact (unknowns_about firstBlock unknown inFirst).apart
    (unknowns_about secondBlock unknown inSecond)

mutual

/-- The group of a filter has a solution exactly if the filter is true. -/
theorem lower_solvable (standard : translator.functions = .standard)
    (regular : translator.Regular) (filter : Expression) {count final : Nat} {group : Group}
    (lowered : translator.lower count filter = .ok (group, final)) :
    (about resource group).Solvable engine graph ↔
      filter.Holds engine graph translator resource := by
  match filter with
  | .leaf condition => exact leaf_solvable engine graph resource standard regular lowered
  | .all operands =>
    rw [Expression.Holds]
    exact lowerAll_solvable standard regular operands lowered
  | .any operands =>
    obtain ⟨⟨branches, after⟩, branchesLowered, total⟩ := bind_ok.1 lowered
    cases total
    have replaced : about resource [.union branches] =
        [.union (branches.map (about resource))] := by
      show [Sparql.Element.union (Replacement.branches _ branches)] = _
      rw [Replacement.branches_eq_map]
      rfl
    rw [replaced, Group.solvable_union, Expression.Holds]
    simp only [List.mem_map, exists_exists_and_eq_and, exists_prop]
    exact lowerEach_solvable standard regular operands branchesLowered
  | .not operand =>
    obtain ⟨⟨forbidden, after⟩, operandLowered, total⟩ := bind_ok.1 lowered
    cases total
    have replaced : about resource [.filter (.notExists forbidden)] =
        [.filter (.notExists (about resource forbidden))] := rfl
    rw [replaced, Group.solvable_notExists, Expression.Holds,
      lower_solvable standard regular operand operandLowered]

/-- The group of a conjunction has a solution exactly if every operand is true. -/
theorem lowerAll_solvable (standard : translator.functions = .standard)
    (regular : translator.Regular) (operands : List Expression) {count final : Nat}
    {group : Group} (lowered : translator.lowerAll count operands = .ok (group, final)) :
    (about resource group).Solvable engine graph ↔
      ∀ operand ∈ operands, operand.Holds engine graph translator resource := by
  match operands with
  | [] =>
    cases lowered
    exact iff_of_true (Group.solvable_nil engine graph) nofun
  | operand :: rest =>
    obtain ⟨⟨first, middle⟩, firstLowered, further⟩ := bind_ok.1 lowered
    obtain ⟨⟨others, after⟩, othersLowered, total⟩ := bind_ok.1 further
    cases total
    rw [solvable_append_of_block engine graph resource
      (lower_block standard regular operand firstLowered)
      (lowerAll_block standard regular rest othersLowered), List.forall_mem_cons,
      lower_solvable standard regular operand firstLowered,
      lowerAll_solvable standard regular rest othersLowered]

/-- Some branch of a disjunction has a solution exactly if some operand is true. -/
theorem lowerEach_solvable (standard : translator.functions = .standard)
    (regular : translator.Regular) (operands : List Expression) {count final : Nat}
    {branches : List Group}
    (lowered : translator.lowerEach count operands = .ok (branches, final)) :
    (∃ branch ∈ branches, (about resource branch).Solvable engine graph) ↔
      ∃ operand ∈ operands, operand.Holds engine graph translator resource := by
  match operands with
  | [] =>
    cases lowered
    exact iff_of_false nofun nofun
  | operand :: rest =>
    obtain ⟨⟨first, middle⟩, firstLowered, further⟩ := bind_ok.1 lowered
    obtain ⟨⟨others, after⟩, othersLowered, total⟩ := bind_ok.1 further
    cases total
    rw [List.exists_mem_cons_iff, List.exists_mem_cons_iff,
      lower_solvable standard regular operand firstLowered,
      lowerEach_solvable standard regular rest othersLowered]

end

/-- About a resource, the group of a filter has a solution exactly if the filter is true for the
resource, provided that the queryables were read from shapes. -/
theorem translate_solvable (standard : translator.functions = .standard)
    (read : ∀ entry ∈ translator.queryables,
      ∃ shapes node, Rdf.Graph.propertyShape shapes node = .ok entry.2)
    {filter : Expression} {group : Group} (translated : translator.translate filter = .ok group) :
    (about resource group).Solvable engine graph ↔
      filter.Holds engine graph translator resource := by
  have regular : translator.Regular := by
    intro entry member
    obtain ⟨shapes, node, shape⟩ := read entry member
    exact Rdf.Graph.regular_of_propertyShape shape
  obtain ⟨⟨lowered, final⟩, succeeds, total⟩ := bind_ok.1 translated
  cases total
  exact lower_solvable engine graph resource standard regular filter succeeds

/-- A condition on a declared predicate is true for a resource if the predicate leads from the
resource to a value that the condition accepts. -/
theorem holds_of_declaring (name id : String) {predicate : Iri}
    (ordinary : predicate ≠ Vocabulary.shextAllPredicateValues) {leaf : Leaf}
    (on : leaf.On ⟨name, false⟩) :
    (Expression.leaf leaf).Holds engine graph
        (translator.declaring name (predicateShape id predicate)) resource ↔
      ∃ found, (.iri resource, found) ∈ graph.edges predicate ∧ leaf.Accepts engine found := by
  obtain ⟨group, lowered, solvable⟩ :=
    leaf_solvable_of_declaring engine translator name id ordinary on 0
  have alone : (translator.declaring name (predicateShape id predicate)).translate (.leaf leaf) =
      .ok group := bind_ok.2 ⟨_, lowered, rfl⟩
  rw [← solvable, Expression.Holds]
  constructor
  · rintro ⟨other, translated, found⟩
    cases alone.symm.trans translated
    exact found
  · exact fun found => ⟨group, alone, found⟩

/-- The translator with a queryable for names. -/
def naming : Translator :=
  standard.declaring "name" (predicateShape "_:name" Vocabulary.schemaName)

/-- What has one name, but not another one. -/
def namedOnly (name other : String) : Expression :=
  .all [.leaf (.compare .equal ⟨"name", false⟩ (.literal (.plain name))),
    .not (.leaf (.compare .equal ⟨"name", false⟩ (.literal (.plain other))))]

/-- A thing with a name. -/
def named : Rdf.Graph :=
  .ofList [⟨.iri ⟨"http://example.org/thing"⟩, Vocabulary.schemaName, .literal (.plain "a")⟩]

theorem namedOnly_holds : (namedOnly "a" "b").Holds Engine.plain named naming
    ⟨"http://example.org/thing"⟩ := by
  have edge : (.iri ⟨"http://example.org/thing"⟩, .literal (.plain "a")) ∈
      named.edges Vocabulary.schemaName := by decide
  have others : ∀ other, (.iri ⟨"http://example.org/thing"⟩, other) ∈
      named.edges Vocabulary.schemaName → other = .literal (.plain "a") := by
    intro other member
    exact (Prod.mk.inj (List.mem_singleton.1 member)).2
  have holds (text : String) :
      (Expression.leaf (.compare .equal ⟨"name", false⟩ (.literal (.plain text)))).Holds
          Engine.plain named naming ⟨"http://example.org/thing"⟩ ↔
        ∃ found, (.iri ⟨"http://example.org/thing"⟩, found) ∈ named.edges Vocabulary.schemaName ∧
          (Leaf.compare .equal ⟨"name", false⟩ (.literal (.plain text))).Accepts
            Engine.plain found :=
    holds_of_declaring _ _ _ _ _ (by decide) rfl
  rw [namedOnly, Expression.Holds, List.forall_mem_cons, List.forall_mem_singleton]
  refine ⟨(holds "a").2 ⟨_, edge, rfl⟩, ?_⟩
  rw [Expression.Holds, holds]
  rintro ⟨found, member, accepted⟩
  rw [others found member, Leaf.Accepts] at accepted
  exact absurd accepted (by decide)

/-- The thing is found by a conjunction with a negation, on a queryable that is read from a
shape. -/
theorem translate_solvable_name :
    (Rdf.Graph.ofList
        [⟨.blank "name", Vocabulary.shPath, .iri Vocabulary.schemaName⟩]).propertyShape
          (.blank "name") = .ok (predicateShape "_:name" Vocabulary.schemaName) ∧
      (namedOnly "a" "b").Holds Engine.plain named naming ⟨"http://example.org/thing"⟩ ∧
      ∃ group, naming.translate (namedOnly "a" "b") = .ok group ∧
        (about ⟨"http://example.org/thing"⟩ group).Solvable Engine.plain named := by
  have readShape : (Rdf.Graph.ofList
      [⟨.blank "name", Vocabulary.shPath, .iri Vocabulary.schemaName⟩]).propertyShape
        (.blank "name") = .ok (predicateShape "_:name" Vocabulary.schemaName) := by
    with_unfolding_all rfl
  have read : ∀ entry ∈ naming.queryables,
      ∃ shapes node, Rdf.Graph.propertyShape shapes node = .ok entry.2 :=
    List.forall_mem_singleton.2 ⟨_, _, readShape⟩
  have succeeds : (naming.translate (namedOnly "a" "b")).isOk = true := by decide +kernel
  obtain ⟨group, translated⟩ := Success.exists_ok succeeds
  exact ⟨readShape, namedOnly_holds, group, translated,
    (translate_solvable Engine.plain named _ rfl read translated).2 namedOnly_holds⟩

end Translator

end ShapeQuery.Filter
