/-
This file tells which documents are compiled with the standard functions: those from which the
grammar derives a filter all of whose conditions resolve. A property that is declared as a queryable
is bound by its shape or not at all, even if it is a predicate as well.
-/
import ShapeQuery.Compiler.Queries
import ShapeQuery.Proofs.Filter.Acceptance
import ShapeQuery.Proofs.Filter.Grammar

namespace ShapeQuery.Compiler

open ShapeQuery.Filter (Property)
open Success (bind_ok mapError_ok)

/-- The query of a document is that of the filter that the grammar derives from it. -/
theorem filter_of_form (compiler : Compiler) {document : Json} {filter : Filter.Expression}
    (form : Filter.Expression.Form document filter) :
    compiler.filter document = (compiler.translator.query filter).mapError .filter := by
  rw [Compiler.filter, (Filter.Expression.ofJson_ok document).2 form]
  rfl

/-- With the standard functions, a document is compiled exactly if it is a filter and all conditions
of the filter resolve. No filter fails because a term cannot stand in an expression. -/
theorem filter_ok_iff (configuration : Configuration) (queryables : List (String × PropertyShape))
    (document : Json) :
    let compiler : Compiler := ⟨configuration, .standard, queryables⟩
    ((∃ query, compiler.filter document = .ok query) ↔
      ∃ filter, Filter.Expression.Form document filter ∧ ∀ condition ∈ filter.leaves,
        condition.Resolves compiler.translator.Binds configuration.target) ∧
    ∀ filter, Filter.Expression.Form document filter → ∀ operator term,
      compiler.filter document ≠
        .error (.filter (.invalidArgument operator (.blankOperand term))) := by
  intro compiler
  have accepts := Filter.Translator.accepts_query (show compiler.translator.functions = .standard
    from rfl)
  constructor
  · constructor
    · rintro ⟨query, compiled⟩
      obtain ⟨filter, read, translated⟩ := bind_ok.1 (mapError_ok.1 compiled)
      exact ⟨filter, (Filter.Expression.ofJson_ok document).1 read,
        (accepts filter).succeeds.1 ⟨query, translated⟩⟩
    · rintro ⟨filter, form, resolves⟩
      obtain ⟨query, translated⟩ := (accepts filter).succeeds.2 resolves
      exact ⟨query, (compiler.filter_of_form form).trans (mapError_ok.2 translated)⟩
  · intro filter form operator term failed
    rw [compiler.filter_of_form form] at failed
    cases translated : compiler.translator.query filter with
    | ok query =>
      rw [translated] at failed
      cases failed
    | error fault =>
      rw [translated] at failed
      cases failed
      exact (accepts filter).fails _ translated trivial

/-- A comparison of a predicate with a pattern is compiled without queryables. -/
theorem filter_ok_iff_like :
    let compiled := filter ⟨.standard, .standard, []⟩ (.object
      [("op", .string "like"), ("args", .array
        [.object [("property", .string "http://example.org/name")], .string "b%"])])
    (∃ query, compiled = .ok query) ∧ ∀ operator term,
      compiled ≠ .error (.filter (.invalidArgument operator (.blankOperand term))) := by
  let document : Json := .object [("op", .string "like"), ("args", .array
    [.object [("property", .string "http://example.org/name")], .string "b%"])]
  let like : Filter.Expression := .leaf (.like (.ofName "http://example.org/name") "b%")
  have form : Filter.Expression.Form document like :=
    .leaf (.object rfl rfl) (by decide) (.like (.reference rfl))
  have predicate : Property.IsPredicate (.ofName "http://example.org/name") :=
    Option.isSome_iff_exists.1 (by decide +kernel)
  have accepts := filter_ok_iff .standard [] document
  exact ⟨accepts.1.2 ⟨like, form, List.forall_mem_singleton.2 (.inr ⟨rfl, predicate⟩)⟩,
    accepts.2 like form⟩

/-- A property shape without values: the resource has a triple with another predicate. -/
def withoutName : PropertyShape :=
  ⟨"", [⟨.predicate ⟨"http://example.org/name"⟩, none⟩], [], [], none, some 0, []⟩

/-- A filter on a predicate that is declared as a queryable without values is not compiled, although
its only property is a predicate. -/
theorem filter_refuses_declared_predicate :
    ¬ ∀ (configuration : Configuration) (queryables : List (String × PropertyShape))
        (document : Json),
      let compiler : Compiler := ⟨configuration, .standard, queryables⟩
      (∃ query, compiler.filter document = .ok query) ↔
        ∃ filter, Filter.Expression.Form document filter ∧ ∀ condition ∈ filter.leaves,
          condition.Resolves (fun property => compiler.translator.BindsQueryable property ∨
            property.IsPredicate) configuration.target := by
  intro claimed
  let document : Json := .object
    [("op", .string "in"), ("args", .array
      [.object [("property", .string "http://example.org/name")],
        .array [.number (.integer 1)]])]
  let filter : Filter.Expression := .leaf
    (.oneOf (.ofName "http://example.org/name") [.literal (Filter.numberLiteral (.integer 1))])
  have form : Filter.Expression.Form document filter :=
    .leaf (.object rfl rfl) (by decide) (.listed (.reference rfl) nofun (.cons (.number _) .nil))
  let compiler : Compiler :=
    ⟨.standard, .standard, [("http://example.org/name", withoutName)]⟩
  have predicate : Property.IsPredicate (.ofName "http://example.org/name") :=
    Option.isSome_iff_exists.1 (by decide +kernel)
  obtain ⟨query, compiled⟩ := (claimed .standard [("http://example.org/name", withoutName)]
    document).2 ⟨filter, form, List.forall_mem_singleton.2 (.inr predicate)⟩
  have translated := mapError_ok.1 ((compiler.filter_of_form form).symm.trans compiled)
  have resolves := (Filter.Translator.accepts_query (show compiler.translator.functions = .standard
    from rfl) filter).succeeds.1 ⟨query, translated⟩
  rcases List.forall_mem_singleton.1 resolves with queryable | ⟨undeclared, -⟩
  · have declared : compiler.translator.shape? (.ofName "http://example.org/name") =
        some withoutName := rfl
    exact ((Filter.Translator.bindsQueryable_iff declared).1 queryable).2.1 rfl
  · cases undeclared

end ShapeQuery.Compiler
