/-
This file reads the names of variables back. A numeral has no underscore in it, so that the number
after the last underscore of a name can be told from what stands before it; in the scope of a shape,
that tells the slot. A lowering without fixed terms names every node by its slot.
-/
import ShapeQuery.Proofs.Shape.Reading
import ShapeQuery.Shape.Lowering

namespace ShapeQuery.Shape

open Sparql (Variable)

/-! ### Numerals -/

theorem toList_numeral (number : Nat) : (toString number).toList = Nat.toDigits 10 number := by
  rw [Nat.toString_eq_repr, Nat.toList_repr]

theorem underscore_not_mem_numeral (number : Nat) : '_' ∉ (toString number).toList := by
  rw [toList_numeral]
  exact Nat.underscore_not_in_toDigits

theorem numeral_injective {first second : Nat} (equal : toString first = toString second) :
    first = second := by
  have digits : Nat.toDigits 10 first = Nat.toDigits 10 second := by
    rw [← toList_numeral, ← toList_numeral, equal]
  rw [← @Nat.ofDigitChars_ten_toDigits first, digits, Nat.ofDigitChars_ten_toDigits]

/-! ### Marks -/

/-- What stands before and after the last mark of a list. -/
theorem append_mark_inj {mark : Char} {first second rest others : List Char}
    (clean : mark ∉ rest) (othersClean : mark ∉ others)
    (equal : first ++ mark :: rest = second ++ mark :: others) :
    first = second ∧ rest = others := by
  rcases List.append_eq_append_iff.1 equal with ⟨between, rfl, split⟩ | ⟨between, rfl, split⟩
  · cases between with
    | nil =>
      rw [List.nil_append, List.cons.injEq] at split
      exact ⟨(List.append_nil _).symm, split.2⟩
    | cons head tail =>
      rw [List.cons_append, List.cons.injEq] at split
      exact absurd (split.2 ▸ List.mem_append_right tail List.mem_cons_self) clean
  · cases between with
    | nil =>
      rw [List.nil_append, List.cons.injEq] at split
      exact ⟨List.append_nil _, split.2.symm⟩
    | cons head tail =>
      rw [List.cons_append, List.cons.injEq] at split
      exact absurd (split.2 ▸ List.mem_append_right tail List.mem_cons_self) othersClean

/-- What stands before and after the first mark of a list. -/
theorem mark_append_inj {mark : Char} {first second rest others : List Char}
    (clean : mark ∉ first) (secondClean : mark ∉ second)
    (equal : first ++ mark :: rest = second ++ mark :: others) :
    first = second ∧ rest = others := by
  rcases List.append_eq_append_iff.1 equal with ⟨between, rfl, split⟩ | ⟨between, rfl, split⟩
  · cases between with
    | nil =>
      rw [List.nil_append, List.cons.injEq] at split
      exact ⟨(List.append_nil _).symm, split.2⟩
    | cons head tail =>
      rw [List.cons_append, List.cons.injEq] at split
      exact absurd (split.1 ▸ List.mem_append_right first List.mem_cons_self) secondClean
  · cases between with
    | nil =>
      rw [List.nil_append, List.cons.injEq] at split
      exact ⟨List.append_nil _, split.2.symm⟩
    | cons head tail =>
      rw [List.cons_append, List.cons.injEq] at split
      exact absurd (split.1 ▸ List.mem_append_right second List.mem_cons_self) clean

/-- A name with a number after its last underscore. -/
theorem numbered_inj {first second : String} {number other : Nat}
    (equal : first ++ "_" ++ toString number = second ++ "_" ++ toString other) :
    first = second ∧ number = other := by
  have lists := congrArg String.toList equal
  simp only [String.toList_append, List.append_assoc] at lists
  obtain ⟨names, numerals⟩ := append_mark_inj (underscore_not_mem_numeral number)
    (underscore_not_mem_numeral other) lists
  exact ⟨String.toList_injective names, numeral_injective (String.toList_injective numerals)⟩

/-- A name with a number before its first underscore. -/
theorem numeral_append_inj {first second : String} {number other : Nat}
    (equal : toString number ++ "_" ++ first = toString other ++ "_" ++ second) :
    number = other ∧ first = second := by
  have lists := congrArg String.toList equal
  simp only [String.toList_append, List.append_assoc] at lists
  obtain ⟨numerals, names⟩ := mark_append_inj (underscore_not_mem_numeral number)
    (underscore_not_mem_numeral other) lists
  exact ⟨numeral_injective (String.toList_injective numerals), String.toList_injective names⟩

/-- A name whose last word has a letter has no number. -/
theorem numbered_ne {front : String} {word : List Char} {letter : Char}
    (apart : '_' ∉ word) (member : letter ∈ word) (plain : letter.isDigit = false)
    (text : String) (number : Nat) :
    text ++ "_" ++ toString number ≠ front ++ "_" ++ String.ofList word := by
  intro equal
  have lists := congrArg String.toList equal
  simp only [String.toList_append, List.append_assoc, String.toList_ofList] at lists
  obtain ⟨-, numeral⟩ := append_mark_inj (underscore_not_mem_numeral _) apart lists
  have digit : letter ∈ (toString number).toList := numeral ▸ member
  rw [toList_numeral] at digit
  exact absurd (Nat.isDigit_of_mem_toDigits (by decide) (by decide) digit) (by simp [plain])

/-- The focus node has no number. -/
theorem numbered_ne_focusNode (text : String) (number : Nat) :
    (⟨text ++ "_" ++ toString number⟩ : Variable) ≠ focusNode := by
  intro equal
  have split : "focus_node" = "focus" ++ "_" ++ String.ofList "node".toList := by decide
  exact numbered_ne (by decide) (by decide : 'n' ∈ "node".toList) (by decide) text number
    ((Variable.mk.inj equal).trans split)

/-! ### Slots -/

namespace Slot

theorem eq_of_family_number {first second : Slot} (family : first.family = second.family)
    (number : first.number = second.number) : first = second := by
  cases first <;> cases second <;> simp_all [Slot.family, Slot.number]

/-- The variables of a scope tell their slots. -/
theorem toVariable_injective (stem : String) : Function.Injective (toVariable stem) := by
  intro first second equal
  obtain ⟨names, number⟩ := numbered_inj (Variable.mk.inj equal)
  exact eq_of_family_number (String.append_right_inj _ |>.1 names) number

theorem toVariable_ne_focusNode (stem : String) (slot : Slot) :
    slot.toVariable stem ≠ focusNode :=
  numbered_ne_focusNode _ _

end Slot

/-! ### Chains of blank nodes -/

theorem blankPredicate_injective : Function.Injective blankPredicate :=
  fun _ _ same => numeral_injective (String.append_right_inj _ |>.1 (Variable.mk.inj same))

theorem blankObject_injective : Function.Injective blankObject :=
  fun _ _ same => numeral_injective (String.append_right_inj _ |>.1 (Variable.mk.inj same))

theorem blankPredicate_ne_blankObject (depth other : Nat) :
    blankPredicate depth ≠ blankObject other := fun same =>
  absurd (@numbered_inj "bn_p" "bn_o" depth other (Variable.mk.inj same)).1 (by decide)

end ShapeQuery.Shape

namespace ShapeQuery

open Sparql (Term)
open Shape (Slot Scope)

/-! ### Lowerings -/

namespace Lowering

/-- Whether a term is a node of a scope with the given stem. -/
def IsNode (lowering : Lowering) (stem : String) (term : Term) : Prop :=
  ∃ number last, term = lowering.node stem number last

/-- A path with a step leads to its last node. -/
theorem last_node (lowering : Lowering) (stem : String) (first : Nat) {hops : Nat}
    (positive : hops ≠ 0) :
    (lowering.nodes stem first hops).getLast?.getD lowering.focus =
      lowering.node stem (first + hops - 1) true := by
  unfold nodes
  obtain ⟨previous, rfl⟩ := Nat.exists_eq_succ_of_ne_zero positive
  simp [List.range_succ]

end Lowering

/-- Whether a lowering names every node by its slot. -/
structure Lowering.Plain (lowering : Lowering) : Prop where
  notSearch : lowering.kind ≠ .search
  fixed : lowering.fixed = []

namespace Lowering.Plain

variable {lowering : Lowering} (plain : lowering.Plain)

include plain

theorem node (stem : String) (number : Nat) (last : Bool) :
    lowering.node stem number last = .var ((Slot.node number).toVariable stem) := by
  unfold Lowering.node
  rw [if_neg (by simp [plain.notSearch]), plain.fixed]
  rfl

theorem nodes (stem : String) (first hops : Nat) :
    lowering.nodes stem first hops =
      (List.range hops).map fun offset => .var ((Slot.node (first + offset)).toVariable stem) :=
  List.map_congr_left fun offset _ => plain.node stem (first + offset) _

/-- A path with a step leads to the node with its last number. -/
theorem terminal (stem : String) (first : Nat) {hops : Nat} (positive : hops ≠ 0) :
    (lowering.nodes stem first hops).getLast?.getD lowering.focus =
      .var ((Slot.node (first + hops - 1)).toVariable stem) :=
  (lowering.last_node stem first positive).trans (plain.node stem _ true)

end Lowering.Plain

/-! ### Terminals and stems -/

namespace Lowering

variable (lowering : Lowering) (classes : List Iri) (undecided : Bool) (scope : Scope)

/-- A path leads to the node with its last number, one for all predicates to none. -/
theorem path_terminal (plain : lowering.Plain) {path : ShapePath} (step : path.path.hops ≠ 0) :
    (lowering.path classes undecided scope path).1.terminal =
      if path.path.predicate? = some Vocabulary.shextAllPredicateValues then none
      else some
        (.var ((Slot.node (scope.nextNode + path.path.hops - 1)).toVariable scope.stem)) := by
  unfold Lowering.path
  split
  · rfl
  · exact congrArg some (plain.terminal _ _ step)

theorem path_stem (path : ShapePath) :
    (lowering.path classes undecided scope path).2.stem = scope.stem := by
  unfold Lowering.path
  split <;> rfl

theorem paths_cons (path : ShapePath) (rest : List ShapePath) :
    lowering.paths classes undecided scope (path :: rest) =
      ((lowering.path classes undecided scope path).1 ++
          (lowering.paths classes
            (undecided && (lowering.path classes undecided scope path).1.terminal.isNone)
            (lowering.path classes undecided scope path).2 rest).1,
        (lowering.paths classes
          (undecided && (lowering.path classes undecided scope path).1.terminal.isNone)
          (lowering.path classes undecided scope path).2 rest).2) := rfl

theorem branches_cons (path : ShapePath) (rest : List ShapePath) :
    lowering.branches classes undecided scope (path :: rest) =
      ((lowering.path classes undecided scope path).1 ::
          (lowering.branches classes undecided
            (lowering.path classes undecided scope path).2 rest).1,
        (lowering.branches classes undecided
          (lowering.path classes undecided scope path).2 rest).2) := rfl

theorem filters_cons (constraint : FilterConstraint) (rest : List FilterConstraint) :
    lowering.filters scope (constraint :: rest) =
      ((lowering.filter scope constraint).1 ++
          (lowering.filters (lowering.filter scope constraint).2 rest).1,
        (lowering.filters (lowering.filter scope constraint).2 rest).2) := rfl

theorem filter_stem (constraint : FilterConstraint) :
    (lowering.filter scope constraint).2.stem = scope.stem := by
  unfold Lowering.filter
  split <;> rfl

theorem paths_stem (paths : List ShapePath) :
    (lowering.paths classes undecided scope paths).2.stem = scope.stem := by
  induction paths generalizing undecided scope with
  | nil => rfl
  | cons path rest inductionHypothesis =>
    rw [paths_cons]
    exact (inductionHypothesis _ _).trans (lowering.path_stem classes undecided scope path)

theorem branches_stem (paths : List ShapePath) :
    (lowering.branches classes undecided scope paths).2.stem = scope.stem := by
  induction paths generalizing scope with
  | nil => rfl
  | cons path rest inductionHypothesis =>
    rw [branches_cons]
    exact (inductionHypothesis _).trans (lowering.path_stem classes undecided scope path)

/-- The terminals of branches are nodes of their scope. -/
theorem branches_isNode {paths : List ShapePath} (steps : ∀ path ∈ paths, path.path.hops ≠ 0) :
    ∀ branch ∈ (lowering.branches classes undecided scope paths).1,
      ∀ terminal, branch.terminal = some terminal → lowering.IsNode scope.stem terminal := by
  induction paths generalizing scope with
  | nil => exact fun _ member => absurd member List.not_mem_nil
  | cons path rest inductionHypothesis =>
    rw [List.forall_mem_cons] at steps
    intro branch member terminal found
    rw [branches_cons] at member
    rcases List.mem_cons.1 member with same | later
    · rw [same, Lowering.path] at found
      split at found
      · cases found
      · exact ⟨_, true, (Option.some.inj found).symm.trans (lowering.last_node _ _ steps.1)⟩
    · rw [← lowering.path_stem classes undecided scope path]
      exact inductionHypothesis _ steps.2 branch later terminal found

/-- The terminals of branches are slots of their scope. -/
theorem branches_terminal (plain : lowering.Plain) {paths : List ShapePath}
    (steps : ∀ path ∈ paths, path.path.hops ≠ 0) :
    ∀ branch ∈ (lowering.branches classes undecided scope paths).1,
      ∀ terminal, branch.terminal = some terminal →
        ∃ slot : Slot, terminal = .var (slot.toVariable scope.stem) := by
  intro branch member terminal found
  obtain ⟨number, last, rfl⟩ :=
    lowering.branches_isNode classes undecided scope steps branch member terminal found
  exact ⟨_, plain.node _ number last⟩

theorem joined_stem (branches : List Fragment) :
    (lowering.joined scope branches).2.2.stem = scope.stem := by
  unfold Lowering.joined
  split
  · rfl
  · split
    · rfl
    · simp only
      split <;> rfl

theorem choices_stem (choices : List ShapePath) :
    (lowering.choices classes undecided scope choices).2.stem = scope.stem := by
  unfold Lowering.choices
  split
  · rfl
  · cases undecided
    · exact lowering.branches_stem classes false scope choices
    · exact (lowering.joined_stem _ _).trans (lowering.branches_stem classes true scope choices)

theorem filters_stem (constraints : List FilterConstraint) :
    (lowering.filters scope constraints).2.stem = scope.stem := by
  induction constraints generalizing scope with
  | nil => rfl
  | cons constraint rest inductionHypothesis =>
    rw [filters_cons]
    exact (inductionHypothesis _).trans (lowering.filter_stem scope constraint)

/-! ### The terminal of a property shape -/

theorem terminal_append (first second : Fragment) :
    (first ++ second).terminal = first.terminal.or second.terminal :=
  Option.orElse_eq_or

theorem paths_terminal (plain : lowering.Plain) {paths : List ShapePath}
    (steps : ∀ path ∈ paths, path.path.hops ≠ 0) :
    ∀ terminal, (lowering.paths classes undecided scope paths).1.terminal = some terminal →
      ∃ slot : Slot, terminal = .var (slot.toVariable scope.stem) := by
  induction paths generalizing undecided scope with
  | nil => exact nofun
  | cons path rest inductionHypothesis =>
    rw [List.forall_mem_cons] at steps
    intro terminal found
    rw [paths_cons, terminal_append,
      lowering.path_terminal classes undecided scope plain steps.1] at found
    split at found
    · have later := inductionHypothesis _ _ steps.2 terminal found
      rwa [lowering.path_stem] at later
    · exact ⟨_, (Option.some.inj found).symm⟩

theorem joined_terminal (plain : lowering.Plain) {branches : List Fragment}
    (terminals : ∀ branch ∈ branches, ∀ terminal, branch.terminal = some terminal →
      ∃ slot : Slot, terminal = .var (slot.toVariable scope.stem)) :
    ∀ terminal, (lowering.joined scope branches).2.1 = some terminal →
      ∃ slot : Slot, terminal = .var (slot.toVariable scope.stem) := by
  intro terminal found
  unfold Lowering.joined at found
  split at found
  · cases found
  · rename_i first firstFound
    split at found
    · cases found
      obtain ⟨branch, head, ended⟩ := Option.bind_eq_some_iff.1 firstFound
      exact terminals branch (List.mem_of_head? head) _ ended
    · simp only [plain.node] at found
      cases found
      exact ⟨_, rfl⟩

theorem choices_terminal (plain : lowering.Plain) {choices : List ShapePath}
    (steps : ∀ path ∈ choices, path.path.hops ≠ 0) :
    ∀ terminal, (lowering.choices classes undecided scope choices).1.terminal = some terminal →
      ∃ slot : Slot, terminal = .var (slot.toVariable scope.stem) := by
  intro terminal found
  have terminals := lowering.branches_terminal classes undecided scope plain steps
  rw [← lowering.branches_stem classes undecided scope choices] at terminals ⊢
  unfold Lowering.choices at found
  split at found
  · cases found
  · cases undecided
    · cases found
    · exact lowering.joined_terminal _ plain terminals terminal found

theorem filters_terminal (constraints : List FilterConstraint) :
    (lowering.filters scope constraints).1.terminal = none := by
  induction constraints generalizing scope with
  | nil => rfl
  | cons constraint rest inductionHypothesis =>
    rw [filters_cons, terminal_append, inductionHypothesis]
    unfold Lowering.filter
    split <;> rfl

/-! ### The parts of a property shape -/

/-- The paths of a property shape that must all match, the longest ones first. -/
def required (lowering : Lowering) (scope : Scope) (shape : PropertyShape) : Fragment × Scope :=
  lowering.paths shape.classes true scope (longestFirst shape.paths)

/-- The choices of a property shape. -/
def chosen (lowering : Lowering) (scope : Scope) (shape : PropertyShape) : Fragment × Scope :=
  lowering.choices shape.classes (lowering.required scope shape).1.terminal.isNone
    (lowering.required scope shape).2 shape.choices

/-- The conditions of a property shape. -/
def conditions (lowering : Lowering) (scope : Scope) (shape : PropertyShape) :
    Fragment × Scope :=
  lowering.filters (lowering.chosen scope shape).2 shape.filters

/-- All parts of a property shape. -/
def together (lowering : Lowering) (scope : Scope) (shape : PropertyShape) : Fragment :=
  (lowering.required scope shape).1 ++ (lowering.chosen scope shape).1 ++
    (lowering.conditions scope shape).1

theorem property_of_values {shape : PropertyShape} (values : shape.maxCount ≠ some 0) :
    lowering.property scope shape =
      .ok (if shape.minCount = some 0 then madeOptional (lowering.together scope shape)
        else lowering.together scope shape, (lowering.conditions scope shape).2) :=
  if_neg values

theorem property_stem {shape : PropertyShape} {fragment : Fragment} {next : Scope}
    (lowered : lowering.property scope shape = .ok (fragment, next)) :
    next.stem = scope.stem := by
  by_cases values : shape.maxCount = some 0
  · rw [Lowering.property, if_pos values] at lowered
    obtain ⟨predicates, -, made⟩ := Success.bind_ok.1 lowered
    cases made
    rfl
  · rw [lowering.property_of_values scope values] at lowered
    obtain ⟨-, rfl⟩ := Prod.mk.inj (Except.ok.inj lowered)
    exact (lowering.filters_stem _ _).trans ((lowering.choices_stem _ _ _ _).trans
      (lowering.paths_stem _ _ _ _))

theorem together_terminal (shape : PropertyShape) :
    (lowering.together scope shape).terminal =
      (lowering.required scope shape).1.terminal.or (lowering.chosen scope shape).1.terminal := by
  rw [together, terminal_append, terminal_append, conditions, filters_terminal, Option.or_none]

/-- The terminal of a property shape is a slot of its scope. -/
theorem property_terminal (plain : lowering.Plain) {shape : PropertyShape}
    (regular : shape.Regular) {fragment : Fragment} {next : Scope} {terminal : Term}
    (lowered : lowering.property scope shape = .ok (fragment, next))
    (ended : fragment.terminal = some terminal) :
    ∃ slot : Slot, terminal = .var (slot.toVariable scope.stem) := by
  by_cases values : shape.maxCount = some 0
  · rw [Lowering.property, if_pos values] at lowered
    obtain ⟨predicates, -, made⟩ := Success.bind_ok.1 lowered
    cases made
    cases ended
  · have steps : ∀ path ∈ longestFirst shape.paths, path.path.hops ≠ 0 := fun path member =>
      regular.paths path (List.mem_mergeSort.1 member)
    rw [lowering.property_of_values scope values] at lowered
    obtain ⟨rfl, -⟩ := Prod.mk.inj (Except.ok.inj lowered)
    have found : (lowering.together scope shape).terminal = some terminal := by
      split at ended <;> exact ended
    rw [together_terminal] at found
    rcases Option.or_eq_some_iff.1 found with required | ⟨-, chosen⟩
    · exact lowering.paths_terminal shape.classes true scope plain steps terminal required
    · have slot := lowering.choices_terminal shape.classes _ _ plain regular.choices terminal chosen
      rwa [Lowering.required, lowering.paths_stem] at slot

end Lowering

end ShapeQuery
