/-
This file tells which property shapes are lowered with a terminal. It depends on the shape alone
and not on the names of its nodes: one of the paths that must all match, or else the first choice,
has to have an end. The terminal of a shape about a variable is a variable.
-/
import ShapeQuery.Proofs.Shape.Conformance
import ShapeQuery.Proofs.Shape.Naming

namespace ShapeQuery

open Sparql (Term Variable)
open Shape (Scope)

/-- Whether a property shape leads to values: it allows for some, and one of its paths or its first
choice has an end. -/
def PropertyShape.Ends (shape : PropertyShape) : Prop :=
  shape.maxCount ≠ some 0 ∧
    ((shape.paths.any fun path => !path.isWildcard) ||
      shape.choices.head?.any fun path => !path.isWildcard) = true

/-- A terminal that is a variable, or no terminal at all. -/
inductive Terminated : Option Term → Bool → Prop
  | ended (name : Variable) : Terminated (some (.var name)) true
  | endless : Terminated none false

theorem Terminated.or {first second : Option Term} {here there : Bool}
    (terminated : Terminated first here) (further : here = false → Terminated second there) :
    Terminated (first.or second) (here || there) := by
  cases terminated with
  | ended name => exact .ended name
  | endless => exact further rfl

namespace Lowering

variable {lowering : Lowering} (plain : lowering.Plain) {about : Variable}
  (focus : lowering.focus = .var about) (classes : List Iri) (undecided : Bool) (scope : Scope)

section

include plain focus

theorem terminated_path (path : ShapePath) :
    Terminated (lowering.path classes undecided scope path).1.terminal (!path.isWildcard) := by
  unfold Lowering.path ShapePath.isWildcard
  split
  · rename_i wildcard
    rw [decide_eq_true wildcard]
    exact .endless
  · rename_i ordinary
    rw [decide_eq_false ordinary]
    dsimp only
    cases last : (lowering.nodes scope.stem scope.nextNode path.path.hops).getLast? with
    | none =>
      rw [Option.getD_none, focus]
      exact .ended about
    | some node =>
      have member := List.mem_of_getLast? last
      rw [plain.nodes] at member
      obtain ⟨offset, -, rfl⟩ := List.mem_map.1 member
      exact .ended _

theorem terminated_paths (paths : List ShapePath) :
    Terminated (lowering.paths classes undecided scope paths).1.terminal
      (paths.any fun path => !path.isWildcard) := by
  induction paths generalizing undecided scope with
  | nil => exact .endless
  | cons path rest inductionHypothesis =>
    rw [paths_cons, terminal_append, List.any_cons]
    exact (terminated_path plain focus classes undecided scope path).or
      fun _ => inductionHypothesis _ _

theorem terminated_branches (choices : List ShapePath) :
    Terminated ((lowering.branches classes undecided scope choices).1.head?.bind Fragment.terminal)
      (choices.head?.any fun path => !path.isWildcard) := by
  cases choices with
  | nil => exact .endless
  | cons path rest => exact terminated_path plain focus classes undecided scope path

omit focus in
theorem terminated_joined {branches : List Fragment} {ends : Bool}
    (terminated : Terminated (branches.head?.bind Fragment.terminal) ends) :
    Terminated (lowering.joined scope branches).2.1 ends := by
  unfold Lowering.joined
  generalize branches.head?.bind Fragment.terminal = terminal at terminated
  cases terminated with
  | endless => exact .endless
  | ended name =>
    dsimp only
    split
    · exact .ended name
    · rw [plain.node]
      exact .ended _

theorem terminated_choices (choices : List ShapePath) :
    Terminated (lowering.choices classes true scope choices).1.terminal
      (choices.head?.any fun path => !path.isWildcard) := by
  have joined := terminated_joined plain (lowering.branches classes true scope choices).2
    (terminated_branches plain focus classes true scope choices)
  unfold Lowering.choices
  split
  · rename_i empty
    rw [List.isEmpty_iff.1 empty]
    exact .endless
  · exact joined

theorem terminated_together (shape : PropertyShape) :
    Terminated (lowering.together scope shape).terminal
      ((shape.paths.any fun path => !path.isWildcard) ||
        shape.choices.head?.any fun path => !path.isWildcard) := by
  have sorted : ((longestFirst shape.paths).any fun path => !path.isWildcard) =
      shape.paths.any fun path => !path.isWildcard :=
    (List.mergeSort_perm ..).any_eq
  have required := terminated_paths plain focus shape.classes true scope
    (longestFirst shape.paths)
  rw [sorted] at required
  rw [together_terminal, Lowering.required]
  refine required.or fun none => ?_
  rw [none] at required
  have missing : (lowering.required scope shape).1.terminal.isNone = true := by
    rw [Lowering.required]
    generalize (lowering.paths shape.classes true scope (longestFirst shape.paths)).1.terminal =
      terminal at required
    cases required
    rfl
  rw [Lowering.chosen, missing]
  exact terminated_choices plain focus shape.classes _ shape.choices

/-- A property shape has a terminal, which is a variable, exactly if it leads to values. -/
theorem terminated_property {shape : PropertyShape} {fragment : Fragment} {next : Scope}
    (lowered : lowering.property scope shape = .ok (fragment, next)) :
    ∃ ends, Terminated fragment.terminal ends ∧ (ends = true ↔ shape.Ends) := by
  by_cases values : shape.maxCount = some 0
  · rw [Lowering.property, if_pos values] at lowered
    obtain ⟨predicates, -, made⟩ := Success.bind_ok.1 lowered
    cases made
    exact ⟨false, .endless, iff_of_false Bool.false_ne_true fun ends => ends.1 values⟩
  · rw [lowering.property_of_values scope values] at lowered
    obtain ⟨rfl, -⟩ := Prod.mk.inj (Except.ok.inj lowered)
    refine ⟨_, ?_, (and_iff_right values).symm⟩
    have terminated := terminated_together plain focus scope shape
    split <;> exact terminated

/-- Whether a property shape is lowered with a terminal depends on the shape alone. -/
theorem ends_iff (shape : PropertyShape) :
    shape.Ends ↔ ∃ fragment next name, lowering.property scope shape = .ok (fragment, next) ∧
      fragment.terminal = some (.var name) := by
  constructor
  · intro ends
    have lowered := lowering.property_of_values scope ends.1
    obtain ⟨_, terminated, same⟩ := terminated_property plain focus scope lowered
    rw [same.2 ends] at terminated
    generalize found : Fragment.terminal _ = terminal at terminated
    cases terminated with
    | ended name => exact ⟨_, _, name, lowered, found⟩
  · rintro ⟨fragment, next, name, lowered, ended⟩
    obtain ⟨_, terminated, same⟩ := terminated_property plain focus scope lowered
    rw [ended] at terminated
    cases terminated
    exact same.1 rfl

end

end Lowering

end ShapeQuery
