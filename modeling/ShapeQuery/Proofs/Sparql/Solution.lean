/-
This file defines solutions, which give values to some of the unknowns of a query, and how they are
joined. A context holds what is known before; it restricts the solutions that are found without
becoming a part of them.
-/
import Mathlib.Logic.Equiv.Defs
import ShapeQuery.Proofs.Sparql.Replacement

namespace ShapeQuery.Sparql

/-- The values of some unknowns. -/
abbrev Solution := Unknown → Option Rdf.Term

namespace Solution

/-- The solution without values. -/
def empty : Solution := fun _ => none

/-- The values of two solutions; those of the first one count. -/
def merge (first second : Solution) : Solution := fun unknown =>
  (first unknown).or (second unknown)

/-- Whether two solutions give no unknown different values. -/
def Compatible (first second : Solution) : Prop :=
  ∀ unknown left right, first unknown = some left → second unknown = some right → left = right

noncomputable instance (first second : Solution) : Decidable (first.Compatible second) :=
  Classical.propDecidable _

/-- A solution with one more value, unless the unknown has another one. -/
def assign (solution : Solution) (unknown : Unknown) (value : Rdf.Term) : Option Solution :=
  match solution unknown with
  | none => some (Function.update solution unknown (some value))
  | some known => if known = value then some solution else none

/-- The values of some variables. -/
def restrict (solution : Solution) (names : List Variable) : Solution
  | .var name => if name ∈ names then solution (.var name) else none
  | .blank _ => none

/-- The values of the variables. -/
def named (solution : Solution) : Solution
  | .var name => solution (.var name)
  | .blank _ => none

/-- Whether a solution gives values to some unknowns only. -/
def Within (solution : Solution) (unknowns : List Unknown) : Prop :=
  ∀ unknown, unknown ∉ unknowns → solution unknown = none

/-- Whether a solution gives no value to some unknowns. -/
def Outside (solution : Solution) (unknowns : List Unknown) : Prop :=
  ∀ unknown ∈ unknowns, solution unknown = none

/-- Whether two solutions say the same about some unknowns. -/
def Agree (unknowns : List Unknown) (first second : Solution) : Prop :=
  ∀ unknown ∈ unknowns, first unknown = second unknown

/-- The candidates that fit what is known, joined with the current solution. -/
noncomputable def joined (context current : Solution) (candidates : List Solution) :
    List Solution :=
  (candidates.filter fun candidate => (current.merge context).Compatible candidate).map
    current.merge

/-! ### Merging -/

@[simp] theorem empty_merge (solution : Solution) : empty.merge solution = solution := rfl

@[simp] theorem merge_empty (solution : Solution) : solution.merge empty = solution := by
  funext unknown
  exact Option.or_none

theorem merge_assoc (first second third : Solution) :
    (first.merge second).merge third = first.merge (second.merge third) := by
  funext unknown
  exact Option.or_assoc

theorem merge_of_none {first : Solution} {unknown : Unknown} (free : first unknown = none)
    (second : Solution) : first.merge second unknown = second unknown := by
  rw [merge, free, Option.none_or]

theorem merge_of_some {first : Solution} {unknown : Unknown} {value : Rdf.Term}
    (known : first unknown = some value) (second : Solution) :
    first.merge second unknown = some value := by
  rw [merge, known, Option.some_or]

theorem merge_update_empty {first : Solution} {unknown : Unknown}
    (free : first unknown = none) (value : Option Rdf.Term) :
    first.merge (Function.update empty unknown value) = Function.update first unknown value := by
  funext other
  by_cases same : other = unknown
  · rw [same, merge_of_none free, Function.update_self, Function.update_self]
  · rw [merge, Function.update_of_ne same, Function.update_of_ne same]
    exact Option.or_none

theorem assign_of_none {solution : Solution} {unknown : Unknown} (free : solution unknown = none)
    (value : Rdf.Term) :
    solution.assign unknown value = some (Function.update solution unknown (some value)) := by
  rw [assign, free]

theorem compatible_empty (solution : Solution) : empty.Compatible solution := by
  intro unknown left right known
  cases known

/-! ### Unknowns of solutions -/

theorem Within.mono {solution : Solution} {fewer more : List Unknown}
    (within : solution.Within fewer) (subset : fewer ⊆ more) : solution.Within more :=
  fun unknown absent => within unknown fun member => absent (subset member)

theorem within_empty (unknowns : List Unknown) : empty.Within unknowns :=
  fun _ _ => rfl

theorem Within.merge {first second : Solution} {unknowns : List Unknown}
    (one : first.Within unknowns) (other : second.Within unknowns) :
    (first.merge second).Within unknowns := by
  intro unknown absent
  rw [merge_of_none (one unknown absent), other unknown absent]

theorem Within.assign {solution extended : Solution} {unknown : Unknown} {value : Rdf.Term}
    {unknowns : List Unknown} (within : solution.Within unknowns) (member : unknown ∈ unknowns)
    (assigned : solution.assign unknown value = some extended) : extended.Within unknowns := by
  intro other absent
  have different : other ≠ unknown := fun equal => absent (equal ▸ member)
  unfold Solution.assign at assigned
  split at assigned
  · cases assigned
    rw [Function.update_of_ne different, within other absent]
  · split at assigned
    · cases assigned
      exact within other absent
    · cases assigned

theorem Within.restrict (solution : Solution) (names : List Variable) :
    (solution.restrict names).Within (names.map .var) := by
  intro unknown absent
  cases unknown with
  | var name =>
    refine if_neg fun member => absent (List.mem_map_of_mem member)
  | blank label => rfl

theorem Within.named {solution : Solution} {unknowns : List Unknown}
    (within : solution.Within unknowns) : solution.named.Within unknowns := by
  intro unknown absent
  cases unknown with
  | var name => exact within _ absent
  | blank label => rfl

theorem Agree.mono {fewer more : List Unknown} {first second : Solution}
    (agree : Agree more first second) (subset : fewer ⊆ more) : Agree fewer first second :=
  fun unknown member => agree unknown (subset member)

theorem Agree.symm {unknowns : List Unknown} {first second : Solution}
    (agree : Agree unknowns first second) : Agree unknowns second first :=
  fun unknown member => (agree unknown member).symm

theorem Agree.merge {unknowns : List Unknown} {first second : Solution}
    (agree : Agree unknowns first second) (solution : Solution) :
    Agree unknowns (solution.merge first) (solution.merge second) := by
  intro unknown member
  rw [Solution.merge, Solution.merge, agree unknown member]

/-- A solution outside of some unknowns adds nothing that they could tell. -/
theorem Outside.agree_merge {solution : Solution} {unknowns : List Unknown}
    (outside : solution.Outside unknowns) (other : Solution) :
    Agree unknowns (solution.merge other) other :=
  fun unknown member => merge_of_none (outside unknown member) other

/-! ### Joining -/

theorem mem_joined {context current solution : Solution} {candidates : List Solution} :
    solution ∈ joined context current candidates ↔
      ∃ candidate ∈ candidates,
        (current.merge context).Compatible candidate ∧ solution = current.merge candidate := by
  simp only [joined, List.mem_map, List.mem_filter, decide_eq_true_eq, and_assoc]
  refine exists_congr fun candidate => and_congr_right fun _ => and_congr_right fun _ => ?_
  exact eq_comm

theorem joined_empty_empty (candidates : List Solution) :
    joined empty empty candidates = candidates := by
  rw [joined, List.filter_eq_self.2]
  · exact List.map_id candidates
  · intro candidate _
    exact decide_eq_true (compatible_empty candidate)

theorem compatible_congr {unknowns : List Unknown} {first second candidate : Solution}
    (agree : Agree unknowns first second) (within : candidate.Within unknowns) :
    first.Compatible candidate ↔ second.Compatible candidate := by
  have half {left right : Solution} (agree : Agree unknowns left right)
      (compatible : left.Compatible candidate) : right.Compatible candidate := by
    intro unknown known value leftKnown candidateKnown
    by_cases member : unknown ∈ unknowns
    · exact compatible unknown known value ((agree unknown member).trans leftKnown) candidateKnown
    · rw [within unknown member] at candidateKnown
      cases candidateKnown
  exact ⟨half agree, half agree.symm⟩

/-- The context matters only where the candidates have values. -/
theorem joined_congr {unknowns : List Unknown} {first second : Solution} (current : Solution)
    {candidates : List Solution} (agree : Agree unknowns first second)
    (within : ∀ candidate ∈ candidates, candidate.Within unknowns) :
    joined first current candidates = joined second current candidates := by
  unfold joined
  congr 1
  refine List.filter_congr fun candidate member => ?_
  exact decide_eq_decide.2 (compatible_congr (agree.merge current) (within candidate member))

/-- Values of other unknowns can be put before the current solution or before what it is joined
to. -/
theorem joined_merge {unknowns : List Unknown} {outer : Solution} (context current : Solution)
    {candidates : List Solution} (outside : outer.Outside unknowns)
    (within : ∀ candidate ∈ candidates, candidate.Within unknowns) :
    joined context (outer.merge current) candidates =
      (joined context current candidates).map outer.merge := by
  have kept (candidate : Solution) (member : candidate ∈ candidates) :
      ((outer.merge current).merge context).Compatible candidate ↔
        (current.merge context).Compatible candidate := by
    rw [merge_assoc]
    exact compatible_congr (outside.agree_merge _) (within candidate member)
  unfold joined
  rw [List.map_map, List.filter_congr fun candidate member =>
    decide_eq_decide.2 (kept candidate member)]
  exact List.map_congr_left fun candidate _ => merge_assoc outer current candidate

theorem joined_within {unknowns : List Unknown} {context current : Solution}
    {candidates : List Solution} (currentWithin : current.Within unknowns)
    (within : ∀ candidate ∈ candidates, candidate.Within unknowns) :
    ∀ solution ∈ joined context current candidates, solution.Within unknowns := by
  intro solution member
  obtain ⟨candidate, found, -, rfl⟩ := mem_joined.1 member
  exact currentWithin.merge (within candidate found)

end Solution

/-! ### Renamings -/

/-- A renamer of variables and of labels that keeps different ones different. -/
structure Renaming where
  names : Equiv.Perm Variable
  labels : Equiv.Perm String

namespace Renaming

/-- The renamer that takes another one back. -/
def inverse (renamer : Renaming) : Renaming :=
  ⟨renamer.names.symm, renamer.labels.symm⟩

/-- An unknown after a renamer. -/
def unknown (renamer : Renaming) : Unknown → Unknown
  | .var name => .var (renamer.names name)
  | .blank label => .blank (renamer.labels label)

/-- A solution after a renamer. -/
def solution (renamer : Renaming) (solution : Solution) : Solution :=
  fun unknown => solution (renamer.inverse.unknown unknown)

/-- A renamer as a replacement. -/
def replacement (renamer : Renaming) : Replacement :=
  ⟨fun name => .var (renamer.names name), renamer.names, renamer.labels⟩

@[simp] theorem unknown_inverse (renamer : Renaming) (unknown : Unknown) :
    renamer.unknown (renamer.inverse.unknown unknown) = unknown := by
  cases unknown <;> simp [inverse, Renaming.unknown]

@[simp] theorem inverse_unknown (renamer : Renaming) (unknown : Unknown) :
    renamer.inverse.unknown (renamer.unknown unknown) = unknown := by
  cases unknown <;> simp [inverse, Renaming.unknown]

@[simp] theorem solution_unknown (renamer : Renaming) (solution : Solution)
    (unknown : Unknown) :
    renamer.solution solution (renamer.unknown unknown) = solution unknown := by
  rw [Renaming.solution, inverse_unknown]

theorem solution_injective (renamer : Renaming) :
    Function.Injective renamer.solution := by
  intro first second equal
  funext unknown
  rw [← renamer.solution_unknown first, equal, solution_unknown]

@[simp] theorem solution_empty (renamer : Renaming) :
    renamer.solution .empty = .empty := rfl

theorem solution_merge (renamer : Renaming) (first second : Solution) :
    renamer.solution (first.merge second) =
      (renamer.solution first).merge (renamer.solution second) := rfl

theorem compatible_solution (renamer : Renaming) (first second : Solution) :
    (renamer.solution first).Compatible (renamer.solution second) ↔
      first.Compatible second := by
  constructor
  · intro compatible unknown left right leftKnown rightKnown
    refine compatible (renamer.unknown unknown) left right ?_ ?_
    · rw [solution_unknown, leftKnown]
    · rw [solution_unknown, rightKnown]
  · intro compatible unknown left right leftKnown rightKnown
    exact compatible _ left right leftKnown rightKnown

theorem joined_solution (renamer : Renaming) (context current : Solution)
    (candidates : List Solution) :
    Solution.joined (renamer.solution context) (renamer.solution current)
        (candidates.map renamer.solution) =
      (Solution.joined context current candidates).map renamer.solution := by
  unfold Solution.joined
  rw [List.filter_map, List.map_map, List.map_map]
  congr 1
  refine List.filter_congr fun candidate _ => ?_
  rw [Function.comp_apply, ← solution_merge]
  exact decide_eq_decide.2 (renamer.compatible_solution _ _)

theorem assign_solution (renamer : Renaming) (solution : Solution) (unknown : Unknown)
    (value : Rdf.Term) :
    (renamer.solution solution).assign (renamer.unknown unknown) value =
      (solution.assign unknown value).map renamer.solution := by
  unfold Solution.assign
  rw [solution_unknown]
  cases solution unknown with
  | none =>
    refine congrArg some (funext fun other => ?_)
    by_cases same : other = renamer.unknown unknown
    · subst same
      rw [Function.update_self, solution_unknown, Function.update_self]
    · have different : renamer.inverse.unknown other ≠ unknown := fun equal =>
        same (by rw [← equal, unknown_inverse])
      rw [Function.update_of_ne same, Renaming.solution, Renaming.solution,
        Function.update_of_ne different]
  | some known =>
    show (if known = value then _ else _) = Option.map _ (if known = value then _ else _)
    split <;> rfl

theorem restrict_solution (renamer : Renaming) (solution : Solution) (names : List Variable) :
    (renamer.solution solution).restrict (names.map renamer.names) =
      renamer.solution (solution.restrict names) := by
  funext unknown
  cases unknown with
  | var name =>
    have found : name ∈ names.map renamer.names ↔ renamer.names.symm name ∈ names := by
      rw [List.mem_map]
      constructor
      · rintro ⟨original, member, rfl⟩
        rwa [Equiv.symm_apply_apply]
      · intro member
        exact ⟨_, member, Equiv.apply_symm_apply _ _⟩
    show (if _ then _ else _) = if _ then _ else _
    simp only [found]
    rfl
  | blank label => rfl

theorem named_solution (renamer : Renaming) (solution : Solution) :
    (renamer.solution solution).named = renamer.solution solution.named := by
  funext unknown
  cases unknown <;> rfl

end Renaming

end ShapeQuery.Sparql
