/-
This file numbers the variables of filters. Every variable of a condition has a part, which says
what it stands for, and the number of the condition; both can be read from its name. A permutation
of the numbers is therefore a renaming, which leaves the focus node alone.
-/
import Mathlib.GroupTheory.Perm.ViaEmbedding
import ShapeQuery.Filter.Lowering
import ShapeQuery.Proofs.Shape.Naming
import ShapeQuery.Proofs.Sparql.Solution

namespace ShapeQuery.Filter

open Shape (Slot)
open Sparql (Variable Renaming Unknown)

/-! ### Parts -/

/-- What a variable of a condition stands for: a word of its own, or a slot of the shape of a
queryable. -/
inductive Part where
  | word (text : String) (plain : ¬ ['v', 'a', 'r', '_'] <+: text.toList)
  | slot (slot : Slot)

namespace Part

/-- The variable of a part in the condition with a number. -/
def name (number : Nat) : Part → Variable
  | .word text _ => ⟨text ++ "_" ++ toString number⟩
  | .slot kind => kind.toVariable (Translator.stem number)

/-- What a name tells before its last underscore. -/
def front (number : Nat) : Part → String
  | .word text _ => text
  | .slot kind => Translator.stem number ++ "_" ++ kind.family

/-- The number after the last underscore of a name. -/
def back (number : Nat) : Part → Nat
  | .word _ _ => number
  | .slot kind => kind.number

theorem name_eq (part : Part) (number : Nat) :
    part.name number = ⟨part.front number ++ "_" ++ toString (part.back number)⟩ := by
  cases part <;> rfl

theorem stem_prefix (number : Nat) (rest : String) :
    ['v', 'a', 'r', '_'] <+: (Translator.stem number ++ rest).toList := by
  rw [Translator.stem, String.toList_append, String.toList_append]
  exact ⟨(toString number).toList ++ rest.toList, by simp⟩

/-- A name tells the part and the number. -/
theorem name_inj {first second : Part} {number other : Nat}
    (equal : first.name number = second.name other) : first = second ∧ number = other := by
  rw [name_eq, name_eq] at equal
  obtain ⟨fronts, backs⟩ := Shape.numbered_inj (Variable.mk.inj equal)
  cases first with
  | word text plain =>
    cases second with
    | word otherText _ =>
      have texts : text = otherText := fronts
      subst texts
      exact ⟨rfl, backs⟩
    | slot slot =>
      have texts : text = Translator.stem other ++ "_" ++ slot.family := fronts
      refine absurd ?_ plain
      rw [texts, String.append_assoc]
      exact stem_prefix other _
  | slot slot =>
    cases second with
    | word otherText plain =>
      have texts : Translator.stem number ++ "_" ++ slot.family = otherText := fronts
      refine absurd ?_ plain
      rw [← texts, String.append_assoc]
      exact stem_prefix number _
    | slot otherSlot =>
      have stems : "var_" ++ toString number ++ "_" ++ slot.family =
        "var_" ++ toString other ++ "_" ++ otherSlot.family := fronts
      simp only [String.append_assoc, String.append_right_inj] at stems
      rw [← String.append_assoc, ← String.append_assoc] at stems
      obtain ⟨numbers, families⟩ := Shape.numeral_append_inj stems
      exact ⟨congrArg _ (Slot.eq_of_family_number families backs), numbers⟩

/-- The focus node is no variable of a condition. -/
theorem name_ne_focusNode (part : Part) (number : Nat) : part.name number ≠ Shape.focusNode := by
  rw [name_eq]
  exact Shape.numbered_ne_focusNode _ _

/-- The part of the values of a predicate. -/
def own : Part := .word "var" (by decide)

theorem name_own (number : Nat) : own.name number = ⟨Translator.stem number⟩ := rfl

end Part

/-- The label of the configuration of a spatial join. -/
def configuration (number : Nat) : String :=
  "config_" ++ toString number

theorem configuration_injective : Function.Injective configuration := fun _ _ equal =>
  Shape.numeral_injective (String.append_right_inj _ |>.1 equal)

/-! ### Numbers -/

/-- The variables of conditions by their parts and numbers. -/
def naming : Part × Nat ↪ Variable :=
  ⟨fun named => named.1.name named.2, fun _ _ equal =>
    Prod.ext (Part.name_inj equal).1 (Part.name_inj equal).2⟩

/-- The renaming that permutes the numbers of conditions. -/
noncomputable def renumbering (numbers : Equiv.Perm Nat) : Renaming where
  names := Equiv.Perm.viaEmbedding ((Equiv.refl Part).prodCongr numbers) naming
  labels := numbers.viaEmbedding ⟨configuration, configuration_injective⟩

theorem renumbering_name (numbers : Equiv.Perm Nat) (part : Part) (number : Nat) :
    (renumbering numbers).names (part.name number) = part.name (numbers number) :=
  Equiv.Perm.viaEmbedding_apply _ naming (part, number)

theorem renumbering_focusNode (numbers : Equiv.Perm Nat) :
    (renumbering numbers).names Shape.focusNode = Shape.focusNode := by
  refine Equiv.Perm.viaEmbedding_apply_of_notMem _ _ _ ?_
  rintro ⟨⟨part, number⟩, equal⟩
  exact part.name_ne_focusNode number equal

theorem renumbering_configuration (numbers : Equiv.Perm Nat) (number : Nat) :
    (renumbering numbers).labels (configuration number) = configuration (numbers number) :=
  Equiv.Perm.viaEmbedding_apply _ ⟨configuration, configuration_injective⟩ number

/-! ### Blocks -/

/-- The numbers up to `count` and the `size` numbers after them change places. -/
def rotated (count size number : Nat) : Nat :=
  if number = 0 ∨ count + size < number then number
  else if number ≤ count then number + size
  else number - count

theorem rotated_rotated (count size number : Nat) :
    rotated size count (rotated count size number) = number := by
  unfold rotated
  split
  · rw [if_pos (by omega)]
  · split
    · rw [if_neg (by omega), if_neg (by omega)]
      omega
    · rw [if_neg (by omega), if_pos (by omega)]
      omega

/-- The permutation that moves the numbers after `count` to the start. -/
def rotation (count size : Nat) : Equiv.Perm Nat where
  toFun := rotated count size
  invFun := rotated size count
  left_inv := rotated_rotated count size
  right_inv := rotated_rotated size count

theorem rotation_add {count size offset : Nat} (positive : 0 < offset) (bounded : offset ≤ size) :
    rotation count size (count + offset) = offset := by
  show rotated count size (count + offset) = offset
  unfold rotated
  rw [if_neg (by omega), if_neg (by omega)]
  omega

/-- Whether an unknown belongs to one of the conditions after `low` and up to `high`. -/
def InBlock (low high : Nat) (unknown : Unknown) : Prop :=
  ∃ number, low < number ∧ number ≤ high ∧
    ((∃ part : Part, unknown = .var (part.name number)) ∨
      unknown = .blank (configuration number))

theorem InBlock.mono {low high less more : Nat} {unknown : Unknown}
    (inBlock : InBlock low high unknown) (lower : less ≤ low) (higher : high ≤ more) :
    InBlock less more unknown := by
  obtain ⟨number, above, below, named⟩ := inBlock
  exact ⟨number, Nat.lt_of_le_of_lt lower above, Nat.le_trans below higher, named⟩

/-- Different blocks have no common unknowns. -/
theorem InBlock.apart {low middle high : Nat} {unknown : Unknown}
    (first : InBlock low middle unknown) : ¬ InBlock middle high unknown := by
  rintro ⟨other, above, -, otherNamed⟩
  obtain ⟨number, -, below, named⟩ := first
  have different : number ≠ other := by omega
  rcases named with ⟨part, rfl⟩ | rfl
  · rcases otherNamed with ⟨otherPart, equal⟩ | equal
    · exact different (Part.name_inj (Unknown.var.inj equal)).2
    · cases equal
  · rcases otherNamed with ⟨otherPart, equal⟩ | equal
    · cases equal
    · exact different (configuration_injective (Unknown.blank.inj equal))

end ShapeQuery.Filter
