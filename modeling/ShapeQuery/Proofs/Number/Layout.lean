/-
This file counts the decimal places of numbers as they are written. A number in a fixed layout has
as many of them as it was asked for, and the plain layout has as many as the shortest decimal needs.
-/
import ShapeQuery.Number.Layout

namespace ShapeQuery.Number

/-- The number of characters after the point of a text; there are none if it has no point. -/
def decimals (text : String) : Nat :=
  ((text.toList.dropWhile (· ≠ '.')).drop 1).length

/-! ### Points -/

/-- A point stands before the last places, which are a part of the digits with zeros before them. -/
theorem toList_pointed (digits : List Char) (places : Nat) :
    ∃ whole part, (pointed digits places).toList =
        whole ++ (if places = 0 then [] else '.' :: part) ∧
      part.length = places ∧
      whole ++ part = List.replicate (places + 1 - digits.length) '0' ++ digits := by
  let padded := List.replicate (places + 1 - digits.length) '0' ++ digits
  have long : places ≤ padded.length := by
    simp only [padded, List.length_append, List.length_replicate]
    omega
  refine ⟨padded.take (padded.length - places), padded.drop (padded.length - places), ?_, ?_,
    List.take_append_drop ..⟩
  · by_cases none : places = 0
    · have all : padded.take (padded.length - places) = padded :=
        List.take_of_length_le (by omega)
      rw [all, if_pos none, List.append_nil]
      simp [pointed, none, padded]
    · simp [pointed, none, padded]
  · rw [List.length_drop]
    omega

/-- What holds of the digits, of a zero and of a point holds of all characters. -/
theorem forall_mem_pointed {test : Char → Prop} {digits : List Char}
    (known : ∀ digit ∈ digits, test digit) (zero : test '0') (point : test '.') (places : Nat) :
    ∀ character ∈ (pointed digits places).toList, test character := by
  obtain ⟨whole, part, written, -, split⟩ := toList_pointed digits places
  have padded : ∀ character ∈ whole ++ part, test character := by
    rw [split, List.forall_mem_append]
    exact ⟨fun _ member => List.eq_of_mem_replicate member ▸ zero, known⟩
  rw [List.forall_mem_append] at padded
  rw [written, List.forall_mem_append]
  refine ⟨padded.1, ?_⟩
  split
  · exact List.forall_mem_nil _
  · exact List.forall_mem_cons.2 ⟨point, padded.2⟩

theorem decimals_append {sign : String} (pointless : '.' ∉ sign.toList) (text : String) :
    decimals (sign ++ text) = decimals text := by
  have passed : ∀ character ∈ sign.toList, decide (character ≠ '.') = true := by
    intro character member
    exact decide_eq_true fun same => pointless (same ▸ member)
  rw [decimals, decimals, String.toList_append, List.dropWhile_append_of_pos passed]

theorem decimals_pointed {digits : List Char} (known : '.' ∉ digits) (places : Nat) :
    decimals (pointed digits places) = places := by
  obtain ⟨whole, part, written, size, split⟩ := toList_pointed digits places
  have passed : ∀ character ∈ whole, decide (character ≠ '.') = true := by
    intro character member
    refine decide_eq_true fun same => ?_
    have among : '.' ∈ whole ++ part := List.mem_append_left _ (same ▸ member)
    rw [split, List.mem_append] at among
    rcases among with zero | digit
    · exact absurd (List.eq_of_mem_replicate zero) (by decide)
    · exact known digit
  rw [decimals, written, List.dropWhile_append_of_pos passed]
  by_cases none : places = 0
  · rw [if_pos none, none]
    rfl
  · rw [if_neg none, ← size]
    rfl

/-! ### Signed numbers -/

theorem point_not_mem_signText (negative : Bool) : '.' ∉ (signText negative).toList := by
  cases negative <;> decide

theorem point_not_mem_toDigits (number : Nat) : '.' ∉ Nat.toDigits 10 number := by
  intro member
  exact absurd (Nat.isDigit_of_mem_toDigits (by decide) (by decide) member) (by decide)

namespace Binary64

/-- In a fixed layout a finite number has the decimal places that it was asked for. -/
theorem decimals_fixedText {value : Binary64} (finite : value.isFinite = true) (places : Nat) :
    decimals (value.fixedText places) = places := by
  cases value with
  | finite negative significand exponent =>
    rw [fixedText, decimals_append (point_not_mem_signText negative)]
    exact decimals_pointed (point_not_mem_toDigits _) places
  | infinite | notANumber => cases finite

/-- The decimal places of a number are those of its plain layout. -/
theorem decimalPlaces_eq_decimals (value : Binary64) :
    value.decimalPlaces = decimals value.plainText := by
  cases value with
  | finite negative significand exponent =>
    rw [plainText, decimals_append (point_not_mem_signText negative), Decimal.plain,
      decimals_pointed]
    · rfl
    · rw [List.mem_append, not_or]
      refine ⟨point_not_mem_toDigits _, fun member => ?_⟩
      exact absurd (List.eq_of_mem_replicate member) (by decide)
  | infinite negative => cases negative <;> rfl
  | notANumber => rfl

/-- The characters of numerals that are no digits. -/
def marks : List Char :=
  "-.infNa".toList

/-- What holds of all digits and marks holds of the characters of a number in a fixed layout. -/
theorem forall_mem_fixedText {test : Char → Prop}
    (digits : ∀ digit : Char, digit.isDigit = true → test digit)
    (others : ∀ mark ∈ marks, test mark) (value : Binary64) (places : Nat) :
    ∀ character ∈ (value.fixedText places).toList, test character := by
  have marked {text : String} (known : text.toList ⊆ marks) :
      ∀ character ∈ text.toList, test character :=
    fun character member => others character (known member)
  have signed (negative : Bool) : ∀ character ∈ (signText negative).toList, test character :=
    marked (by cases negative <;> decide)
  cases value with
  | finite negative significand exponent =>
    rw [fixedText, String.toList_append, List.forall_mem_append]
    refine ⟨signed negative, forall_mem_pointed (fun digit member => digits digit ?_)
      (digits '0' rfl) (others '.' (by decide)) places⟩
    exact Nat.isDigit_of_mem_toDigits (by decide) (by decide) member
  | infinite negative =>
    rw [fixedText, String.toList_append, List.forall_mem_append]
    exact ⟨signed negative, marked (by decide)⟩
  | notANumber =>
    show ∀ character ∈ "NaN".toList, test character
    exact marked (by decide)

end Binary64

end ShapeQuery.Number
