/-
This file proves what becomes of the integers of a filter. Those that a signed word of 64 bits holds
keep their value as a literal, and as the literal is read back from a query. The greater ones go
through a floating point number, which costs them up to 2048.
-/
import Mathlib.Algebra.Order.Group.Unbundled.Int
import Mathlib.Data.List.TakeWhile
import ShapeQuery.Filter.Value
import ShapeQuery.Proofs.Number.Shortest
import ShapeQuery.Proofs.Sparql.Parts
import ShapeQuery.Proofs.Sparql.Values

namespace ShapeQuery

/-! ### Numerals -/

/-- Without a point, digits denote a natural number. -/
theorem decimal?_of_natural {digits : List Char} {number : Nat}
    (read : natural? digits = some number) : decimal? digits = some (number : ℚ) := by
  have pointless : ∀ digit ∈ digits, decide (digit ≠ '.') = true := by
    intro digit member
    unfold natural? at read
    split at read
    · rename_i known
      refine decide_eq_true fun point => ?_
      exact absurd (List.all_eq_true.1 known.2 digit member) (point ▸ by decide)
    · cases read
  have whole : digits.takeWhile (· ≠ '.') = digits := List.takeWhile_eq_self_iff.2 pointless
  have part : (digits.dropWhile (· ≠ '.')).drop 1 = [] := by
    rw [List.dropWhile_eq_nil_iff.2 pointless, List.drop_nil]
  simp only [decimal?, whole, part, List.append_nil, read]
  simp

theorem number?_of_natural {text : String} {number : Nat} {datatype : Iri}
    (numeric : datatype = Vocabulary.xsdInteger ∨ datatype = Vocabulary.xsdDecimal)
    (read : natural? text.toList = some number) :
    Rdf.Term.number? (.literal (.typed text datatype)) = some (number : ℚ) := by
  rw [Rdf.Term.number?, if_pos numeric, signed_of_natural read, decimal?_of_natural read]

/-- A whole decimal is written as the number that it stands for. -/
theorem natural?_plain {decimal : Number.Decimal} (integral : 0 ≤ decimal.exponent) :
    natural? decimal.plain.toList = some decimal.whole := by
  have written := Number.Decimal.toList_plain integral
  have known : (decimal.digits ++ List.replicate decimal.exponent.toNat '0').all Char.isDigit =
      true := by
    rw [List.all_append, Bool.and_eq_true, List.all_eq_true]
    refine ⟨fun _ member => Nat.isDigit_of_mem_toDigits (by decide) (by decide) member, ?_⟩
    simp
  have digits : decimal.digits ≠ [] := Nat.toDigits_ne_nil
  rw [written, natural?, if_pos ⟨List.append_ne_nil_of_left_ne_nil digits _, known⟩,
    Nat.ofDigitChars_append, Nat.ofDigitChars_replicate_zero, Number.Decimal.digits,
    Nat.ofDigitChars_ten_toDigits, Nat.mul_comm]
  rfl

/-- The literal of an integer denotes it. -/
theorem number?_ofInt (value : Int) :
    Rdf.Term.number? (.literal (.ofInt value)) = some (value : ℚ) := by
  cases value with
  | ofNat number => exact number?_of_natural (.inl rfl) (natural_toString number)
  | negSucc number =>
    have read := decimal?_of_natural (natural_toString (number + 1))
    have signed : (toString (Int.negSucc number)).toList = '-' :: (toString (number + 1)).toList :=
      String.toList_append
    rw [Literal.ofInt, Rdf.Term.number?, if_pos (.inl rfl), signed?, signed, Int.cast_negSucc]
    exact congrArg (Option.map fun number => -number) read

namespace Filter

open Number (twoTo)

/-! ### Integers -/

/-- An integer that only an unsigned word of 64 bits holds becomes a decimal that is off by 2048 at
most. -/
theorem numberLiteral_of_wide {value : Nat} (wide : twoTo 63 ≤ value) (bounded : value < twoTo 64) :
    ∃ decimal : Number.Decimal, 0 ≤ decimal.exponent ∧
      numberLiteral (.integer value) = .typed decimal.plain Vocabulary.xsdDecimal ∧
      value ≤ decimal.whole + 2048 ∧ decimal.whole ≤ value + 2048 := by
  obtain ⟨decimal, integral, written, low, high⟩ :=
    Number.Binary64.plainText_of_wide wide bounded false
  refine ⟨decimal, integral, ?_, low, high⟩
  have beyond : ¬ (value : Int) ≤ greatestInteger := by
    have greatest : greatestInteger = (twoTo 63 : Int) - 1 := rfl
    omega
  have positive : decide ((value : Int) < 0) = false :=
    decide_eq_false (Int.not_lt.2 (Int.natCast_nonneg value))
  rw [numberLiteral, if_neg beyond, Number.Binary64.ofInt, positive, Int.natAbs_natCast, written]
  exact congrArg (Literal.typed · Vocabulary.xsdDecimal) String.empty_append

/-- An integer becomes a literal that is read back as it is. It denotes the integer, if that is not
greater than a signed word of 64 bits can hold; the others that an unsigned word can hold are off
by 2048 at most. -/
theorem Value.ofJson_integer (operator : String) {value : Int} (bounded : value < twoTo 64) :
    ∃ text datatype, ∃ number : Int,
      Value.ofJson operator (.number (.integer value)) = .ok (.literal (.typed text datatype)) ∧
        (datatype = Vocabulary.xsdInteger ∨ datatype = Vocabulary.xsdDecimal) ∧
        Rdf.Term.number? (.literal (.typed text datatype)) = some (number : ℚ) ∧
        Sparql.Term.parse? (Value.literal (.typed text datatype)).term.text =
          some (.literal (.typed text datatype)) ∧
        (value ≤ greatestInteger → number = value) ∧ |number - value| ≤ 2048 := by
  have read (text : String) {datatype : Iri}
      (numeric : datatype = Vocabulary.xsdInteger ∨ datatype = Vocabulary.xsdDecimal) :
      Sparql.Term.parse? (Value.literal (.typed text datatype)).term.text =
        some (.literal (.typed text datatype)) := by
    refine Sparql.Term.parse?_written ?_
    show '>' ∉ datatype.text.toList
    rcases numeric with rfl | rfl <;> decide
  by_cases exact : value ≤ greatestInteger
  · refine ⟨toString value, Vocabulary.xsdInteger, value, ?_, .inl rfl, number?_ofInt value,
      read _ (.inl rfl), fun _ => rfl, ?_⟩
    · rw [Value.ofJson, numberLiteral, if_pos exact]
      rfl
    · rw [sub_self, abs_zero]
      decide
  · have greatest : greatestInteger = (twoTo 63 : Int) - 1 := rfl
    obtain ⟨natural, rfl⟩ := Int.eq_ofNat_of_zero_le (show 0 ≤ value by omega)
    obtain ⟨decimal, integral, written, low, high⟩ :=
      @numberLiteral_of_wide natural (by omega) (by omega)
    refine ⟨decimal.plain, Vocabulary.xsdDecimal, decimal.whole, ?_, .inr rfl,
      number?_of_natural (.inr rfl) (natural?_plain integral), read _ (.inr rfl),
      fun small => absurd small exact, ?_⟩
    · rw [Value.ofJson, written]
    · rw [abs_le']
      omega

/-- The greatest signed word keeps its value. -/
theorem Value.ofJson_integer_signed :
    (9223372036854775807 : Int) < twoTo 64 ∧
      ∃ literal, Value.ofJson "=" (.number (.integer 9223372036854775807)) =
          .ok (.literal literal) ∧
        Rdf.Term.number? (.literal literal) = some 9223372036854775807 ∧
        Sparql.Term.parse? (Value.literal literal).term.text = some (.literal literal) := by
  have bounded : (9223372036854775807 : Int) < twoTo 64 := by decide
  obtain ⟨text, datatype, number, made, -, denoted, read, kept, -⟩ :=
    Value.ofJson_integer "=" bounded
  rw [kept (by decide), Int.cast_ofNat] at denoted
  exact ⟨bounded, _, made, denoted, read⟩

/-- The integer after it does not: it becomes the decimal 9223372036854776000. -/
theorem Value.integer_rounded :
    ¬ ∃ literal, Value.ofJson "=" (.number (.integer 9223372036854775808)) =
          .ok (.literal literal) ∧
        Rdf.Term.number? (.literal literal) = some 9223372036854775808 := by
  rintro ⟨literal, made, denoted⟩
  have written : numberLiteral (.integer 9223372036854775808) =
      .typed "9223372036854776000" Vocabulary.xsdDecimal := by
    decide +kernel
  rw [Value.ofJson, written] at made
  obtain rfl := Value.literal.inj (Except.ok.inj made)
  have rounded := number?_of_natural (.inr rfl) (natural_toString 9223372036854776000)
  have digits : toString 9223372036854776000 = "9223372036854776000" := by decide
  rw [digits] at rounded
  have same := Option.some.inj (rounded.symm.trans denoted)
  exact absurd (Nat.cast_injective same) (by decide)

end Filter

end ShapeQuery
