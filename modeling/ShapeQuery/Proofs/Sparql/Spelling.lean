/-
This file spells the literals that are written without quotes: an integer is digits behind an
optional sign, a decimal has a point among them with at least one digit after it, and a truth value
is a keyword. Every other literal is a string with what stands behind its quotes.
-/
import Mathlib.Data.List.Basic
import ShapeQuery.Sparql.Term

namespace ShapeQuery

/-- Whether there are some characters, and all of them pass a test. -/
def Sparql.Lexer.IsRun (test : Char → Bool) (run : List Char) : Prop :=
  run ≠ [] ∧ ∀ character ∈ run, test character = true

namespace Literal

open Sparql (Lexeme)
open Sparql.Lexer (IsRun)

/-! ### Numbers -/

/-- The signs of a number; it need not have one. -/
def signs : List (List Char) :=
  [[], ['+'], ['-']]

/-- An integer. -/
def IsInteger (value : String) : Prop :=
  ∃ sign ∈ signs, ∃ digits, value.toList = sign ++ digits ∧ IsRun Char.isDigit digits

/-- A decimal. -/
def IsDecimal (value : String) : Prop :=
  ∃ sign ∈ signs, ∃ whole fraction, value.toList = sign ++ (whole ++ '.' :: fraction) ∧
    (∀ character ∈ whole, character.isDigit = true) ∧ IsRun Char.isDigit fraction

variable {value : String}

theorem exists_sign (value : String) :
    ∃ sign ∈ signs, value.toList = sign ++ unsignedForm value := by
  unfold unsignedForm
  split
  · rename_i rest written
    exact ⟨['+'], by decide, written⟩
  · rename_i rest written
    exact ⟨['-'], by decide, written⟩
  · exact ⟨[], by decide, rfl⟩

/-- A sign is dropped once. -/
theorem unsignedForm_of_sign {sign body : List Char} (known : sign ∈ signs)
    (written : value.toList = sign ++ body)
    (plain : ∀ character ∈ body.head?, character = '.' ∨ character.isDigit = true) :
    unsignedForm value = body := by
  simp only [signs, List.mem_cons, List.not_mem_nil, or_false] at known
  rw [unsignedForm, written]
  rcases known with rfl | rfl | rfl
  · cases body with
    | nil => rfl
    | cons head tail =>
      have unsigned := plain head rfl
      split
      · rename_i opens
        cases opens
        exact absurd unsigned (by decide)
      · rename_i opens
        cases opens
        exact absurd unsigned (by decide)
      · rfl
  · rfl
  · rfl

theorem isIntegerForm_iff_unsigned :
    isIntegerForm value = true ↔ IsRun Char.isDigit (unsignedForm value) := by
  simp [isIntegerForm, IsRun]

theorem isIntegerForm_iff : isIntegerForm value = true ↔ IsInteger value := by
  rw [isIntegerForm_iff_unsigned]
  constructor
  · intro run
    obtain ⟨sign, known, written⟩ := exists_sign value
    exact ⟨sign, known, _, written, run⟩
  · rintro ⟨sign, known, digits, written, run⟩
    rwa [unsignedForm_of_sign known written fun character first =>
      .inr (run.2 character (List.mem_of_mem_head? first))]

theorem isDecimalForm_iff_unsigned : isDecimalForm value = true ↔
    ∃ whole fraction, unsignedForm value = whole ++ '.' :: fraction ∧
      (∀ character ∈ whole, character.isDigit = true) ∧ IsRun Char.isDigit fraction := by
  simp only [isDecimalForm, Bool.and_eq_true, List.all_eq_true, Bool.not_eq_true',
    List.isEmpty_eq_false_iff]
  constructor
  · rintro ⟨⟨nonempty, whole⟩, fraction⟩
    cases found : (unsignedForm value).dropWhile (· ≠ '.') with
    | nil =>
      rw [found] at nonempty
      exact absurd rfl nonempty
    | cons mark rest =>
      have stopped := List.head?_dropWhile_not (· ≠ '.') (unsignedForm value)
      have split := @List.takeWhile_append_dropWhile _ (· ≠ '.') (unsignedForm value)
      rw [found] at stopped nonempty fraction split
      obtain rfl : mark = '.' := by simpa using stopped
      exact ⟨_, rest, split.symm, whole, nonempty, fraction⟩
  · rintro ⟨whole, fraction, split, digits, nonempty, run⟩
    have before : ∀ character ∈ whole, decide (character ≠ '.') = true :=
      fun character member => decide_eq_true fun same =>
        absurd (same ▸ digits character member) (by decide)
    rw [split, List.takeWhile_append_of_pos before, List.dropWhile_append_of_pos before]
    simpa using ⟨⟨nonempty, digits⟩, run⟩

theorem isDecimalForm_iff : isDecimalForm value = true ↔ IsDecimal value := by
  rw [isDecimalForm_iff_unsigned]
  constructor
  · rintro ⟨whole, fraction, split, digits, run⟩
    obtain ⟨sign, known, written⟩ := exists_sign value
    exact ⟨sign, known, whole, fraction, split ▸ written, digits, run⟩
  · rintro ⟨sign, known, whole, fraction, written, digits, run⟩
    refine ⟨whole, fraction, unsignedForm_of_sign known written fun character first => ?_,
      digits, run⟩
    cases whole with
    | nil => exact .inl (Option.some.inj first).symm
    | cons head tail =>
      obtain rfl := Option.some.inj first
      exact .inr (digits head List.mem_cons_self)

/-! ### Lexemes -/

/-- The literals that have a spelling without quotes, and the lexemes that spell them. -/
inductive BareAs : Literal → Lexeme → Prop where
  | integer {value : String} : IsInteger value →
      BareAs (.typed value Vocabulary.xsdInteger) (.number value)
  | decimal {value : String} : IsDecimal value →
      BareAs (.typed value Vocabulary.xsdDecimal) (.number value)
  | truth {value : String} : value = "true" ∨ value = "false" →
      BareAs (.typed value Vocabulary.xsdBoolean) (.word value)

/-- Whether a literal has a spelling without quotes. -/
def IsBare (literal : Literal) : Prop :=
  ∃ lexeme, literal.BareAs lexeme

/-- What stands behind the quotes of a literal. -/
def suffix : Literal → List Lexeme
  | .plain _ => []
  | .tagged _ language => [.language language]
  | .typed _ datatype => [.mark "^^", .iri datatype]

/-- Quotes are left out exactly if there is a spelling without them. -/
theorem lexemes_cases (literal : Literal) :
    (∃ lexeme, literal.BareAs lexeme ∧ literal.lexemes = [lexeme]) ∨
      ¬ literal.IsBare ∧ literal.lexemes = .string literal.value :: literal.suffix := by
  cases literal with
  | plain value => exact .inr ⟨nofun, rfl⟩
  | tagged value language => exact .inr ⟨nofun, rfl⟩
  | typed value datatype =>
    rw [lexemes]
    split
    case isTrue integer =>
      rw [Bool.and_eq_true, decide_eq_true_eq, isIntegerForm_iff] at integer
      obtain ⟨rfl, spelled⟩ := integer
      exact .inl ⟨_, .integer spelled, rfl⟩
    case isFalse noInteger =>
      split
      case isTrue decimal =>
        rw [Bool.and_eq_true, decide_eq_true_eq, isDecimalForm_iff] at decimal
        obtain ⟨rfl, spelled⟩ := decimal
        exact .inl ⟨_, .decimal spelled, rfl⟩
      case isFalse noDecimal =>
        split
        case isTrue truth =>
          simp only [Bool.and_eq_true, Bool.or_eq_true, decide_eq_true_eq] at truth
          obtain ⟨rfl, spelled⟩ := truth
          exact .inl ⟨_, .truth spelled, rfl⟩
        case isFalse noTruth =>
          rw [Bool.and_eq_true, decide_eq_true_eq, isIntegerForm_iff] at noInteger
          rw [Bool.and_eq_true, decide_eq_true_eq, isDecimalForm_iff] at noDecimal
          simp only [Bool.and_eq_true, Bool.or_eq_true, decide_eq_true_eq] at noTruth
          refine .inr ⟨?_, rfl⟩
          rintro ⟨lexeme, spelled | spelled | spelled⟩
          · exact noInteger ⟨rfl, spelled⟩
          · exact noDecimal ⟨rfl, spelled⟩
          · exact noTruth ⟨rfl, spelled⟩

end Literal

end ShapeQuery
