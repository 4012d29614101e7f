/-
This file spells language tags as the grammar does: letters, and letters and digits after each
hyphen. Such a tag is read to its end, and every tag that is well formed is spelled so.
-/
import ShapeQuery.Proofs.Sparql.Lexing
import ShapeQuery.Rdf.LanguageTag

namespace ShapeQuery.Sparql.Lexer

instance (test : Char → Bool) (run : List Char) : Decidable (IsRun test run) :=
  inferInstanceAs (Decidable (_ ∧ _))

/-- Subtags with a hyphen before each. -/
def hyphenated (subtags : List (List Char)) : List Char :=
  subtags.flatMap ('-' :: ·)

/-- A language tag: letters, and letters and digits after each hyphen. -/
def IsLanguageTag (tag : String) : Prop :=
  ∃ language subtags, tag.toList = language ++ hyphenated subtags ∧
    IsRun Char.isAlpha language ∧ ∀ subtag ∈ subtags, IsRun Iri.isAsciiAlphanumeric subtag

/-! ### Reading -/

theorem tagContent_run {later : Bool} {run : List Char}
    (inside : ∀ character ∈ run, (character.isAlpha || (later && character.isDigit)) = true)
    (rest : List Char) : tagContent later (run ++ rest) =
      (run ++ (tagContent later rest).1, (tagContent later rest).2) := by
  induction run with
  | nil => rfl
  | cons character others inductionHypothesis =>
    rw [List.forall_mem_cons] at inside
    have noHyphen : character ≠ '-' := by
      rintro rfl
      cases later with
      | _ => exact absurd inside.1 (by decide)
    rw [List.cons_append, tagContent, if_neg (by simp [noHyphen]), if_pos inside.1,
      inductionHypothesis inside.2]
    rfl

/-- Subtags are read one after another. -/
theorem tagContent_hyphenated {later : Bool} {subtags : List (List Char)}
    (runs : ∀ subtag ∈ subtags, IsRun Iri.isAsciiAlphanumeric subtag) :
    tagContent later (hyphenated subtags) = (hyphenated subtags, []) := by
  induction subtags generalizing later with
  | nil => rfl
  | cons subtag rest inductionHypothesis =>
    rw [List.forall_mem_cons] at runs
    obtain ⟨⟨nonempty, inside⟩, further⟩ := runs
    have written : hyphenated (subtag :: rest) = '-' :: (subtag ++ hyphenated rest) :=
      List.flatMap_cons
    obtain ⟨first, others, rfl⟩ := List.exists_cons_of_ne_nil nonempty
    have opens : Iri.isAsciiAlphanumeric first = true := inside first List.mem_cons_self
    rw [written, tagContent, if_pos (by simp [opens]), tagContent_run inside,
      inductionHypothesis further]

/-- A language tag is read to its end. -/
theorem isTag_of_isLanguageTag {tag : String} (allowed : IsLanguageTag tag) : IsTag tag := by
  obtain ⟨language, subtags, written, ⟨nonempty, letters⟩, runs⟩ := allowed
  obtain ⟨first, others, rfl⟩ := List.exists_cons_of_ne_nil nonempty
  refine ⟨first, others ++ hyphenated subtags, written, letters first List.mem_cons_self, ?_⟩
  rw [written, tagContent_run (by simpa using letters), tagContent_hyphenated runs]

/-! ### Well-formed tags -/

open Rdf.LanguageTag (Position followedBy registered isWellFormed)

theorem splitOn_hyphen (characters : List Char) : ∃ first others,
    Text.splitOn '-' characters = first :: others ∧ characters = first ++ hyphenated others := by
  induction characters with
  | nil => exact ⟨[], [], rfl, rfl⟩
  | cons character rest inductionHypothesis =>
    obtain ⟨first, others, split, written⟩ := inductionHypothesis
    rw [Text.splitOn, split]
    by_cases same : character = '-'
    · refine ⟨[], first :: others, if_pos same, ?_⟩
      rw [same, written]
      rfl
    · exact ⟨character :: first, others, if_neg same, by rw [written, List.cons_append]⟩

/-- A tag is spelled as its pieces are. -/
theorem isLanguageTag_of_splitOn {tag : String}
    (letters : ∀ character ∈ (Text.splitOn '-' tag.toList).headD [], character.isAlpha = true)
    (runs : ∀ piece ∈ Text.splitOn '-' tag.toList, IsRun Iri.isAsciiAlphanumeric piece) :
    IsLanguageTag tag := by
  obtain ⟨language, subtags, split, written⟩ := splitOn_hyphen tag.toList
  rw [split] at letters runs
  rw [List.forall_mem_cons] at runs
  exact ⟨language, subtags, written, ⟨runs.1.1, letters⟩, runs.2⟩

theorem isRun_of_next? {position next : Position} {subtag : List Char}
    (allowed : position.next? subtag = some next) : IsRun Iri.isAsciiAlphanumeric subtag := by
  unfold Position.next? at allowed
  simp only at allowed
  split at allowed
  case isTrue => cases allowed
  case isFalse checked =>
    simp only [Bool.or_eq_true, not_or, List.isEmpty_iff, Bool.not_eq_true', Bool.not_eq_false]
      at checked
    exact ⟨checked.1.1, List.all_eq_true.1 checked.2⟩

theorem isRun_of_followedBy {position : Position} {subtags : List (List Char)}
    (ordered : followedBy position subtags = true) :
    ∀ subtag ∈ subtags, IsRun Iri.isAsciiAlphanumeric subtag := by
  induction subtags generalizing position with
  | nil => exact fun _ member => absurd member List.not_mem_nil
  | cons subtag rest inductionHypothesis =>
    unfold followedBy at ordered
    split at ordered
    · rename_i next allowed
      exact List.forall_mem_cons.2 ⟨isRun_of_next? allowed, inductionHypothesis ordered⟩
    · cases ordered

theorem registered_spelled : ∀ tag ∈ registered,
    (∀ character ∈ (Text.splitOn '-' tag.toList).headD [], character.isAlpha = true) ∧
      ∀ piece ∈ Text.splitOn '-' tag.toList, IsRun Iri.isAsciiAlphanumeric piece := by
  decide

/-- Every well-formed tag is a language tag. -/
theorem isLanguageTag_of_isWellFormed {tag : String} (wellFormed : isWellFormed tag = true) :
    IsLanguageTag tag := by
  rw [isWellFormed, Bool.or_eq_true, List.contains_iff_mem] at wellFormed
  rcases wellFormed with listed | ordered
  · exact isLanguageTag_of_splitOn (registered_spelled tag listed).1
      (registered_spelled tag listed).2
  · obtain ⟨language, subtags, split, -⟩ := splitOn_hyphen tag.toList
    have spelled (letters : IsRun Char.isAlpha language) {position : Position}
        (ordered : followedBy position subtags = true) : IsLanguageTag tag := by
      refine isLanguageTag_of_splitOn ?_ ?_
      · rw [split]
        exact letters.2
      · rw [split]
        exact List.forall_mem_cons.2 ⟨⟨letters.1, fun character member =>
          Bool.or_eq_true_iff.2 (.inl (letters.2 character member))⟩, isRun_of_followedBy ordered⟩
    rw [split] at ordered
    simp only at ordered
    split at ordered
    case isTrue only =>
      rw [only] at spelled
      exact spelled (by decide) ordered
    case isFalse =>
      simp only [Bool.and_eq_true, decide_eq_true_eq, List.all_eq_true] at ordered
      exact spelled ⟨List.ne_nil_of_length_pos (by omega), ordered.1.2⟩ ordered.2

end ShapeQuery.Sparql.Lexer
