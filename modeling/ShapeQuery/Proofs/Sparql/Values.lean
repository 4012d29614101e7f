/-
This file says what the comparisons, functions and sums of an engine do with texts and numbers.
The engine that knows texts, integers and decimals, and nothing else, does all of it: numbers are
compared by value, a text in lower case keeps its language, and a text with a language is never
equal to one without.
-/
import Mathlib.Algebra.BigOperators.Group.List.Basic
import Mathlib.Algebra.Order.Ring.Rat
import Mathlib.Data.Nat.Cast.Basic
import ShapeQuery.Proofs.Sparql.Evaluation
import ShapeQuery.Proofs.Text.Regex
import ShapeQuery.Text.Lowercase

namespace ShapeQuery

/-! ### Lower case -/

namespace Text

/-- Whether all characters of a text are in ASCII. -/
def IsAscii (text : String) : Prop :=
  ∀ character ∈ text.toList, character.toNat < 128

instance (text : String) : Decidable (IsAscii text) :=
  inferInstanceAs (Decidable (∀ character ∈ text.toList, character.toNat < 128))

theorem isAscii_append {first second : String} (one : IsAscii first) (other : IsAscii second) :
    IsAscii (first ++ second) := by
  intro character member
  rw [String.toList_append] at member
  exact (List.mem_append.1 member).elim (one character) (other character)

theorem isAscii_escapeRegex {text : String} (ascii : IsAscii text) :
    IsAscii (escapeRegex text) := by
  intro character member
  rw [escapeRegex, String.toList_ofList] at member
  obtain ⟨original, among, escaped⟩ := List.mem_flatMap.1 member
  unfold escapeRegexCharacter at escaped
  split at escaped
  · rcases List.mem_cons.1 escaped with rfl | same
    · decide
    · exact List.mem_singleton.1 same ▸ ascii original among
  · exact List.mem_singleton.1 escaped ▸ ascii original among

theorem lowerCaseOf_ascii {character : Char} (ascii : character.toNat < 128) :
    lowerCaseOf character = [character.toLower] ∧ character ≠ 'Σ' := by
  have all : ∀ code : Fin 128, lowerCaseOf (Char.ofNat code) = [(Char.ofNat code).toLower] ∧
      Char.ofNat code ≠ 'Σ' := by decide +kernel
  have found := all ⟨character.toNat, ascii⟩
  rwa [Char.ofNat_toNat] at found

theorem lowerCaseFrom_ascii {characters : List Char}
    (ascii : ∀ character ∈ characters, character.toNat < 128) (afterCased : Bool) :
    lowerCaseFrom afterCased characters = characters.map Char.toLower := by
  induction characters generalizing afterCased with
  | nil => rfl
  | cons character rest inductionHypothesis =>
    rw [List.forall_mem_cons] at ascii
    obtain ⟨lower, other⟩ := lowerCaseOf_ascii ascii.1
    rw [lowerCaseFrom, if_neg other, lower, inductionHypothesis ascii.2]
    rfl

theorem toList_toLower (text : String) : text.toLower.toList = text.toList.map Char.toLower :=
  String.toList_map

/-- In ASCII, a text is mapped to lower case character by character. -/
theorem lowercase_ascii {text : String} (ascii : IsAscii text) : lowercase text = text.toLower := by
  refine String.toList_injective ?_
  rw [lowercase, String.toList_ofList, lowerCaseFrom_ascii ascii, toList_toLower]

end Text

/-! ### Texts and numbers -/

namespace Literal

/-- The lexical form of a string, with or without a language. -/
def text? : Literal → Option String
  | .plain value => some value
  | .tagged value _ => some value
  | .typed _ _ => none

/-- A literal with another lexical form. -/
def withValue (value : String) : Literal → Literal
  | .plain _ => .plain value
  | .tagged _ language => .tagged value language
  | .typed _ datatype => .typed value datatype

end Literal

/-- The number that digits denote. -/
def natural? (digits : List Char) : Option Nat :=
  if digits ≠ [] ∧ digits.all Char.isDigit then some (Nat.ofDigitChars 10 digits 0) else none

theorem natural_toString (number : Nat) : natural? (toString number).toList = some number := by
  have all : (Nat.toDigits 10 number).all Char.isDigit = true :=
    List.all_eq_true.2 fun _ member =>
      Nat.isDigit_of_mem_toDigits (by decide) (by decide) member
  rw [Nat.toString_eq_repr, Nat.toList_repr, natural?, if_pos ⟨Nat.toDigits_ne_nil, all⟩,
    Nat.ofDigitChars_ten_toDigits]

/-- The number that digits denote, with a point among them or without. -/
def decimal? (digits : List Char) : Option ℚ :=
  let whole := digits.takeWhile (· ≠ '.')
  let part := (digits.dropWhile (· ≠ '.')).drop 1
  (natural? (whole ++ part)).map fun number => number / 10 ^ part.length

/-- What a text denotes, perhaps after a sign. -/
def signed? {α : Type} [Neg α] (read : List Char → Option α) (text : String) : Option α :=
  match text.toList with
  | '-' :: digits => (read digits).map fun number => -number
  | '+' :: digits => read digits
  | digits => read digits

/-- Without a sign, what a text denotes is what its digits denote. -/
theorem signed_of_natural {α : Type} [Neg α] {read : List Char → Option α} {text : String}
    {number : Nat} (digits : natural? text.toList = some number) :
    signed? read text = read text.toList := by
  unfold signed?
  split
  · rename_i signed
    rw [signed] at digits
    exact absurd digits (by simp [natural?])
  · rename_i signed
    rw [signed] at digits
    exact absurd digits (by simp [natural?])
  · rfl

namespace Rdf.Term

/-- The lexical form of a text. -/
def text? : Rdf.Term → Option String
  | .literal value => value.text?
  | _ => none

/-- The text that a term is, if it has no language. -/
def plain? : Rdf.Term → Option String
  | .literal (.plain value) => some value
  | _ => none

theorem text_of_plain? {term : Rdf.Term} {text : String} (is : term.plain? = some text) :
    term = .literal (.plain text) := by
  unfold plain? at is
  split at is
  · rw [Option.some_inj.1 is]
  · cases is

/-- The integer that a term denotes. -/
def integer? : Rdf.Term → Option Int
  | .literal (.typed value datatype) =>
    if datatype = Vocabulary.xsdInteger then
      signed? (fun digits => (natural? digits).map Int.ofNat) value
    else none
  | _ => none

/-- The integer or the decimal number that a term denotes. -/
def number? : Rdf.Term → Option ℚ
  | .literal (.typed value datatype) =>
    if datatype = Vocabulary.xsdInteger ∨ datatype = Vocabulary.xsdDecimal then
      signed? decimal? value
    else none
  | _ => none

/-- How two numbers or two texts without a language are ordered. -/
def order? (first second : Rdf.Term) : Option Ordering :=
  match first.number?, second.number?, first, second with
  | some one, some other, _, _ => some (compareOfLessAndEq one other)
  | _, _, .literal (.plain text), .literal (.plain other) => some (compareOfLessAndEq text other)
  | _, _, _, _ => none

/-- Whether two terms are the same. Nothing is known about different literals. -/
def same? (first second : Rdf.Term) : Option Bool :=
  if first = second then some true
  else
    match first, second with
    | .literal _, .literal _ => none
    | _, _ => some false

end Rdf.Term

namespace Sparql

/-- Whether an order agrees with a comparison. -/
def Comparison.agrees (order : Ordering) : Comparison → Bool
  | .equal => order = .eq
  | .notEqual => order ≠ .eq
  | .less => order = .lt
  | .lessOrEqual => order ≠ .gt
  | .greater => order = .gt
  | .greaterOrEqual => order ≠ .lt

theorem Comparison.agrees_equal_text (first second : String) :
    Comparison.equal.agrees (compareOfLessAndEq first second) = decide (first = second) := by
  by_cases same : first = second
  · simp [agrees, compareOfLessAndEq, same]
  · by_cases less : first < second <;> simp [agrees, compareOfLessAndEq, same, less]

namespace Engine

/-! ### Engines that know texts -/

/-- Whether an engine tells names and texts without a language from all other terms. -/
structure Discerns (engine : Engine) : Prop where
  iri : ∀ term name, engine.compare term .equal (.iri name) = some true ↔ term = .iri name
  text : ∀ term text, engine.compare term .equal (.literal (.plain text)) = some true ↔
    term = .literal (.plain text)

/-- Whether an engine maps texts to lower case, finds regular expressions in them and adds up
integers. A text keeps its language, and with one it is equal to no text without. -/
structure Searches (engine : Engine) : Prop where
  equal : ∀ first second, engine.compare (.literal (.plain first)) .equal (.literal (.plain second)) =
    some (decide (first = second))
  equal_tagged : ∀ value language other,
    engine.compare (.literal (.tagged value language)) .equal (.literal (.plain other)) ≠ some true
  lowercase : ∀ literal text, Literal.text? literal = some text → Text.IsAscii text →
    engine.call .lowercase [.literal literal] = some (.literal (literal.withValue text.toLower))
  lowercase_other : ∀ term, Rdf.Term.text? term = none → engine.call .lowercase [term] = none
  regex : ∀ literal text pattern pieces, Literal.text? literal = some text → Text.IsAscii text →
    Text.IsAscii pattern → Text.regex? pattern = some pieces →
    (engine.truth? (engine.call .regex
        [.literal literal, .literal (.plain pattern), .literal (.plain "i")]) = some true ↔
      Text.FoundIn (.folding Char.toLower) pieces text)
  regex_other : ∀ term pattern flags, Rdf.Term.text? term = none →
    engine.call .regex [term, pattern, flags] = none
  sum : ∀ numbers : List Nat,
    engine.sum (numbers.map fun number : Nat => .literal (.ofInt number)) =
      some (.literal (.ofInt numbers.sum))

/-- How texts and numbers are compared. -/
def compareValues (first : Rdf.Term) (comparison : Comparison) (second : Rdf.Term) :
    Option Bool :=
  match first.order? second with
  | some order => some (comparison.agrees order)
  | none =>
    match comparison with
    | .equal => first.same? second
    | .notEqual => (first.same? second).map not
    | _ => none

open Classical in
/-- What functions do with texts. -/
noncomputable def callOnTexts : Function → List Rdf.Term → Option Rdf.Term
  | .str, [.iri name] => some (.literal (.plain name.text))
  | .str, [.literal value] => some (.literal (.plain value.value))
  | .lowercase, [.literal value] =>
    value.text?.map fun text => .literal (value.withValue (Text.lowercase text))
  | .regex, [.literal value, .literal (.plain pattern), .literal (.plain "i")] => do
    let text ← value.text?
    let pieces ← Text.regex? pattern
    return .ofBool (decide (Text.FoundIn (.folding Char.toLower) pieces text))
  | _, _ => none

/-- The engine that knows truth values, texts, integers and decimals. -/
noncomputable def ofValues : Engine :=
  { Engine.plain with
    compare := compareValues
    call := callOnTexts
    sum := fun values => (values.mapM Rdf.Term.integer?).map fun numbers =>
      .literal (.ofInt numbers.sum)
    compare_iri := fun first second => by
      by_cases same : first = second <;> simp [compareValues, Rdf.Term.order?, Rdf.Term.number?,
        Rdf.Term.same?, same] }

/-! ### The engine of values -/

theorem discerns_ofValues : ofValues.Discerns where
  iri term name := by
    show compareValues term .equal (.iri name) = some true ↔ _
    by_cases same : term = .iri name <;> cases term <;>
      simp_all [compareValues, Rdf.Term.order?, Rdf.Term.number?, Rdf.Term.same?]
  text term text := by
    show compareValues term .equal (.literal (.plain text)) = some true ↔ _
    match term with
    | .literal (.plain other) =>
      simp [compareValues, Rdf.Term.order?, Rdf.Term.number?, Comparison.agrees_equal_text]
    | .literal (.tagged _ _) | .literal (.typed _ _) | .iri _ | .blank _ =>
      simp [compareValues, Rdf.Term.order?, Rdf.Term.number?, Rdf.Term.same?]

theorem integer_ofInt (number : Nat) :
    Rdf.Term.integer? (.literal (.ofInt number)) = some (number : Int) := by
  have read : natural? (toString (number : Int)).toList = some number := natural_toString number
  rw [Literal.ofInt, Rdf.Term.integer?, if_pos rfl, signed_of_natural read, read]
  rfl

theorem searches_ofValues : ofValues.Searches where
  equal first second := by
    show compareValues (.literal (.plain first)) .equal (.literal (.plain second)) = _
    simp [compareValues, Rdf.Term.order?, Rdf.Term.number?, Comparison.agrees_equal_text]
  equal_tagged value language other := by
    show compareValues (.literal (.tagged value language)) .equal (.literal (.plain other)) ≠ _
    simp [compareValues, Rdf.Term.order?, Rdf.Term.number?, Rdf.Term.same?]
  lowercase literal text is ascii := by
    show (literal.text?.map _ : Option Rdf.Term) = _
    rw [is, Option.map_some, Text.lowercase_ascii ascii]
  lowercase_other term other := by
    cases term with
    | literal value => exact Option.map_eq_none_iff.2 other
    | _ => rfl
  regex literal text pattern pieces is _ _ read := by
    classical
    have value : ofValues.call .regex
        [.literal literal, .literal (.plain pattern), .literal (.plain "i")] =
          some (.ofBool (decide (Text.FoundIn (.folding Char.toLower) pieces text))) := by
      show (literal.text? >>= _ : Option Rdf.Term) = _
      rw [is]
      show (Text.regex? pattern >>= _ : Option Rdf.Term) = _
      rw [read]
      exact congrArg (fun holds => some (Rdf.Term.ofBool holds)) (decide_eq_decide.2 Iff.rfl)
    rw [value, truth?, Option.bind_some, ofValues.truth_ofBool, Option.some_inj, decide_eq_true_iff]
  regex_other term pattern flags other := by
    show callOnTexts .regex [term, pattern, flags] = none
    unfold callOnTexts
    split
    · rename_i same
      cases same
    · rename_i same
      cases same
    · rename_i same
      cases same
    · rename_i value _ _ same
      obtain rfl : term = .literal value := (List.cons.inj same).1
      have unread : value.text? = none := other
      rw [unread]
      rfl
    · rfl
  sum numbers := by
    have read : (numbers.map fun number : Nat => Rdf.Term.literal (.ofInt number)).mapM
        Rdf.Term.integer? = some (numbers.map Int.ofNat) := by
      induction numbers with
      | nil => rfl
      | cons number rest inductionHypothesis =>
        rw [List.map_cons, List.mapM_cons, inductionHypothesis, integer_ofInt]
        rfl
    show (List.mapM Rdf.Term.integer? _).map _ = _
    rw [read]
    exact congrArg (fun total => some (Rdf.Term.literal (.ofInt total)))
      (map_list_sum (Nat.castAddMonoidHom ℤ) numbers).symm

end Engine

end Sparql

end ShapeQuery
