/-
This file reads single lexemes back: the text of a lexeme with harmless content is cut off as one
token, whatever stands after it, as long as that does not begin with a character that could go on
with the token. The content of a string may be anything, since every character that could end the
string is escaped.
-/
import ShapeQuery.Proofs.Sparql.Lexer
import ShapeQuery.Proofs.Sparql.Spelling

namespace ShapeQuery.Sparql

namespace Lexer

open Literal (isIntegerForm isDecimalForm)
open Rdf.Turtle (beginsLocal stringContent escapedCharacter? shortEscape? prepended isLineEnd)

/-! ### Harmless content -/

/-- The keywords of the queries. -/
def keywords : List String :=
  ["AS", "ASC", "BIND", "BOUND", "BY", "CONCAT", "CONSTRUCT", "COUNT", "DESC", "DISTINCT", "EXISTS",
   "FILTER", "GROUP", "IN", "LCASE", "LIMIT", "NOT", "OFFSET", "OPTIONAL", "ORDER", "REGEX",
   "SELECT", "SERVICE", "SHA256", "SILENT", "STR", "SUM", "UNDEF", "UNION", "URI", "VALUES", "WHERE",
   "false", "isBLANK", "true"]

/-- A text that may stand between the brackets of an IRI reference. -/
def IsReference (text : String) : Prop :=
  ∀ character ∈ text.toList, isIriCharacter character = true

/-- The numbers of the characters of an IRI reference. -/
def isIriNumber (number : Nat) : Bool :=
  0x20 < number && !([0x22, 0x3c, 0x3e, 0x5c, 0x5e, 0x60, 0x7b, 0x7c, 0x7d].contains number)

theorem isIriCharacter_eq (character : Char) :
    isIriCharacter character = isIriNumber character.toNat := by
  have same : "<>\"\x7b\x7d|^`\\".toList.contains character =
      [0x22, 0x3c, 0x3e, 0x5c, 0x5e, 0x60, 0x7b, 0x7c, 0x7d].contains character.toNat := by
    rw [Bool.eq_iff_iff]
    simp only [List.contains_iff_mem]
    constructor
    · intro member
      have numbers : ∀ mark ∈ "<>\"\x7b\x7d|^`\\".toList,
          mark.toNat ∈ [0x22, 0x3c, 0x3e, 0x5c, 0x5e, 0x60, 0x7b, 0x7c, 0x7d] := by decide
      exact numbers character member
    · intro member
      have marks : ∀ number ∈ [0x22, 0x3c, 0x3e, 0x5c, 0x5e, 0x60, 0x7b, 0x7c, 0x7d],
          Char.ofNat number ∈ "<>\"\x7b\x7d|^`\\".toList := by decide
      exact Char.ofNat_toNat character ▸ marks character.toNat member
  rw [isIriCharacter, isIriNumber, same]

/-- The check of a reference compares numbers, which is faster than comparing characters. -/
instance (text : String) : Decidable (IsReference text) :=
  decidable_of_iff (text.toList.all (fun character => isIriNumber character.toNat) = true) (by
    simp only [IsReference, isIriCharacter_eq, List.all_eq_true])

/-- A reference given by its characters, whose check reads no text. -/
theorem isReference_ofList {characters : List Char}
    (known : characters.all (fun character => isIriNumber character.toNat) = true) :
    IsReference (String.ofList characters) := by
  intro character member
  rw [String.toList_ofList] at member
  rw [isIriCharacter_eq]
  exact List.all_eq_true.1 known character member

/-- A name that a variable may have. -/
def IsVariableName (name : String) : Prop :=
  ∃ first rest, name.toList = first :: rest ∧ beginsLocal first = true ∧
    ∀ character ∈ rest, isVariableCharacter character = true

/-- A label that a blank node may have. -/
def IsLabel (label : String) : Prop :=
  ∃ first rest, label.toList = first :: rest ∧ beginsLocal first = true ∧
    (∀ character ∈ rest, isLabelCharacter character = true) ∧ rest.getLast? ≠ some '.'

/-- A tag that a language may have. -/
def IsTag (tag : String) : Prop :=
  ∃ first rest, tag.toList = first :: rest ∧ first.isAlpha = true ∧
    tagContent false tag.toList = (tag.toList, [])

/-- The variables, labels of blank nodes and language tags that lexemes may name. -/
structure Lexicon where
  names : String → Prop
  labels : String → Prop
  tags : String → Prop

namespace Lexicon

/-- All that can be read back. -/
def readable : Lexicon :=
  ⟨IsVariableName, IsLabel, IsTag⟩

/-- Whether one lexicon has all of another one. -/
structure Within (first second : Lexicon) : Prop where
  names : ∀ name, first.names name → second.names name
  labels : ∀ label, first.labels label → second.labels label
  tags : ∀ tag, first.tags tag → second.tags tag

end Lexicon

/-! ### What may follow a token -/

/-- The characters that end every token but some marks. -/
def delimiters : List Char :=
  [' ', '\n', '(', ')', ',', '^', '@', '/', '|', '*', '+', '?']

/-- Whether a character ends every token but some marks. -/
def isDelimiter (character : Char) : Bool :=
  delimiters.contains character

/-- Whether a text is empty or begins with a character that passes a test. -/
def Begins (test : Char → Bool) (text : List Char) : Prop :=
  ∀ character ∈ text.head?, test character = true

theorem Begins.mono {test other : Char → Bool} {text : List Char} (begins : Begins test text)
    (weaker : ∀ character, test character = true → other character = true) :
    Begins other text :=
  fun character member => weaker character (begins character member)

theorem not_of_isDelimiter {test : Char → Bool}
    (fails : delimiters.all (fun character => !test character) = true)
    {character : Char} (delimiter : isDelimiter character = true) : test character = false := by
  simpa using List.all_eq_true.1 fails character (List.contains_iff_mem.1 delimiter)

theorem takeWhile_run {test : Char → Bool} {run rest : List Char}
    (inside : ∀ character ∈ run, test character = true)
    (ends : Begins (fun character => !test character) rest) :
    (run ++ rest).takeWhile test = run := by
  rw [List.takeWhile_append_of_pos inside]
  cases rest with
  | nil => rw [List.takeWhile_nil, List.append_nil]
  | cons head tail =>
    have fails := ends head rfl
    rw [List.takeWhile_cons_of_neg (by simpa using fails), List.append_nil]

theorem dropWhile_run {test : Char → Bool} {run rest : List Char}
    (inside : ∀ character ∈ run, test character = true)
    (ends : Begins (fun character => !test character) rest) :
    (run ++ rest).dropWhile test = rest := by
  rw [List.dropWhile_append_of_pos inside]
  cases rest with
  | nil => rw [List.dropWhile_nil]
  | cons head tail =>
    have fails := ends head rfl
    rw [List.dropWhile_cons_of_neg (by simpa using fails)]

theorem Begins.ends {test : Char → Bool} {rest : List Char} (begins : Begins isDelimiter rest)
    (fails : delimiters.all (fun character => !test character) = true) :
    Begins (fun character => !test character) rest :=
  begins.mono fun _ delimiter => by rw [not_of_isDelimiter fails delimiter]; rfl

/-! ### Names -/

theorem named?_name {name : String} (allowed : IsVariableName name) {rest : List Char}
    (begins : Begins isDelimiter rest) :
    named? (name.toList ++ rest) = some (.var ⟨name⟩, rest) := by
  obtain ⟨first, others, spelled, start, inside⟩ := allowed
  have ends : Begins (fun character => !isVariableCharacter character) rest :=
    begins.ends (by decide)
  have whole : String.ofList (first :: others) = name := by rw [← spelled, String.ofList_toList]
  rw [spelled, List.cons_append, named?, if_pos start, takeWhile_run inside ends,
    dropWhile_run inside ends, whole]

theorem blank?_label {label : String} (allowed : IsLabel label) {rest : List Char}
    (begins : Begins isDelimiter rest) :
    blank? (label.toList ++ rest) = some (.blank label, rest) := by
  obtain ⟨first, others, spelled, start, inside, last⟩ := allowed
  have ends : Begins (fun character => !isLabelCharacter character) rest :=
    begins.ends (by decide)
  have whole : String.ofList (first :: others) = label := by rw [← spelled, String.ofList_toList]
  have kept : (others.reverse.dropWhile (· = '.')).reverse = others := by
    cases reversed : others.reverse with
    | nil => rw [List.dropWhile_nil, List.reverse_nil, List.reverse_eq_nil_iff.1 reversed]
    | cons final initial =>
      have isLast : others.getLast? = some final := by rw [← List.head?_reverse, reversed]; rfl
      have notPoint : final ≠ '.' := fun same => last (same ▸ isLast)
      rw [List.dropWhile_cons_of_neg (by simpa using notPoint), ← reversed, List.reverse_reverse]
  rw [spelled, List.cons_append, blank?, if_pos start, takeWhile_run inside ends]
  simp only [kept, whole, List.drop_left]

theorem tagContent_append {later : Bool} {tag rest : List Char}
    (whole : tagContent later tag = (tag, [])) (begins : Begins isDelimiter rest) :
    tagContent later (tag ++ rest) = (tag, rest) := by
  induction tag generalizing later with
  | nil =>
    cases rest with
    | nil => rfl
    | cons head tail =>
      have delimiter : isDelimiter head = true := begins head rfl
      have noHyphen : (head = '-') = False :=
        eq_false fun same => absurd (same ▸ delimiter) (by decide)
      have noLetter : head.isAlpha = false := not_of_isDelimiter (by decide) delimiter
      have noDigit : head.isDigit = false := not_of_isDelimiter (by decide) delimiter
      simp [tagContent, noHyphen, noLetter, noDigit]
  | cons character others inductionHypothesis =>
    rw [List.cons_append]
    unfold tagContent at whole ⊢
    by_cases hyphen :
        (character = '-' && (others.head?.map Iri.isAsciiAlphanumeric).getD false) = true
    · rw [if_pos hyphen, Prod.mk.injEq, List.cons.injEq] at whole
      have inner := inductionHypothesis (Prod.ext whole.1.2 whole.2)
      have same : (others ++ rest).head? = others.head? := by
        cases others with
        | nil => simp at hyphen
        | cons _ _ => rfl
      rw [same, if_pos hyphen, inner]
    · rw [if_neg hyphen] at whole
      by_cases letter : (character.isAlpha || (later && character.isDigit)) = true
      · rw [if_pos letter, Prod.mk.injEq, List.cons.injEq] at whole
        have inner := inductionHypothesis (Prod.ext whole.1.2 whole.2)
        have noHyphen : character ≠ '-' := by
          rintro rfl
          cases later with
          | _ => exact absurd letter (by decide)
        rw [if_neg (by simp [noHyphen]), if_pos letter, inner]
      · rw [if_neg letter, Prod.mk.injEq] at whole
        exact absurd whole.1.symm (List.cons_ne_nil _ _)

theorem language?_tag {tag : String} (allowed : IsTag tag) {rest : List Char}
    (begins : Begins isDelimiter rest) :
    language? (tag.toList ++ rest) = some (.language tag, rest) := by
  obtain ⟨first, others, spelled, start, whole⟩ := allowed
  have head : (tag.toList ++ rest).head? = some first := by rw [spelled]; rfl
  rw [language?, head, Option.map_some, Option.getD_some, if_pos start,
    tagContent_append whole begins, String.ofList_toList]

theorem iri?_reference {text : String} (allowed : IsReference text) (rest : List Char) :
    iri? (text.toList ++ '>' :: rest) = some (.iri ⟨text⟩, rest) := by
  have ends : Begins (fun character => !isIriCharacter character) ('>' :: rest) := by
    rintro _ ⟨⟩
    decide
  rw [iri?, takeWhile_run allowed ends, dropWhile_run allowed ends, String.ofList_toList]
  rfl

/-! ### Strings -/

theorem escapedCharacter?_hexadecimal : ∀ code < 128,
    escapedCharacter? ((Text.hexadecimal 4 code).map Char.toUpper) = some (Char.ofNat code) := by
  decide

theorem length_hexadecimal : ∀ code < 128, (Text.hexadecimal 4 code).length = 4 := by
  decide

/-- A character of a string is read back from the way it is written. -/
theorem stringContent_escape (character : Char) (rest : List Char) :
    stringContent '"' false (Text.escapeLiteral character ++ rest) =
      prepended character (stringContent '"' false rest) := by
  unfold Text.escapeLiteral
  split
  case h_8 noBackspace noTab noLine noFeed noReturn noQuote noBackslash =>
    split
    case isTrue control =>
      have small : character.toNat < 128 := by
        simp only [Bool.or_eq_true, decide_eq_true_eq] at control
        omega
      have read := escapedCharacter?_hexadecimal character.toNat small
      have size := length_hexadecimal character.toNat small
      rw [← List.length_map Char.toUpper] at size
      obtain ⟨a, others, digits⟩ := List.exists_cons_of_length_eq_add_one size
      rw [digits, List.length_cons, Nat.add_right_cancel_iff, List.length_eq_three] at size
      obtain ⟨b, c, d, rfl⟩ := size
      rw [digits] at read ⊢
      simp [stringContent, read]
    case isFalse plain =>
      rw [List.singleton_append, stringContent]
      · simp [isLineEnd, eq_false noQuote, eq_false noLine, eq_false noReturn]
      all_goals
        intros
        exact noBackslash ‹_›
  all_goals simp [stringContent, shortEscape?]

theorem stringContent_escaped (value rest : List Char) :
    stringContent '"' false (value.flatMap Text.escapeLiteral ++ '"' :: rest) =
      some (value, rest) := by
  induction value with
  | nil => simp [stringContent]
  | cons character others inductionHypothesis =>
    rw [List.flatMap_cons, List.append_assoc, stringContent_escape, inductionHypothesis]
    rfl

theorem head?_escapeLiteral (character : Char) :
    ∃ first others, Text.escapeLiteral character = first :: others ∧ first ≠ '"' := by
  unfold Text.escapeLiteral
  split
  case h_8 noQuote _ =>
    split
    · exact ⟨_, _, rfl, by decide⟩
    · exact ⟨_, _, rfl, noQuote⟩
  all_goals exact ⟨_, _, rfl, by decide⟩

/-- The quotes of a string are never taken for those of a long one. -/
theorem take_two_escaped (value : List Char) {rest : List Char} (begins : Begins isDelimiter rest) :
    (value.flatMap Text.escapeLiteral ++ '"' :: rest).take 2 ≠ ['"', '"'] := by
  cases value with
  | nil =>
    cases rest with
    | nil => decide
    | cons head tail =>
      have noQuote : head ≠ '"' := by
        rintro rfl
        exact absurd (begins '"' rfl) (by decide)
      simp [noQuote]
  | cons character others =>
    obtain ⟨first, more, written, noQuote⟩ := head?_escapeLiteral character
    rw [List.flatMap_cons, written, List.cons_append, List.cons_append, List.take_succ_cons]
    exact fun same => noQuote (List.cons.inj same).1

theorem string?_quoted (value : String) {rest : List Char} (begins : Begins isDelimiter rest) :
    string? '"' (value.toList.flatMap Text.escapeLiteral ++ '"' :: rest) =
      some (.string value, rest) := by
  have short : (value.toList.flatMap Text.escapeLiteral ++ '"' :: rest).take 2 ≠ ['"', '"'] :=
    take_two_escaped value.toList begins
  rw [string?, if_neg short, stringContent_escaped]
  simp

/-! ### Numbers -/

theorem signed_append {characters : List Char} (nonempty : characters ≠ []) (rest : List Char) :
    signed (characters ++ rest) = ((signed characters).1, (signed characters).2 ++ rest) := by
  obtain ⟨first, others, rfl⟩ := List.exists_cons_of_ne_nil nonempty
  rw [List.cons_append]
  unfold signed
  split <;> simp_all

theorem exponent_of_begins {rest : List Char} (begins : Begins isDelimiter rest) :
    exponent rest = ([], rest) := by
  cases rest with
  | nil => rfl
  | cons head tail =>
    have delimiter : isDelimiter head = true := begins head rfl
    have noMark : (decide (head = 'e') || decide (head = 'E')) = false :=
      @not_of_isDelimiter (fun head => decide (head = 'e') || decide (head = 'E')) (by decide) _
        delimiter
    rw [exponent, noMark]
    simp

/-- An integer is read up to what cannot go on with it. -/
theorem unsigned?_digits {digits rest : List Char} (nonempty : digits ≠ [])
    (inside : ∀ character ∈ digits, character.isDigit = true) (begins : Begins isDelimiter rest) :
    unsigned? (digits ++ rest) = some (digits, rest) := by
  have ends : Begins (fun character => !character.isDigit) rest := begins.ends (by decide)
  rw [unsigned?, takeWhile_run inside ends, dropWhile_run inside ends]
  split
  case h_1 => exact absurd (begins '.' rfl) (by decide)
  case h_2 =>
    rw [if_neg (by simpa using nonempty), exponent_of_begins begins]
    simp

/-- A decimal is read up to what cannot go on with it. -/
theorem unsigned?_decimal {whole fraction rest : List Char} (nonempty : fraction ≠ [])
    (digits : ∀ character ∈ whole, character.isDigit = true)
    (inside : ∀ character ∈ fraction, character.isDigit = true)
    (begins : Begins isDelimiter rest) :
    unsigned? (whole ++ '.' :: (fraction ++ rest)) = some (whole ++ '.' :: fraction, rest) := by
  have point : Begins (fun character => !character.isDigit) ('.' :: (fraction ++ rest)) := by
    rintro _ ⟨⟩
    decide
  have ends : Begins (fun character => !character.isDigit) rest := begins.ends (by decide)
  rw [unsigned?, takeWhile_run digits point, dropWhile_run digits point]
  simp only
  rw [takeWhile_run inside ends, dropWhile_run inside ends, exponent_of_begins begins]
  simp [nonempty]

/-- A text that reads as a number: an integer or a decimal. -/
def IsNumeral (text : String) : Prop :=
  isIntegerForm text = true ∨ isDecimalForm text = true

theorem unsignedForm_eq (text : String) : Literal.unsignedForm text = (signed text.toList).2 := by
  unfold Literal.unsignedForm signed
  split <;> simp_all

theorem signed_whole (characters : List Char) :
    (signed characters).1 ++ (signed characters).2 = characters := by
  unfold signed
  split <;> rfl

/-- The numbers among the literals of a query are read as a whole. -/
theorem unsigned?_numeral {text : String} (allowed : IsNumeral text) {rest : List Char}
    (begins : Begins isDelimiter rest) :
    text.toList ≠ [] ∧ unsigned? ((signed text.toList).2 ++ rest) =
      some ((signed text.toList).2, rest) := by
  have signless (empty : text.toList = []) : (signed text.toList).2 = [] := by
    rw [empty]
    rfl
  rcases allowed with integer | decimal
  · obtain ⟨nonempty, inside⟩ := Literal.isIntegerForm_iff_unsigned.1 integer
    rw [unsignedForm_eq] at nonempty inside
    exact ⟨fun empty => nonempty (signless empty), unsigned?_digits nonempty inside begins⟩
  · obtain ⟨whole, fraction, written, digits, nonempty, inside⟩ :=
      Literal.isDecimalForm_iff_unsigned.1 decimal
    rw [unsignedForm_eq] at written
    refine ⟨fun empty => ?_, ?_⟩
    · exact List.append_ne_nil_of_right_ne_nil whole (List.cons_ne_nil _ _)
        (written.symm.trans (signless empty))
    · rw [written, List.append_assoc, List.cons_append]
      exact unsigned?_decimal nonempty digits inside begins

theorem number?_numeral {text : String} (allowed : IsNumeral text) {rest : List Char}
    (begins : Begins isDelimiter rest) :
    number? (text.toList ++ rest) = some (.number text, rest) := by
  obtain ⟨nonempty, read⟩ := unsigned?_numeral allowed begins
  rw [number?, signed_append nonempty]
  simp only
  rw [read, Option.map_some, signed_whole, String.ofList_toList]

/-- A number begins with a digit, a sign or a point. -/
def beginsNumber (character : Char) : Bool :=
  character.isDigit || ['+', '-', '.'].contains character

theorem number?_eq_none {first : Char} (other : beginsNumber first = false) (rest : List Char) :
    number? (first :: rest) = none := by
  simp only [beginsNumber, Bool.or_eq_false_iff, List.contains_cons, List.contains_nil,
    beq_eq_false_iff_ne] at other
  obtain ⟨noDigit, noPlus, noMinus, noPoint, _⟩ := other
  have noSign : signed (first :: rest) = ([], first :: rest) := by
    unfold signed
    split <;> simp_all
  simp [number?, noSign, unsigned?, noDigit, noPoint]

/-! ### Words -/

/-- What makes a text a keyword that nothing else is read for. -/
def isSpelled (keyword : String) : Bool :=
  (keyword.toList.head?.map fun first => first.isAlpha && !beginsNumber first).getD false
    && keyword.toList.all fun character => isWordCharacter character && isLabelCharacter character

theorem isSpelled_of_mem : ∀ keyword ∈ keywords, isSpelled keyword = true := by
  decide +kernel

theorem word?_keyword {keyword : String} (known : keyword ∈ keywords) {rest : List Char}
    (begins : Begins isDelimiter rest) :
    number? (keyword.toList ++ rest) = none ∧
      word? (keyword.toList ++ rest) = some (.word keyword, rest) := by
  have spelled := isSpelled_of_mem keyword known
  simp only [isSpelled, Bool.and_eq_true, List.all_eq_true] at spelled
  obtain ⟨start, inside⟩ := spelled
  cases written : keyword.toList with
  | nil =>
    rw [written] at start
    cases start
  | cons first others =>
    simp only [written, List.head?_cons, Option.map_some, Option.getD_some, Bool.and_eq_true,
      Bool.not_eq_true'] at start
    refine ⟨number?_eq_none start.2 (others ++ rest), ?_⟩
    have words : ∀ character ∈ first :: others, isWordCharacter character = true :=
      fun character member => (inside character (written ▸ member)).1
    have labels : ∀ character ∈ first :: others, isLabelCharacter character = true :=
      fun character member => (inside character (written ▸ member)).2
    have noColon : rest.head? ≠ some ':' := by
      intro colon
      exact absurd (begins ':' colon) (by decide)
    have head : (first :: others ++ rest).head? = some first := rfl
    rw [word?, head, Option.map_some, Option.getD_some, if_pos start.1,
      dropWhile_run labels (begins.ends (by decide)), if_neg noColon,
      takeWhile_run words (begins.ends (by decide)),
      dropWhile_run words (begins.ends (by decide)), ← written, String.ofList_toList]

/-! ### Marks -/

/-- Whether a mark ends before a character: no longer mark and no other token begins with the
two. -/
def endsMark (mark : String) (next : Char) : Bool :=
  if mark = "<" || mark = "<=" then next = ' '
  else if mark = ">" || mark = "!" then '=' ≠ next
  else if mark = "|" then '|' ≠ next
  else if mark = "^" then '^' ≠ next
  else if mark = "." || mark = "+" || mark = "-" || mark = "?" then isDelimiter next
  else true

/-- A mark is found in the table behind all longer ones. -/
theorem mark?_mark {mark : String} (known : mark ∈ marks) {rest : List Char}
    (begins : Begins (endsMark mark) rest) :
    mark? (mark.toList ++ rest) = some (.mark mark, rest) := by
  simp only [marks, List.mem_cons, List.not_mem_nil, or_false] at known
  cases rest with
  | nil =>
    rcases known with rfl | rfl | rfl | rfl | rfl | rfl | rfl | rfl | rfl | rfl | rfl | rfl | rfl |
      rfl | rfl | rfl | rfl | rfl | rfl | rfl | rfl | rfl | rfl | rfl | rfl | rfl
    all_goals decide
  | cons head tail =>
    have next := begins head rfl
    rcases known with rfl | rfl | rfl | rfl | rfl | rfl | rfl | rfl | rfl | rfl | rfl | rfl | rfl |
      rfl | rfl | rfl | rfl | rfl | rfl | rfl | rfl | rfl | rfl | rfl | rfl | rfl
    all_goals simp [endsMark] at next
    all_goals simp [mark?, marks, List.isPrefixOf, next]

theorem unsigned?_eq_none {rest : List Char} (begins : Begins isDelimiter rest) :
    unsigned? rest = none ∧ unsigned? ('.' :: rest) = none := by
  cases rest with
  | nil => exact ⟨rfl, rfl⟩
  | cons head tail =>
    have delimiter : isDelimiter head = true := begins head rfl
    have noDigit : head.isDigit = false := not_of_isDelimiter (by decide) delimiter
    have noPoint : head ≠ '.' := by
      rintro rfl
      exact absurd delimiter (by decide)
    exact ⟨by simp [unsigned?, noDigit, noPoint], by simp [unsigned?, noDigit]⟩

theorem named?_eq_none {rest : List Char} (begins : Begins isDelimiter rest) :
    named? rest = none := by
  cases rest with
  | nil => rfl
  | cons head tail =>
    have noName : beginsLocal head = false := not_of_isDelimiter (by decide) (begins head rfl)
    simp [named?, noName]

theorem iri?_eq_none {rest : List Char} (begins : Begins (fun next => next = ' ') rest) :
    iri? rest = none ∧ iri? ('=' :: rest) = none := by
  cases rest with
  | nil => exact ⟨rfl, rfl⟩
  | cons head tail =>
    have blank : head = ' ' := by simpa using begins head rfl
    subst blank
    exact ⟨rfl, rfl⟩

/-- A character that begins a mark and no other token. -/
def beginsOnlyMarks (first : Char) : Bool :=
  !beginsNumber first && !first.isAlpha && !(['<', '?', '$', '_', '"', '\x27', '@'].contains first)

theorem token?_eq_mark? {first : Char} (plain : beginsOnlyMarks first = true) (rest : List Char) :
    token? (first :: rest) = mark? (first :: rest) := by
  simp only [beginsOnlyMarks, Bool.and_eq_true, Bool.not_eq_true'] at plain
  have noWord : word? (first :: rest) = none := by simp [word?, plain.1.2]
  have noOther : special? (first :: rest) = none := by
    unfold special?
    split <;> simp_all
  rw [token?, number?_eq_none plain.1.1, noWord, noOther]
  rfl

theorem beginsOnlyMarks_of_mem : ∀ mark ∈ marks, mark ∈ ["+", "-", ".", "<", "<=", "?"] ∨
    (mark.toList.head?.map beginsOnlyMarks).getD false = true := by
  decide

theorem token?_mark {mark : String} (known : mark ∈ marks) {rest : List Char}
    (begins : Begins (endsMark mark) rest) :
    token? (mark.toList ++ rest) = some (.mark mark, rest) := by
  have found := mark?_mark known begins
  rcases beginsOnlyMarks_of_mem mark known with listed | plain
  · simp only [List.mem_cons, List.not_mem_nil, or_false] at listed
    rcases listed with rfl | rfl | rfl | rfl | rfl | rfl
    case inl | inr.inl =>
      have noNumber := (unsigned?_eq_none begins).1
      simp_all [token?, number?, signed, word?, special?]
    case inr.inr.inl =>
      have noNumber := (unsigned?_eq_none begins).2
      simp_all [token?, number?, signed, word?, special?]
    case inr.inr.inr.inl =>
      have noReference := (iri?_eq_none begins).1
      simp_all [token?, number?, signed, unsigned?, word?, special?]
    case inr.inr.inr.inr.inl =>
      have noReference := (iri?_eq_none begins).2
      simp_all [token?, number?, signed, unsigned?, word?, special?]
    case inr.inr.inr.inr.inr =>
      have noName := named?_eq_none begins
      simp_all [token?, number?, signed, unsigned?, word?, special?]
  · cases written : mark.toList with
    | nil => rw [written] at plain; cases plain
    | cons first others =>
      rw [written] at plain found
      rw [List.cons_append, token?_eq_mark? plain]
      exact found

theorem token?_eq_special? {first : Char} {rest : List Char} {found : Token × List Char}
    (noNumber : beginsNumber first = false) (noLetter : first.isAlpha = false)
    (special : special? (first :: rest) = some found) : token? (first :: rest) = some found := by
  have noWord : word? (first :: rest) = none := by simp [word?, noLetter]
  rw [token?, number?_eq_none noNumber, noWord, special]
  rfl

end Lexer

namespace Lexeme

open Lexer

/-! ### Lexemes -/

/-- The token of a lexeme, unless it is white space. -/
def token? : Lexeme → Option Token
  | .var name => some (.var name)
  | .iri name => some (.iri name)
  | .blank label => some (.blank label)
  | .string value => some (.string value)
  | .language tag => some (.language tag)
  | .number text => some (.number text)
  | .word text => some (.word text)
  | .mark text => some (.mark text)
  | .space => none
  | .newLine => none

/-- Whether a lexeme is harmless and takes what it names from a lexicon. Nothing is asked of the
content of a string. -/
def IsHarmless (lexicon : Lexicon) : Lexeme → Prop
  | .var name => lexicon.names name.name
  | .iri name => IsReference name.text
  | .blank label => lexicon.labels label
  | .string _ => True
  | .language tag => lexicon.tags tag
  | .number text => IsNumeral text
  | .word text => text ∈ keywords
  | .mark text => text ∈ marks
  | .space => True
  | .newLine => True

/-- Whether a lexeme ends before a character. -/
def ends : Lexeme → Char → Bool
  | .iri _ => fun _ => true
  | .mark text => endsMark text
  | .space => fun _ => true
  | .newLine => fun _ => true
  | _ => isDelimiter

/-- A harmless lexeme is read back from its text. -/
theorem token?_text {lexeme : Lexeme} (harmless : lexeme.IsHarmless .readable) {token : Token}
    (visible : lexeme.token? = some token) {rest : List Char} (begins : Begins lexeme.ends rest) :
    Lexer.token? (lexeme.text.toList ++ rest) = some (token, rest) := by
  cases lexeme with
  | var name =>
    obtain rfl := Option.some.inj visible
    rw [text, String.toList_append, List.append_assoc]
    exact token?_eq_special? (by decide) (by decide) (named?_name harmless begins)
  | iri name =>
    obtain rfl := Option.some.inj visible
    rw [text, Iri.bracketed, String.toList_append, String.toList_append, List.append_assoc,
      List.append_assoc]
    exact token?_eq_special? (by decide) (by decide) (iri?_reference harmless rest)
  | blank label =>
    obtain rfl := Option.some.inj visible
    rw [text, String.toList_append, List.append_assoc]
    exact token?_eq_special? (by decide) (by decide) (blank?_label harmless begins)
  | string value =>
    obtain rfl := Option.some.inj visible
    rw [text, Text.quoted, String.toList_ofList, List.append_assoc, List.cons_append]
    exact token?_eq_special? (by decide) (by decide) (string?_quoted value begins)
  | language tag =>
    obtain rfl := Option.some.inj visible
    rw [text, String.toList_append, List.append_assoc]
    exact token?_eq_special? (by decide) (by decide) (language?_tag harmless begins)
  | number text =>
    obtain rfl := Option.some.inj visible
    rw [Lexeme.text, Lexer.token?, number?_numeral harmless begins]
    rfl
  | word text =>
    obtain rfl := Option.some.inj visible
    obtain ⟨noNumber, found⟩ := word?_keyword harmless begins
    rw [Lexeme.text, Lexer.token?, noNumber, found]
    rfl
  | mark text =>
    obtain rfl := Option.some.inj visible
    exact token?_mark harmless begins
  | space => cases visible
  | newLine => cases visible

end Lexeme

end ShapeQuery.Sparql
