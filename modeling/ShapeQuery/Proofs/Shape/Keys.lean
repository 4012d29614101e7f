/-
This file proves that the keys by which shapes are sorted tell their content. Every part of a key
ends where the text of the part ends, whatever follows it, so that two property shapes with the same
key differ in their names alone.
-/
import ShapeQuery.Proofs.Shape.Naming
import ShapeQuery.Proofs.Sparql.Lexing
import ShapeQuery.Shape.ContentKey

namespace ShapeQuery

open Sparql (Path Term)

namespace Text

/-! ### Legible texts -/

/-- Whether a text is told from that of any other value, and from what follows it. -/
def LegibleAt {Value : Type} (write : Value → String) (value : Value) : Prop :=
  ∀ (other : Value) (rest others : List Char),
    (write value).toList ++ rest = (write other).toList ++ others → value = other ∧ rest = others

/-- Whether all texts can be read back. -/
def Legible {Value : Type} (write : Value → String) : Prop :=
  ∀ value, LegibleAt write value

theorem Legible.injective {Value : Type} {write : Value → String} (legible : Legible write) :
    Function.Injective write :=
  fun value other same => (legible value other [] [] (by rw [same])).1

/-- What stands behind a text that can be read back. -/
theorem LegibleAt.behind {Value : Type} {write : Value → String} {value other : Value}
    (legible : LegibleAt write value) (front : String) {rest others : List Char}
    (same : front.toList ++ ((write value).toList ++ rest) =
      front.toList ++ ((write other).toList ++ others)) : value = other ∧ rest = others :=
  legible other rest others (List.append_cancel_left same)

/-- What stands behind a text that can be read back and a closing text. -/
theorem LegibleAt.between {Value : Type} {write : Value → String} {value other : Value}
    (legible : LegibleAt write value) (front back : String) {rest others : List Char}
    (same : front.toList ++ ((write value).toList ++ (back.toList ++ rest)) =
      front.toList ++ ((write other).toList ++ (back.toList ++ others))) :
    value = other ∧ rest = others :=
  (legible.behind front same).imp_right List.append_cancel_left

/-- Texts with different fronts are different, unless one front begins with the other. -/
theorem fronts_ne {front other : String} {rest others : List Char}
    (apart : front.toList.isPrefixOf other.toList = false ∧
      other.toList.isPrefixOf front.toList = false) :
    front.toList ++ rest ≠ other.toList ++ others := by
  intro same
  rcases List.append_eq_append_iff.1 same with ⟨between, split, -⟩ | ⟨between, split, -⟩
  · have front : front.toList.isPrefixOf other.toList = true :=
      List.isPrefixOf_iff_prefix.2 ⟨between, split.symm⟩
    exact absurd front (by simp [apart.1])
  · have front : other.toList.isPrefixOf front.toList = true :=
      List.isPrefixOf_iff_prefix.2 ⟨between, split.symm⟩
    exact absurd front (by simp [apart.2])

/-! ### Hexadecimal numbers -/

theorem digitChar_inj : ∀ first < 16, ∀ second < 16,
    Nat.digitChar first = Nat.digitChar second → first = second := by
  decide

theorem digitChar_ne_brace : ∀ digit < 16, Nat.digitChar digit ≠ '\x7d' := by
  decide

theorem brace_not_mem_toDigits (number : Nat) : '\x7d' ∉ Nat.toDigits 16 number := by
  induction number using Nat.strongRecOn with
  | ind number inductionHypothesis =>
    rw [Nat.toDigits_eq_if (by decide)]
    split
    · rename_i small
      exact fun member => digitChar_ne_brace number small (List.mem_singleton.1 member).symm
    · intro member
      rcases List.mem_append.1 member with front | last
      · exact inductionHypothesis (number / 16) (by omega) front
      · exact digitChar_ne_brace (number % 16) (by omega) (List.mem_singleton.1 last).symm

theorem toDigits_inj {first second : Nat}
    (same : Nat.toDigits 16 first = Nat.toDigits 16 second) : first = second := by
  induction first using Nat.strongRecOn generalizing second with
  | ind first inductionHypothesis =>
    rw [Nat.toDigits_eq_if (by decide), @Nat.toDigits_eq_if 16 second (by decide)] at same
    have single (digit : Char) (number : Nat) (last : Char) :
        [digit] ≠ Nat.toDigits 16 number ++ [last] := by
      intro equal
      have lengths := congrArg List.length equal
      have positive := @Nat.length_toDigits_pos 16 number
      rw [List.length_append, List.length_singleton, List.length_singleton] at lengths
      omega
    split at same <;> split at same
    · exact digitChar_inj first ‹_› second ‹_› (List.cons.inj same).1
    · exact absurd same (single _ _ _)
    · exact absurd same.symm (single _ _ _)
    · obtain ⟨front, last⟩ := List.append_inj' same rfl
      have quotient := inductionHypothesis (first / 16) (by omega) front
      have remainder := digitChar_inj (first % 16) (by omega) (second % 16) (by omega)
        (List.cons.inj last).1
      omega

/-! ### Quoted texts -/

/-- The characters with a short escape, and the letters of these. -/
def shortEscapes : List (Char × Char) :=
  [('\x00', '0'), ('\t', 't'), ('\r', 'r'), ('\n', 'n'), ('"', '"'), ('\\', '\\')]

theorem shortEscapes_inj : ∀ one ∈ shortEscapes, ∀ other ∈ shortEscapes,
    one.2 = other.2 → one.1 = other.1 := by
  decide

theorem shortEscapes_ne : ∀ one ∈ shortEscapes, one.2 ≠ 'u' := by
  decide

/-- The ways in which a character is written. -/
theorem escapeDiagnostic_cases (character : Char) :
    (∃ letter, (character, letter) ∈ shortEscapes ∧
      escapeDiagnostic character = ['\\', letter]) ∨
    escapeDiagnostic character =
      '\\' :: 'u' :: '\x7b' :: Nat.toDigits 16 character.toNat ++ ['\x7d'] ∨
    character ≠ '\\' ∧ character ≠ '"' ∧ escapeDiagnostic character = [character] := by
  unfold escapeDiagnostic
  split
  case h_7 noQuote noBackslash =>
    split
    · refine .inr (.inl ?_)
      rw [hexadecimal, Nat.sub_eq_zero_of_le Nat.length_toDigits_pos, List.replicate_zero,
        List.nil_append]
    · exact .inr (.inr ⟨noBackslash, noQuote, rfl⟩)
  all_goals exact .inl ⟨_, by decide, rfl⟩

theorem escapeDiagnostic_inj {first second : Char} {rest others : List Char}
    (same : escapeDiagnostic first ++ rest = escapeDiagnostic second ++ others) :
    first = second ∧ rest = others := by
  rcases escapeDiagnostic_cases first with
    ⟨letter, known, written⟩ | written | ⟨noBackslash, -, written⟩ <;>
  rcases escapeDiagnostic_cases second with
    ⟨otherLetter, otherKnown, otherWritten⟩ | otherWritten | ⟨otherNoBackslash, -, otherWritten⟩ <;>
  rw [written, otherWritten] at same
  · obtain ⟨-, same⟩ := List.cons.inj same
    obtain ⟨letters, same⟩ := List.cons.inj same
    exact ⟨shortEscapes_inj _ known _ otherKnown letters, same⟩
  · obtain ⟨letters, -⟩ := List.cons.inj (List.cons.inj same).2
    exact absurd letters (shortEscapes_ne _ known)
  · exact absurd (List.cons.inj same).1.symm otherNoBackslash
  · obtain ⟨letters, -⟩ := List.cons.inj (List.cons.inj same).2
    exact absurd letters.symm (shortEscapes_ne _ otherKnown)
  · simp only [List.cons_append, List.append_assoc, List.nil_append, List.cons.injEq,
      true_and] at same
    obtain ⟨digits, same⟩ := Shape.mark_append_inj (brace_not_mem_toDigits _)
      (brace_not_mem_toDigits _) same
    exact ⟨Char.toNat_inj.1 (toDigits_inj digits), same⟩
  · exact absurd (List.cons.inj same).1.symm otherNoBackslash
  · exact absurd (List.cons.inj same).1 noBackslash
  · exact absurd (List.cons.inj same).1 noBackslash
  · exact List.cons.inj same

theorem head?_escapeDiagnostic (character : Char) :
    ∃ first others, escapeDiagnostic character = first :: others ∧ first ≠ '"' := by
  rcases escapeDiagnostic_cases character with ⟨letter, -, written⟩ | written | ⟨-, noQuote, written⟩
  · exact ⟨_, _, written, by decide⟩
  · exact ⟨_, _, written, by decide⟩
  · exact ⟨_, _, written, noQuote⟩

theorem escaped_inj {first second rest others : List Char}
    (same : first.flatMap escapeDiagnostic ++ '"' :: rest =
      second.flatMap escapeDiagnostic ++ '"' :: others) : first = second ∧ rest = others := by
  induction first generalizing second with
  | nil =>
    cases second with
    | nil => exact ⟨rfl, (List.cons.inj same).2⟩
    | cons character more =>
      obtain ⟨head, tail, written, noQuote⟩ := head?_escapeDiagnostic character
      rw [List.flatMap_cons, written] at same
      exact absurd (List.cons.inj same).1.symm noQuote
  | cons character more inductionHypothesis =>
    cases second with
    | nil =>
      obtain ⟨head, tail, written, noQuote⟩ := head?_escapeDiagnostic character
      rw [List.flatMap_cons, written] at same
      exact absurd (List.cons.inj same).1 noQuote
    | cons otherCharacter otherMore =>
      rw [List.flatMap_cons, List.flatMap_cons, List.append_assoc, List.append_assoc] at same
      obtain ⟨rfl, later⟩ := escapeDiagnostic_inj same
      obtain ⟨rfl, further⟩ := inductionHypothesis later
      exact ⟨rfl, further⟩

theorem legible_quotedKey : Legible quotedKey := by
  intro value other rest others same
  simp only [quotedKey, quoted, String.toList_ofList, List.cons_append, List.append_assoc,
    List.nil_append, List.cons.injEq, true_and] at same
  obtain ⟨characters, same⟩ := escaped_inj same
  exact ⟨String.toList_injective characters, same⟩

/-! ### Lists and options -/

/-- What stands behind the start of a list: the elements after the first, and the end. -/
def listEnd {Value : Type} (write : Value → String) : List Value → List Char
  | [] => [']']
  | value :: rest => ',' :: ' ' :: (write value).toList ++ listEnd write rest

theorem toList_listKey {Value : Type} (write : Value → String) (value : Value)
    (rest : List Value) :
    (listKey ((value :: rest).map write)).toList =
      '[' :: (write value).toList ++ listEnd write rest := by
  induction rest generalizing value with
  | nil => simp [listKey, joined, listEnd]
  | cons next more inductionHypothesis =>
    have later := inductionHypothesis next
    simp only [listKey, List.map_cons, joined, String.toList_append, listEnd] at later ⊢
    simp_all

/-- Whether no text begins like the end of a list. -/
def Opens {Value : Type} (write : Value → String) : Prop :=
  ∀ value, ∃ first more, (write value).toList = first :: more ∧ first ≠ ']'

theorem begins_of_front {front text : String} (begins : front.toList.head?.any (· ≠ ']') = true) :
    ∃ first more, (front ++ text).toList = first :: more ∧ first ≠ ']' := by
  rw [String.toList_append]
  cases characters : front.toList with
  | nil => simp [characters] at begins
  | cons first more => exact ⟨first, more ++ text.toList, rfl, by simpa [characters] using begins⟩

section Lists

variable {Value : Type} {write : Value → String}

theorem listEnd_inj {values others : List Value}
    (legible : ∀ value ∈ values, LegibleAt write value) {rest more : List Char}
    (same : listEnd write values ++ rest = listEnd write others ++ more) :
    values = others ∧ rest = more := by
  induction values generalizing others with
  | nil =>
    cases others with
    | nil => exact ⟨rfl, (List.cons.inj same).2⟩
    | cons other later => exact absurd (List.cons.inj same).1 (by decide)
  | cons value later inductionHypothesis =>
    cases others with
    | nil => exact absurd (List.cons.inj same).1 (by decide)
    | cons other behind =>
      rw [List.forall_mem_cons] at legible
      simp only [listEnd, List.cons_append, List.append_assoc, List.cons.injEq, true_and] at same
      obtain ⟨rfl, later⟩ := legible.1 other _ _ same
      obtain ⟨rfl, further⟩ := inductionHypothesis legible.2 later
      exact ⟨rfl, further⟩

/-- Lists are read back element by element. -/
theorem legibleAt_listKey (opens : Opens write) {values : List Value}
    (legible : ∀ value ∈ values, LegibleAt write value) :
    LegibleAt (fun values : List Value => listKey (values.map write)) values := by
  have closed (value : Value) (later : List Value) (rest others : List Char) :
      (listKey []).toList ++ rest ≠ (listKey ((value :: later).map write)).toList ++ others := by
    intro same
    obtain ⟨first, more, begins, other⟩ := opens value
    rw [toList_listKey, begins] at same
    exact other (List.cons.inj (List.cons.inj same).2).1.symm
  intro others rest more same
  cases values with
  | nil =>
    cases others with
    | nil => exact ⟨rfl, List.append_cancel_left same⟩
    | cons other behind => exact absurd same (closed other behind rest more)
  | cons value later =>
    cases others with
    | nil => exact absurd same.symm (closed value later more rest)
    | cons other behind =>
      rw [List.forall_mem_cons] at legible
      simp only [toList_listKey, List.cons_append, List.append_assoc, List.cons.injEq,
        true_and] at same
      obtain ⟨rfl, later⟩ := legible.1 other _ _ same
      obtain ⟨rfl, further⟩ := listEnd_inj legible.2 later
      exact ⟨rfl, further⟩

theorem legible_optionKey (legible : Legible write) : Legible (optionKey write) := by
  intro value other rest others same
  cases value with
  | none =>
    cases other with
    | none => exact ⟨rfl, List.append_cancel_left same⟩
    | some other => exact absurd same (by simp [optionKey])
  | some value =>
    cases other with
    | none => exact absurd same (by simp [optionKey])
    | some other =>
      simp only [optionKey, String.toList_append, List.append_assoc] at same
      exact ((legible value).between _ _ same).imp_left (congrArg some)

end Lists

/-- A number ends at a mark that is no digit. -/
theorem numeral_mark_inj {mark : Char} (noDigit : mark.isDigit = false) {first second : Nat}
    {rest others : List Char}
    (same : (toString first).toList ++ mark :: rest = (toString second).toList ++ mark :: others) :
    first = second ∧ rest = others := by
  have clean (number : Nat) : mark ∉ (toString number).toList := by
    intro member
    rw [Shape.toList_numeral] at member
    exact absurd (Nat.isDigit_of_mem_toDigits (by decide) (by decide) member) (by simp [noDigit])
  obtain ⟨numerals, later⟩ := Shape.mark_append_inj (clean first) (clean second) same
  exact ⟨Shape.numeral_injective (String.toList_injective numerals), later⟩

/-- A number that may be missing is read back, because of the parenthesis behind it. -/
theorem legible_countKey : Legible (optionKey toString : Option Nat → String) := by
  intro value other rest others same
  cases value with
  | none =>
    cases other with
    | none => exact ⟨rfl, List.append_cancel_left same⟩
    | some other => exact absurd same (by simp [optionKey])
  | some value =>
    cases other with
    | none => exact absurd same (by simp [optionKey])
    | some other =>
      simp only [optionKey, String.toList_append, List.append_assoc] at same
      exact (numeral_mark_inj (by decide) (List.append_cancel_left same)).imp_left (congrArg some)

end Text

open Text (Legible LegibleAt Opens legible_quotedKey legibleAt_listKey)

/-! ### Terms -/

theorem Iri.legible_key : Legible Iri.key := by
  intro value other rest others same
  unfold Iri.key at same
  simp only [String.toList_append, List.append_assoc] at same
  exact ((legible_quotedKey value.text).between _ _ same).imp_left (congrArg Iri.mk)

theorem Literal.legible_key : Legible Literal.key := by
  intro value other rest others same
  cases value with
  | plain value =>
    cases other <;> unfold Literal.key at same <;>
      simp only [String.toList_append, List.append_assoc] at same
    case plain other =>
      exact ((legible_quotedKey value).between _ _ same).imp_left (congrArg Literal.plain)
    all_goals exact absurd same (Text.fronts_ne (by decide))
  | tagged value language =>
    cases other <;> unfold Literal.key at same <;>
      simp only [String.toList_append, List.append_assoc] at same
    case tagged other otherLanguage =>
      obtain ⟨rfl, later⟩ := (legible_quotedKey value).behind _ same
      obtain ⟨rfl, further⟩ := (legible_quotedKey language).behind _ later
      exact ⟨rfl, List.append_cancel_left further⟩
    all_goals exact absurd same (Text.fronts_ne (by decide))
  | typed value datatype =>
    cases other <;> unfold Literal.key at same <;>
      simp only [String.toList_append, List.append_assoc] at same
    case typed other otherDatatype =>
      obtain ⟨rfl, later⟩ := (legible_quotedKey value).behind _ same
      obtain ⟨rfl, further⟩ := (Iri.legible_key datatype).behind _ later
      exact ⟨rfl, List.append_cancel_left further⟩
    all_goals exact absurd same (Text.fronts_ne (by decide))

/-- A label that stands for a number is the hexadecimal form of it. -/
theorem toList_of_labelNumber? {label : String} {number : Nat}
    (found : labelNumber? label = some number) : label.toList = Nat.toDigits 16 number := by
  obtain ⟨canonical, same⟩ := Option.ite_none_right_eq_some.1 found
  exact Option.some.inj same ▸ canonical.2.2

theorem legible_labelKey : Legible labelKey := by
  intro value other rest others same
  unfold labelKey at same
  cases found : labelNumber? value with
  | none =>
    cases otherFound : labelNumber? other with
    | none =>
      simp only [found, otherFound, String.toList_append, List.append_assoc] at same
      exact (legible_quotedKey value).between _ _ same
    | some number =>
      simp only [found, otherFound, String.toList_append, List.append_assoc] at same
      exact absurd same (Text.fronts_ne (by decide))
  | some number =>
    cases otherFound : labelNumber? other with
    | none =>
      simp only [found, otherFound, String.toList_append, List.append_assoc] at same
      exact absurd same (Text.fronts_ne (by decide))
    | some otherNumber =>
      have comma : ", str: IdStr(".toList = ',' :: " str: IdStr(".toList := rfl
      simp only [found, otherFound, String.toList_append, List.append_assoc, comma,
        List.cons_append] at same
      obtain ⟨rfl, later⟩ := Text.numeral_mark_inj (by decide) (List.append_cancel_left same)
      -- The number decides the digits that are shown behind it.
      obtain rfl : value = other := String.toList_injective
        ((toList_of_labelNumber? found).trans (toList_of_labelNumber? otherFound).symm)
      exact ⟨rfl, List.append_cancel_left (List.append_cancel_left (List.append_cancel_left later))⟩

theorem Sparql.Term.legible_key : Legible Term.key := by
  intro value other rest others same
  cases value with
  | var name =>
    cases other <;> unfold Term.key at same <;>
      simp only [String.toList_append, List.append_assoc] at same
    case var otherName =>
      exact ((legible_quotedKey name.name).between _ _ same).imp_left
        (congrArg fun name => Term.var ⟨name⟩)
    all_goals exact absurd same (Text.fronts_ne (by decide))
  | iri name =>
    cases other <;> unfold Term.key at same <;>
      simp only [String.toList_append, List.append_assoc] at same
    case iri otherName =>
      exact ((Iri.legible_key name).between _ _ same).imp_left (congrArg Term.iri)
    all_goals exact absurd same (Text.fronts_ne (by decide))
  | literal value =>
    cases other <;> unfold Term.key at same <;>
      simp only [String.toList_append, List.append_assoc] at same
    case literal other =>
      exact ((Literal.legible_key value).between _ _ same).imp_left (congrArg Term.literal)
    all_goals exact absurd same (Text.fronts_ne (by decide))
  | blank label =>
    cases other <;> unfold Term.key at same <;>
      simp only [String.toList_append, List.append_assoc] at same
    case blank otherLabel =>
      exact ((legible_labelKey label).between _ _ same).imp_left (congrArg Term.blank)
    all_goals exact absurd same (Text.fronts_ne (by decide))

theorem Sparql.Term.opens_key : Opens Term.key := by
  intro term
  cases term <;> unfold Term.key <;> simp only [String.append_assoc] <;>
    exact Text.begins_of_front (by decide)

/-! ### Paths -/

namespace Sparql.Path

theorem keys_eq_map (paths : List Path) : keys paths = paths.map key := by
  induction paths with
  | nil => rfl
  | cons path rest inductionHypothesis => rw [keys, inductionHypothesis, List.map_cons]

theorem opens_key : Opens key := by
  intro path
  cases path <;> unfold key <;> rw [String.append_assoc] <;>
    exact Text.begins_of_front (by decide)

/-- What the key of a path begins with. -/
def front : Path → String
  | .predicate _ => "Direct("
  | .inverse _ => "Inverse("
  | .sequence _ => "Sequence("
  | .alternative _ => "Alternative("
  | .zeroOrMore _ => "ZeroOrMore("
  | .oneOrMore _ => "OneOrMore("
  | .zeroOrOne _ => "ZeroOrOne("

/-- What stands between the front of the key of a path and its end. -/
def inside : Path → String
  | .predicate iri => iri.key
  | .inverse path => path.key
  | .sequence paths => listKey (paths.map key)
  | .alternative paths => listKey (paths.map key)
  | .zeroOrMore path => path.key
  | .oneOrMore path => path.key
  | .zeroOrOne path => path.key

theorem key_eq (path : Path) : path.key = path.front ++ path.inside ++ ")" := by
  cases path <;> unfold key <;> (try rw [keys_eq_map]) <;> rfl

/-- All fronts. -/
def fronts : List String :=
  ["Direct(", "Inverse(", "Sequence(", "Alternative(", "ZeroOrMore(", "OneOrMore(", "ZeroOrOne("]

theorem front_mem_fronts (path : Path) : path.front ∈ fronts := by
  cases path <;> simp [front, fronts]

theorem fronts_apart : ∀ one ∈ fronts, ∀ other ∈ fronts, one ≠ other →
    one.toList.isPrefixOf other.toList = false ∧ other.toList.isPrefixOf one.toList = false := by
  decide

/-- Keys of different sorts of paths differ at their front. -/
theorem legible_front {path other : Path} {rest others : List Char}
    (same : path.key.toList ++ rest = other.key.toList ++ others) :
    path.front = other.front ∧
      path.inside.toList ++ (')' :: rest) = other.inside.toList ++ (')' :: others) := by
  rw [key_eq, key_eq] at same
  simp only [String.toList_append, List.append_assoc] at same
  by_cases fronts : path.front = other.front
  · rw [fronts] at same
    exact ⟨fronts, List.append_cancel_left same⟩
  · exact absurd same (Text.fronts_ne
      (fronts_apart _ path.front_mem_fronts _ other.front_mem_fronts fronts))

/-- A path is read back if what stands in its key is, since its front tells its sort. -/
theorem legibleAt_made {Value : Type} {make : Value → Path} {write : Value → String}
    (written : ∀ value, (make value).inside = write value)
    (only : ∀ value other, (make value).front = front other → ∃ again, other = make again)
    {value : Value} (legible : LegibleAt write value) : LegibleAt key (make value) := by
  intro other rest others same
  obtain ⟨fronts, inner⟩ := legible_front same
  obtain ⟨again, rfl⟩ := only value other fronts
  rw [written, written] at inner
  obtain ⟨rfl, later⟩ := legible again _ _ inner
  exact ⟨rfl, (List.cons.inj later).2⟩

mutual

theorem legibleAt_key (path : Path) : LegibleAt key path := by
  match path with
  | .predicate iri =>
    refine legibleAt_made (fun _ => rfl) (fun _ other fronts => ?_) (Iri.legible_key iri)
    cases other <;> simp_all [front]
  | .inverse path =>
    refine legibleAt_made (fun _ => rfl) (fun _ other fronts => ?_) (legibleAt_key path)
    cases other <;> simp_all [front]
  | .sequence paths =>
    refine legibleAt_made (fun _ => rfl) (fun _ other fronts => ?_)
      (legibleAt_listKey opens_key (legibleAt_keys paths))
    cases other <;> simp_all [front]
  | .alternative paths =>
    refine legibleAt_made (fun _ => rfl) (fun _ other fronts => ?_)
      (legibleAt_listKey opens_key (legibleAt_keys paths))
    cases other <;> simp_all [front]
  | .zeroOrMore path =>
    refine legibleAt_made (fun _ => rfl) (fun _ other fronts => ?_) (legibleAt_key path)
    cases other <;> simp_all [front]
  | .oneOrMore path =>
    refine legibleAt_made (fun _ => rfl) (fun _ other fronts => ?_) (legibleAt_key path)
    cases other <;> simp_all [front]
  | .zeroOrOne path =>
    refine legibleAt_made (fun _ => rfl) (fun _ other fronts => ?_) (legibleAt_key path)
    cases other <;> simp_all [front]

theorem legibleAt_keys (paths : List Path) : ∀ path ∈ paths, LegibleAt key path := by
  match paths with
  | [] => exact fun _ member => absurd member List.not_mem_nil
  | path :: rest => exact List.forall_mem_cons.2 ⟨legibleAt_key path, legibleAt_keys rest⟩

end

end Sparql.Path

/-! ### Shapes -/

theorem ShapePath.legible_key : Legible ShapePath.key := by
  intro value other rest others same
  unfold ShapePath.key at same
  simp only [String.toList_append, List.append_assoc] at same
  obtain ⟨paths, later⟩ := (value.path.legibleAt_key).behind _ same
  obtain ⟨synonyms, further⟩ :=
    (Text.legible_optionKey Iri.legible_key value.synonym).between _ _ later
  cases value
  cases other
  cases paths
  cases synonyms
  exact ⟨rfl, further⟩

theorem FilterConstraint.legible_key : Legible FilterConstraint.key := by
  intro value other rest others same
  unfold FilterConstraint.key at same
  simp only [String.toList_append, List.append_assoc] at same
  obtain ⟨paths, later⟩ := (value.path.legibleAt_key).behind _ same
  obtain ⟨values, further⟩ := (legibleAt_listKey Term.opens_key
    fun term _ => Term.legible_key term).between _ _ later
  cases value
  cases other
  cases paths
  cases values
  exact ⟨rfl, further⟩

namespace PropertyShape

/-- A property shape without its name. -/
def content (shape : PropertyShape) : PropertyShape :=
  { shape with id := "" }

/-- The key of a property shape tells everything but its name. -/
theorem content_eq_of_contentKey {first second : PropertyShape}
    (same : first.contentKey = second.contentKey) : first.content = second.content := by
  have opensPath : Opens ShapePath.key := fun path => by
    unfold ShapePath.key
    simp only [String.append_assoc]
    exact Text.begins_of_front (by decide)
  have opensClass : Opens Iri.key := fun name => by
    unfold Iri.key
    simp only [String.append_assoc]
    exact Text.begins_of_front (by decide)
  have opensFilter : Opens FilterConstraint.key := fun constraint => by
    unfold FilterConstraint.key
    simp only [String.append_assoc]
    exact Text.begins_of_front (by decide)
  have lists := congrArg (fun key => key.toList ++ []) same
  unfold contentKey at lists
  simp only [String.toList_append, List.append_assoc] at lists
  obtain ⟨paths, lists⟩ := legibleAt_listKey opensPath
    (fun path _ => ShapePath.legible_key path) second.paths _ _ lists
  obtain ⟨choices, lists⟩ := legibleAt_listKey opensPath
    (fun path _ => ShapePath.legible_key path) second.choices _ _ lists
  obtain ⟨classes, lists⟩ := legibleAt_listKey opensClass
    (fun name _ => Iri.legible_key name) second.classes _ _ lists
  obtain ⟨minCount, lists⟩ := Text.legible_countKey first.minCount second.minCount _ _ lists
  obtain ⟨maxCount, lists⟩ := Text.legible_countKey first.maxCount second.maxCount _ _ lists
  obtain ⟨filters, -⟩ := legibleAt_listKey opensFilter
    (fun constraint _ => FilterConstraint.legible_key constraint) second.filters _ _ lists
  simp only [content, paths, choices, classes, minCount, maxCount, filters]

/-- Names do not matter to the order. -/
theorem map_content_sortedByKey (shapes : List PropertyShape) :
    (sortedByKey contentKey shapes).map content = sortedByKey contentKey (shapes.map content) :=
  List.map_mergeSort fun _ _ _ _ => rfl

end PropertyShape

/-! ### Terms by their text -/

namespace Literal

open Sparql (Lexeme)
open Sparql.Lexer (beginsNumber)

/-- What stands behind the quotes of a literal. -/
def behindQuotes : Literal → List Char
  | .plain _ => []
  | .tagged _ language => '@' :: language.toList
  | .typed _ datatype => '^' :: '^' :: datatype.bracketed.toList

/-- The datatype of a literal that is written without quotes. -/
def bareDatatype (value : String) : Iri :=
  if isIntegerForm value then Vocabulary.xsdInteger
  else if isDecimalForm value then Vocabulary.xsdDecimal
  else Vocabulary.xsdBoolean

theorem isDecimalForm_of_isIntegerForm {value : String} (decimal : isDecimalForm value = true) :
    isIntegerForm value = false := by
  obtain ⟨whole, fraction, written, -⟩ := isDecimalForm_iff_unsigned.1 decimal
  refine Bool.eq_false_iff.2 fun integer => ?_
  have point : '.' ∈ unsignedForm value := by simp [written]
  exact absurd ((isIntegerForm_iff_unsigned.1 integer).2 '.' point) (by decide)

/-- Numbers do not begin like other terms. -/
theorem begins_of_numeral {text : String} (numeral : Sparql.Lexer.IsNumeral text) :
    ∃ first more, text.toList = first :: more ∧ first ∉ ['"', '?', '<', '_'] := by
  have read := @Sparql.Lexer.number?_numeral text numeral [] (fun _ found => nomatch found)
  rw [List.append_nil] at read
  cases characters : text.toList with
  | nil =>
    rw [characters] at read
    cases read
  | cons first more =>
    refine ⟨first, more, rfl, fun member => ?_⟩
    have other : ∀ first ∈ ['"', '?', '<', '_'], beginsNumber first = false := by decide
    rw [characters, Sparql.Lexer.number?_eq_none (other first member)] at read
    cases read

/-- A literal is written with quotes, or as a bare value that tells its datatype. -/
theorem written_cases (value : Literal) :
    (Lexeme.written value.lexemes).toList =
      '"' :: value.value.toList.flatMap Text.escapeLiteral ++ '"' :: value.behindQuotes ∨
    (∃ first more, value.value.toList = first :: more ∧ first ∉ ['"', '?', '<', '_']) ∧
      value = .typed value.value (bareDatatype value.value) ∧
      Lexeme.written value.lexemes = value.value := by
  rcases value.lexemes_cases with ⟨lexeme, bare, written⟩ | ⟨-, written⟩
  · rw [written]
    refine .inr ?_
    cases bare with
    | @integer value spelled =>
      have form := isIntegerForm_iff.2 spelled
      refine ⟨begins_of_numeral (.inl form), ?_,
        by simp [Lexeme.written, Lexeme.text, Literal.value]⟩
      rw [Literal.value, bareDatatype, if_pos form]
    | @decimal value spelled =>
      have form := isDecimalForm_iff.2 spelled
      refine ⟨begins_of_numeral (.inr form), ?_,
        by simp [Lexeme.written, Lexeme.text, Literal.value]⟩
      rw [Literal.value, bareDatatype, isDecimalForm_of_isIntegerForm form,
        if_neg Bool.false_ne_true, if_pos form]
    | truth spelled =>
      rcases spelled with rfl | rfl
      · exact ⟨⟨'t', _, rfl, by decide⟩, rfl, rfl⟩
      · exact ⟨⟨'f', _, rfl, by decide⟩, rfl, rfl⟩
  · rw [written]
    refine .inl ?_
    cases value <;>
      simp [suffix, Lexeme.written, Lexeme.text, Text.quoted, Literal.value, behindQuotes]

theorem eq_of_behindQuotes {first second : Literal} (values : first.value = second.value)
    (behind : first.behindQuotes = second.behindQuotes) : first = second := by
  cases first <;> cases second <;> simp_all [Literal.value, behindQuotes, Iri.bracketed]
  case tagged.tagged => exact String.toList_injective behind
  case typed.typed => exact congrArg Iri.mk (String.toList_injective behind)

/-- Literals are told apart by their text. -/
theorem written_injective {first second : Literal}
    (same : Lexeme.written first.lexemes = Lexeme.written second.lexemes) : first = second := by
  rcases first.written_cases with quoted | ⟨⟨letter, rest, begins, other⟩, typed, bare⟩ <;>
  rcases second.written_cases with again | ⟨⟨letter', rest', begins', other'⟩, typed', bare'⟩
  · rw [same, again] at quoted
    rw [List.cons_append, List.cons_append] at quoted
    have contents := congrArg (Rdf.Turtle.stringContent '"' false) (List.cons.inj quoted).2
    rw [Sparql.Lexer.stringContent_escaped, Sparql.Lexer.stringContent_escaped] at contents
    obtain ⟨values, behind⟩ := Prod.mk.inj (Option.some.inj contents)
    exact eq_of_behindQuotes (String.toList_injective values.symm) behind.symm
  · rw [same, bare', begins'] at quoted
    exact absurd ((List.cons.inj quoted).1 ▸ List.mem_cons_self) other'
  · rw [← same, bare, begins] at again
    exact absurd ((List.cons.inj again).1 ▸ List.mem_cons_self) other
  · rw [bare, bare'] at same
    rw [typed, typed', same]

/-- A literal does not begin like an IRI. -/
theorem written_begins (value : Literal) :
    ∃ first more, (Lexeme.written value.lexemes).toList = first :: more ∧ first ≠ '<' := by
  rcases value.written_cases with quoted | ⟨⟨first, more, begins, other⟩, -, bare⟩
  · exact ⟨_, _, quoted, by decide⟩
  · exact ⟨first, more, bare ▸ begins, fun same => other (by simp [same])⟩

end Literal

namespace Sparql.Term

theorem toList_text_iri (name : Iri) :
    (iri name).text.toList = '<' :: name.text.toList ++ ['>'] := by
  simp [text, lexemes, Lexeme.written, Lexeme.text, Iri.bracketed]

theorem text_iri_ne_literal (name : Iri) (value : Literal) :
    (iri name).text ≠ (literal value).text := by
  intro same
  obtain ⟨first, more, begins, other⟩ := value.written_begins
  have lists := congrArg String.toList same
  rw [toList_text_iri, show (literal value).text.toList = first :: more from begins] at lists
  exact other (List.cons.inj lists).1.symm

/-- IRIs and literals are told apart by their text. -/
theorem eq_of_text {first second : Term} (ground : first.unknown? = none)
    (otherGround : second.unknown? = none) (same : first.text = second.text) :
    first = second := by
  cases first with
  | iri name =>
    cases second with
    | iri other =>
      have lists := congrArg String.toList same
      rw [toList_text_iri, toList_text_iri] at lists
      have texts := List.append_cancel_right (List.cons.inj lists).2
      exact congrArg (iri ∘ Iri.mk) (String.toList_injective texts)
    | literal other => exact absurd same (text_iri_ne_literal name other)
    | var _ => cases otherGround
    | blank _ => cases otherGround
  | literal value =>
    cases second with
    | iri other => exact absurd same.symm (text_iri_ne_literal other value)
    | literal other => exact congrArg literal (Literal.written_injective same)
    | var _ => cases otherGround
    | blank _ => cases otherGround
  | var _ => cases ground
  | blank _ => cases ground

end Sparql.Term

/-! ### Sorting -/

/-- Sorting by a key leaves no order open: lists with the same values, which their keys tell apart,
are sorted to the same list. -/
theorem sortedByKey_eq_of_perm {Value : Type} {key : Value → String} {values others : List Value}
    (perm : values.Perm others)
    (apart : ∀ value ∈ values, ∀ other ∈ values, key value = key other → value = other) :
    sortedByKey key values = sortedByKey key others := by
  have sorted (list : List Value) :
      (sortedByKey key list).Pairwise fun first second => key first ≤ key second := by
    have pairwise := @List.pairwise_mergeSort _
      (fun first second => decide (key first ≤ key second))
      (fun first second third one other => by
        rw [decide_eq_true_eq] at one other ⊢
        exact String.le_trans one other)
      (fun first second => by
        rw [Bool.or_eq_true, decide_eq_true_eq, decide_eq_true_eq]
        exact String.le_total _ _) list
    exact pairwise.imp fun le => of_decide_eq_true le
  have same : (sortedByKey key values).Perm (sortedByKey key others) :=
    (List.mergeSort_perm values _).trans (perm.trans (List.mergeSort_perm others _).symm)
  refine same.eq_of_pairwise (fun first second inValues inOthers le ge => ?_) (sorted values)
    (sorted others)
  exact apart first (List.mem_mergeSort.1 inValues) second
    (perm.mem_iff.2 (List.mem_mergeSort.1 inOthers)) (String.le_antisymm le ge)

namespace PropertyShape

/-- Shapes with the same content are sorted to the same contents, in whatever order they are
found. -/
theorem map_content_sortedByKey_of_perm {shapes others : List PropertyShape}
    (perm : (shapes.map content).Perm (others.map content)) :
    (sortedByKey contentKey shapes).map content = (sortedByKey contentKey others).map content := by
  rw [map_content_sortedByKey, map_content_sortedByKey]
  refine sortedByKey_eq_of_perm perm fun first inFirst second inSecond sameKey => ?_
  obtain ⟨one, -, rfl⟩ := List.mem_map.1 inFirst
  obtain ⟨two, -, rfl⟩ := List.mem_map.1 inSecond
  exact content_eq_of_contentKey sameKey

/-- Two property shapes have the same key exactly if they are the same but for their names. So ties
leave nothing open: exactly the lists with the same contents, in any order, are sorted to the same
contents. -/
theorem ties_harmless :
    (∀ first second : PropertyShape,
      first.contentKey = second.contentKey ↔ { first with id := second.id } = second) ∧
    ∀ shapes others : List PropertyShape,
      (sortedByKey contentKey shapes).map content = (sortedByKey contentKey others).map content ↔
        (shapes.map content).Perm (others.map content) := by
  refine ⟨fun first second => ⟨fun same => ?_, fun same => ?_⟩,
    fun shapes others => ⟨fun same => ?_, map_content_sortedByKey_of_perm⟩⟩
  · exact congrArg (fun shape : PropertyShape => { shape with id := second.id })
      (content_eq_of_contentKey same)
  · rw [← same]
    rfl
  · have sorted (list : List PropertyShape) :
        ((sortedByKey contentKey list).map content).Perm (list.map content) :=
      (List.mergeSort_perm list _).map content
    exact (sorted shapes).symm.trans (same ▸ sorted others)

end PropertyShape

end ShapeQuery
