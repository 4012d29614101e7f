/-
This file says what regular expressions mean: those of XPath without groups, alternatives, classes
of characters and counts. Such an expression is a sequence of pieces, each of which is a character,
a wildcard or an end of the text, perhaps repeated. The regular expression of a text is found
exactly where the text itself is.
-/
import Mathlib.Data.List.Forall2
import Mathlib.Data.List.Infix
import ShapeQuery.Text.Regex

namespace ShapeQuery.Text

/-! ### Syntax -/

/-- What a piece of a regular expression asks for. -/
inductive Atom where
  | character (wanted : Char)
  | any
  | start
  | finish
deriving DecidableEq

/-- How often a piece asks for its atom. -/
inductive Quantity where
  | once
  | optional
  | repeated
  | several
deriving DecidableEq

/-- A part of a regular expression. -/
structure Piece where
  atom : Atom
  quantity : Quantity
deriving DecidableEq

/-- A symbol in the text of a regular expression. -/
inductive Symbol where
  | atom (atom : Atom)
  | quantity (quantity : Quantity)
deriving DecidableEq

/-- The character that an escaped one stands for. -/
def unescaped? (character : Char) : Option Char :=
  if character = 'n' then some '\n'
  else if character = 'r' then some '\r'
  else if character = 't' then some '\t'
  else if "\\|.?*+()\x7b\x7d-[]^$".toList.contains character then some character
  else none

/-- The symbol of a character that is not escaped. Groups, alternatives, classes and counts have
none. -/
def symbol? (character : Char) : Option Symbol :=
  if character = '.' then some (.atom .any)
  else if character = '^' then some (.atom .start)
  else if character = '$' then some (.atom .finish)
  else if character = '?' then some (.quantity .optional)
  else if character = '*' then some (.quantity .repeated)
  else if character = '+' then some (.quantity .several)
  else if "\\|()\x7b\x7d[]".toList.contains character then none
  else some (.atom (.character character))

/-- The symbols of a text. -/
def symbols? : List Char → Option (List Symbol)
  | [] => some []
  | ['\\'] => none
  | '\\' :: escaped :: rest => do
    let character ← unescaped? escaped
    return .atom (.character character) :: (← symbols? rest)
  | character :: rest => do
    let symbol ← symbol? character
    return symbol :: (← symbols? rest)

/-- The pieces that symbols make up: a quantity belongs to the atom before it. -/
def pieces? : List Symbol → Option (List Piece)
  | [] => some []
  | .quantity _ :: _ => none
  | .atom atom :: .quantity quantity :: rest => do return ⟨atom, quantity⟩ :: (← pieces? rest)
  | .atom atom :: rest => do return ⟨atom, .once⟩ :: (← pieces? rest)

/-- The regular expression that a text denotes. -/
def regex? (text : String) : Option (List Piece) := do
  pieces? (← symbols? text.toList)

/-! ### Meaning -/

/-- How a regular expression is read: which characters a character stands for, and which ones the
wildcard stands for. -/
structure Reading where
  same : Char → Char → Prop
  any : Char → Prop

/-- Whether an atom matches characters between those before and after them. -/
def Atom.Matches (reading : Reading) (before matched after : List Char) : Atom → Prop
  | .character wanted => ∃ found, matched = [found] ∧ reading.same wanted found
  | .any => ∃ found, matched = [found] ∧ reading.any found
  | .start => matched = [] ∧ before = []
  | .finish => matched = [] ∧ after = []

/-- Whether characters are matched by repeating a step, perhaps never. -/
inductive Repeats (step : List Char → List Char → List Char → Prop) :
    List Char → List Char → List Char → Prop where
  | done (before after : List Char) : Repeats step before [] after
  | next {before first rest after : List Char} : step before first (rest ++ after) →
      Repeats step (before ++ first) rest after → Repeats step before (first ++ rest) after

/-- Whether characters are matched by making a step as often as a quantity says. -/
def Quantity.Matches (step : List Char → List Char → List Char → Prop)
    (before matched after : List Char) : Quantity → Prop
  | .once => step before matched after
  | .optional => matched = [] ∨ step before matched after
  | .repeated => Repeats step before matched after
  | .several => ∃ first rest, matched = first ++ rest ∧ step before first (rest ++ after) ∧
      Repeats step (before ++ first) rest after

/-- Whether pieces match characters one after another. -/
def Matches (reading : Reading) (before matched after : List Char) : List Piece → Prop
  | [] => matched = []
  | piece :: rest => ∃ first others, matched = first ++ others ∧
      piece.quantity.Matches (fun before matched after =>
        piece.atom.Matches reading before matched after) before first (others ++ after) ∧
      Matches reading (before ++ first) others after rest

/-- Whether a regular expression matches somewhere in a text. -/
def FoundIn (reading : Reading) (pieces : List Piece) (text : String) : Prop :=
  ∃ before matched after, text.toList = before ++ matched ++ after ∧
    Matches reading before matched after pieces

/-! ### Reading symbols -/

/-- A quantity as symbols, of which there are none for a single time. -/
def Quantity.symbols : Quantity → List Symbol
  | .once => []
  | quantity => [.quantity quantity]

/-- A piece as symbols. -/
def Piece.symbols (piece : Piece) : List Symbol :=
  .atom piece.atom :: piece.quantity.symbols

/-- Pieces are read back from their symbols. -/
theorem pieces_symbols (pieces : List Piece) :
    pieces? (pieces.flatMap Piece.symbols) = some pieces := by
  induction pieces with
  | nil => rfl
  | cons piece rest inductionHypothesis =>
    obtain ⟨atom, quantity⟩ := piece
    rw [List.flatMap_cons, Piece.symbols]
    cases quantity with
    | once =>
      -- The atom has no quantity, since the next symbol, if there is one, is an atom.
      rw [Quantity.symbols, List.singleton_append, pieces?, inductionHypothesis]
      · rfl
      · intro quantity others same
        cases rest with
        | nil => cases same
        | cons next others => cases (List.cons.inj same).1
    | _ =>
      show pieces? (.atom atom :: .quantity _ :: rest.flatMap Piece.symbols) = _
      rw [pieces?, inductionHypothesis]
      rfl

/-- A character that is not escaped is read as its symbol. -/
theorem symbols_cons {character : Char} {symbol : Symbol}
    (known : symbol? character = some symbol) (rest : List Char) :
    symbols? (character :: rest) = (symbols? rest).map (symbol :: ·) := by
  have plain : character ≠ '\\' := by
    rintro rfl
    cases known
  rw [symbols?, known]
  · cases symbols? rest <;> rfl
  · exact fun same _ => plain same
  · exact fun _ _ same => absurd same plain

/-! ### Escaped texts -/

/-- The pieces that ask for characters one by one. -/
def literally (characters : List Char) : List Piece :=
  characters.map fun character => ⟨.character character, .once⟩

theorem unescaped_of_operator {character : Char} (operator : isRegexOperator character = true) :
    unescaped? character = some character := by
  have all : ∀ other ∈ "\\|.?*+()\x7b\x7d[]^$-".toList, unescaped? other = some other := by decide
  exact all character (List.contains_iff_mem.1 operator)

theorem symbol_of_not_operator {character : Char}
    (ordinary : isRegexOperator character = false) :
    symbol? character = some (.atom (.character character)) := by
  have other : ∀ operator ∈ "\\|.?*+()\x7b\x7d[]^$-".toList, character ≠ operator := by
    rintro operator member rfl
    rw [isRegexOperator, List.contains_iff_mem.2 member] at ordinary
    cases ordinary
  have special : "\\|()\x7b\x7d[]".toList.contains character = false := by
    rw [Bool.eq_false_iff, Ne, List.contains_iff_mem]
    intro member
    have listed : ∀ operator ∈ "\\|()\x7b\x7d[]".toList,
        operator ∈ "\\|.?*+()\x7b\x7d[]^$-".toList := by decide
    exact other character (listed character member) rfl
  rw [symbol?, if_neg (other '.' (by decide)), if_neg (other '^' (by decide)),
    if_neg (other '$' (by decide)), if_neg (other '?' (by decide)),
    if_neg (other '*' (by decide)), if_neg (other '+' (by decide)), special]
  rfl

theorem symbols_escapeRegexCharacter (character : Char) (rest : List Char) :
    symbols? (escapeRegexCharacter character ++ rest) =
      (symbols? rest).map (.atom (.character character) :: ·) := by
  unfold escapeRegexCharacter
  split
  · rename_i operator
    show symbols? ('\\' :: character :: rest) = _
    rw [symbols?, unescaped_of_operator operator]
    cases symbols? rest <;> rfl
  · rename_i ordinary
    exact symbols_cons (symbol_of_not_operator (Bool.eq_false_iff.2 ordinary)) rest

theorem symbols_escaped (characters : List Char) :
    symbols? (characters.flatMap escapeRegexCharacter) =
      some ((literally characters).flatMap Piece.symbols) := by
  induction characters with
  | nil => rfl
  | cons character rest inductionHypothesis =>
    rw [List.flatMap_cons, symbols_escapeRegexCharacter, inductionHypothesis]
    rfl

/-- The regular expression of a text asks for its characters. -/
theorem regex_escapeRegex (text : String) :
    regex? (escapeRegex text) = some (literally text.toList) := by
  rw [regex?, escapeRegex, String.toList_ofList, symbols_escaped]
  exact pieces_symbols _

/-- After the mark for the start of a text, its regular expression asks for its characters there. -/
theorem regex_start_escapeRegex (text : String) :
    regex? ("^" ++ escapeRegex text) = some (⟨.start, .once⟩ :: literally text.toList) := by
  have characters : ("^" ++ escapeRegex text).toList =
      '^' :: text.toList.flatMap escapeRegexCharacter := by
    rw [String.toList_append]
    exact congrArg ('^' :: ·) String.toList_ofList
  rw [regex?, characters, @symbols_cons '^' (.atom .start) rfl, symbols_escaped]
  exact pieces_symbols (⟨.start, .once⟩ :: literally text.toList)

/-! ### Where texts are found -/

theorem matches_literally {reading : Reading} {before matched after characters : List Char} :
    Matches reading before matched after (literally characters) ↔
      List.Forall₂ reading.same characters matched := by
  induction characters generalizing before matched with
  | nil => exact List.forall₂_nil_left_iff.symm
  | cons character rest inductionHypothesis =>
    rw [List.forall₂_cons_left_iff]
    constructor
    · rintro ⟨first, others, rfl, ⟨found, rfl, same⟩, further⟩
      exact ⟨found, others, same, inductionHypothesis.1 further, rfl⟩
    · rintro ⟨found, others, same, further, rfl⟩
      exact ⟨[found], others, rfl, ⟨found, rfl, same⟩, inductionHypothesis.2 further⟩

/-- The reading that takes characters for the same if they are folded to the same one. -/
def Reading.folding (fold : Char → Char) : Reading where
  same first second := fold first = fold second
  any character := character ≠ '\n' ∧ character ≠ '\r'

theorem forall_same_folding {fold : Char → Char} {characters matched : List Char} :
    List.Forall₂ (Reading.folding fold).same characters matched ↔
      characters.map fold = matched.map fold := by
  rw [← List.forall₂_eq_eq_eq, List.forall₂_map_left_iff, List.forall₂_map_right_iff]
  rfl

/-- The regular expression of a text is found where the text is. -/
theorem foundIn_literally {fold : Char → Char} {characters : List Char} {text : String} :
    FoundIn (.folding fold) (literally characters) text ↔
      characters.map fold <:+: text.toList.map fold := by
  simp only [FoundIn, matches_literally, forall_same_folding]
  constructor
  · rintro ⟨before, matched, after, split, same⟩
    refine ⟨before.map fold, after.map fold, ?_⟩
    rw [split, List.map_append, List.map_append, same]
  · rintro ⟨first, last, same⟩
    obtain ⟨front, after, split, joined, -⟩ := List.map_eq_append_iff.1 same.symm
    obtain ⟨before, matched, parts, -, found⟩ := List.map_eq_append_iff.1 joined
    exact ⟨before, matched, after, by rw [split, parts], found.symm⟩

/-- After the mark for the start of a text, its regular expression is found where it starts. -/
theorem foundIn_start_literally {fold : Char → Char} {characters : List Char} {text : String} :
    FoundIn (.folding fold) (⟨.start, .once⟩ :: literally characters) text ↔
      characters.map fold <+: text.toList.map fold := by
  have starts {before matched after : List Char} :
      Matches (.folding fold) before matched after (⟨.start, .once⟩ :: literally characters) ↔
        before = [] ∧ characters.map fold = matched.map fold := by
    constructor
    · rintro ⟨first, others, rfl, ⟨rfl, rfl⟩, further⟩
      exact ⟨rfl, forall_same_folding.1 (matches_literally.1 further)⟩
    · rintro ⟨rfl, same⟩
      exact ⟨[], matched, rfl, ⟨rfl, rfl⟩, matches_literally.2 (forall_same_folding.2 same)⟩
  simp only [FoundIn, starts]
  constructor
  · rintro ⟨before, matched, after, split, rfl, same⟩
    exact ⟨after.map fold, by rw [split, List.nil_append, List.map_append, same]⟩
  · rintro ⟨last, same⟩
    obtain ⟨matched, after, split, found, -⟩ := List.map_eq_append_iff.1 same.symm
    exact ⟨[], matched, after, split, rfl, found.symm⟩

end ShapeQuery.Text
