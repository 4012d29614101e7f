/-
This file defines the tokens of SPARQL and cuts a text into them by the rules of the grammar for
terminals: at every place the longest token is taken, and white space and comments between tokens
are dropped. The text need not come from a query tree, and nothing here knows how trees are written.

Two kinds of terminals are treated apart. A prefixed name needs a prologue, which the queries of
this library never have; a text with one has no tokens here. An empty pair of parentheses or of
brackets, which the grammar counts as one terminal, is read as its two marks. An escape of a code
point is read as part of the string that it stands in.
-/
import ShapeQuery.Rdf.Turtle.Token
import ShapeQuery.Sparql.Lexeme

namespace ShapeQuery.Sparql

/-- A token of a query text. -/
inductive Token where
  | iri (name : Iri)
  | var (name : Variable)
  | blank (label : String)
  | string (value : String)
  | language (tag : String)
  | number (text : String)
  | word (text : String)
  | mark (text : String)
deriving DecidableEq

namespace Lexer

open Rdf.Turtle (isNameCharacter beginsLocal stringContent skip skip_length)

/-! ### Character classes -/

/-- What holds of each character of a text is decided along the text: an instance for statements
about all characters would go through all of them. -/
instance (priority := 2000) decidableEach {test : Char → Prop} [DecidablePred test]
    (characters : List Char) : Decidable (∀ character ∈ characters, test character) :=
  List.decidableBAll test characters

/-- The characters of an IRI reference. -/
def isIriCharacter (character : Char) : Bool :=
  0x20 < character.toNat && !"<>\"\x7b\x7d|^`\\".toList.contains character

/-- The characters of a variable after its first one. -/
def isVariableCharacter (character : Char) : Bool :=
  isNameCharacter character && character ≠ '-'

/-- The characters of a blank node label after its first one. -/
def isLabelCharacter (character : Char) : Bool :=
  isNameCharacter character || character = '.'

/-- The characters of a keyword. -/
def isWordCharacter (character : Char) : Bool :=
  Iri.isAsciiAlphanumeric character || character = '_'

/-! ### Numbers -/

/-- The sign at the start of a text, if there is one, and what follows. -/
def signed : List Char → List Char × List Char
  | '+' :: rest => (['+'], rest)
  | '-' :: rest => (['-'], rest)
  | rest => ([], rest)

/-- The exponent at the start of a text, if there is one, and what follows. -/
def exponent : List Char → List Char × List Char
  | [] => ([], [])
  | mark :: rest =>
    let (sign, digits) := signed rest
    if (mark = 'e' || mark = 'E') && (digits.head?.map Char.isDigit).getD false then
      (mark :: sign ++ digits.takeWhile Char.isDigit, digits.dropWhile Char.isDigit)
    else ([], mark :: rest)

/-- The number without a sign at the start of a text, and what follows. A point belongs to the
number if digits follow it, or an exponent after digits before it. -/
def unsigned? (characters : List Char) : Option (List Char × List Char) :=
  let whole := characters.takeWhile Char.isDigit
  match characters.dropWhile Char.isDigit with
  | '.' :: afterPoint =>
    let fraction := afterPoint.takeWhile Char.isDigit
    let (power, after) := exponent (afterPoint.dropWhile Char.isDigit)
    if !fraction.isEmpty || (!whole.isEmpty && !power.isEmpty) then
      some (whole ++ '.' :: fraction ++ power, after)
    else if whole.isEmpty then none
    else some (whole, '.' :: afterPoint)
  | afterWhole =>
    if whole.isEmpty then none
    else
      let (power, after) := exponent afterWhole
      some (whole ++ power, after)

/-- The number at the start of a text. -/
def number? (characters : List Char) : Option (Token × List Char) :=
  let (sign, body) := signed characters
  (unsigned? body).map fun (digits, after) => (.number (String.ofList (sign ++ digits)), after)

/-! ### Words and names -/

/-- The keyword at the start of a text, unless a colon makes it the prefix of a name. -/
def word? (characters : List Char) : Option (Token × List Char) :=
  if (characters.head?.map Char.isAlpha).getD false then
    if (characters.dropWhile isLabelCharacter).head? = some ':' then none
    else
      some (.word (String.ofList (characters.takeWhile isWordCharacter)),
        characters.dropWhile isWordCharacter)
  else none

/-- The variable after a mark. -/
def named? (characters : List Char) : Option (Token × List Char) :=
  match characters with
  | [] => none
  | first :: rest =>
    if beginsLocal first then
      some (.var ⟨String.ofList (first :: rest.takeWhile isVariableCharacter)⟩,
        rest.dropWhile isVariableCharacter)
    else none

/-- The blank node after a low line and a colon. Points at its end do not belong to it. -/
def blank? (characters : List Char) : Option (Token × List Char) :=
  match characters with
  | [] => none
  | first :: rest =>
    if beginsLocal first then
      let label := ((rest.takeWhile isLabelCharacter).reverse.dropWhile (· = '.')).reverse
      some (.blank (String.ofList (first :: label)), rest.drop label.length)
    else none

/-- The rest of a language tag: letters, and after the first hyphen digits too. A hyphen belongs to
the tag if a letter or a digit follows it. -/
def tagContent (later : Bool) : List Char → List Char × List Char
  | [] => ([], [])
  | character :: rest =>
    if character = '-' && (rest.head?.map Iri.isAsciiAlphanumeric).getD false then
      (character :: (tagContent true rest).1, (tagContent true rest).2)
    else if character.isAlpha || (later && character.isDigit) then
      (character :: (tagContent later rest).1, (tagContent later rest).2)
    else ([], character :: rest)

/-- The language tag after an at sign. -/
def language? (characters : List Char) : Option (Token × List Char) :=
  if (characters.head?.map Char.isAlpha).getD false then
    some (.language (String.ofList (tagContent false characters).1), (tagContent false characters).2)
  else none

/-! ### Tokens with a closing mark -/

/-- The IRI reference after an opening bracket. -/
def iri? (characters : List Char) : Option (Token × List Char) :=
  match characters.dropWhile isIriCharacter with
  | '>' :: after =>
    some (.iri ⟨String.ofList (characters.takeWhile isIriCharacter)⟩, after)
  | _ => none

/-- The string after a quote. Three quotes open a long one. -/
def string? (quote : Char) (characters : List Char) : Option (Token × List Char) :=
  let content :=
    if characters.take 2 = [quote, quote] then stringContent quote true (characters.drop 2)
    else stringContent quote false characters
  content.map fun (value, after) => (.string (String.ofList value), after)

/-! ### Marks -/

/-- The marks of the grammar. One that begins with another one comes before it. -/
def marks : List String :=
  ["||", "&&", "!=", "<=", ">=", "^^", "(", ")", "\x7b", "\x7d", "[", "]", ".", ",", ";", "=", "<",
   ">", "!", "+", "-", "*", "/", "|", "^", "?"]

/-- The mark at the start of a text. -/
def mark? (characters : List Char) : Option (Token × List Char) :=
  (marks.find? fun mark => mark.toList.isPrefixOf characters).map fun mark =>
    (.mark mark, characters.drop mark.toList.length)

/-! ### Texts -/

/-- The token at the start of a text whose first character tells its kind. -/
def special? (characters : List Char) : Option (Token × List Char) :=
  match characters with
  | '<' :: rest => iri? rest
  | '?' :: rest => named? rest
  | '$' :: rest => named? rest
  | '_' :: ':' :: rest => blank? rest
  | '"' :: rest => string? '"' rest
  | '\x27' :: rest => string? '\x27' rest
  | '@' :: rest => language? rest
  | _ => none

/-- The token at the start of a text. -/
def token? (characters : List Char) : Option (Token × List Char) :=
  number? characters <|> word? characters <|> special? characters <|> mark? characters

/-- The tokens of a text. -/
def tokens? (characters : List Char) : Option (List Token) :=
  match _equal : skip false characters with
  | [] => some []
  | first :: rest =>
    match token? (first :: rest) with
    | none => none
    | some (token, after) =>
      if _shorter : after.length ≤ rest.length then (tokens? after).map (token :: ·) else none
termination_by characters.length
decreasing_by
  have bound := skip_length false characters
  rw [_equal, List.length_cons] at bound
  omega

end Lexer

end ShapeQuery.Sparql
