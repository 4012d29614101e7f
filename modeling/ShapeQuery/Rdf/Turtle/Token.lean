/-
This file cuts Turtle documents into tokens.
-/
import ShapeQuery.Rdf.Term
import ShapeQuery.Rdf.Turtle.Name

namespace ShapeQuery.Rdf.Turtle

/-- A token of a Turtle document. -/
inductive Token where
  | iriReference (text : String)
  | name (label : String) (localPart : LocalPart)
  | word (text : String)
  | blank (label : String)
  | string (value : String)
  | language (tag : String)
  | number (text : String) (datatype : Iri)
  | datatypeMark
  | mark (character : Char)
deriving DecidableEq

/-! ### White space -/

/-- Whether a character separates tokens. -/
def isSpace (character : Char) : Bool :=
  character = ' ' || character = '\t' || character = '\n' || character = '\r'

/-- Whether a character ends a line. -/
def isLineEnd (character : Char) : Bool :=
  character = '\n' || character = '\r'

/-! ### Escapes -/

/-- The value of a hexadecimal digit. -/
def hexDigit? (character : Char) : Option Nat :=
  if character.isDigit then some (character.toNat - '0'.toNat)
  else if 'a' ≤ character && character ≤ 'f' then some (character.toNat - 'a'.toNat + 10)
  else if 'A' ≤ character && character ≤ 'F' then some (character.toNat - 'A'.toNat + 10)
  else none

/-- The character with a code point written in hexadecimal. -/
def escapedCharacter? (digits : List Char) : Option Char := do
  let code ← digits.foldlM (fun value digit => (hexDigit? digit).map (16 * value + ·)) 0
  if code.isValidChar then some (Char.ofNat code) else none

/-- The character of a one letter escape. -/
def shortEscape? (character : Char) : Option Char :=
  match character with
  | 't' => some '\t'
  | 'b' => some '\x08'
  | 'n' => some '\n'
  | 'r' => some '\r'
  | 'f' => some '\x0c'
  | '"' => some '"'
  | '\'' => some '\''
  | '\\' => some '\\'
  | _ => none

/-! ### Tokens with a closing mark -/

/-- Puts a character before a text that was read. -/
def prepended (character : Char) (read : Option (List Char × List Char)) :
    Option (List Char × List Char) :=
  read.map fun (text, rest) => (character :: text, rest)

/-- Reads the content of a string up to its closing quote; a long string is closed by three of
them and may contain line ends. -/
def stringContent (quote : Char) (long : Bool) : List Char → Option (List Char × List Char)
  | [] => none
  | '\\' :: 'u' :: a :: b :: c :: d :: rest => do
    let character ← escapedCharacter? [a, b, c, d]
    prepended character (stringContent quote long rest)
  | '\\' :: 'U' :: a :: b :: c :: d :: e :: f :: g :: h :: rest => do
    let character ← escapedCharacter? [a, b, c, d, e, f, g, h]
    prepended character (stringContent quote long rest)
  | '\\' :: escape :: rest => do
    let character ← shortEscape? escape
    prepended character (stringContent quote long rest)
  | character :: rest =>
    if character = quote && !long then some ([], rest)
    else if character = quote && rest.take 2 = [quote, quote] then some ([], rest.drop 2)
    else if isLineEnd character && !long then none
    else prepended character (stringContent quote long rest)

/-- Reads an IRI reference up to its closing bracket. -/
def referenceContent : List Char → Option (List Char × List Char)
  | [] => none
  | '\\' :: 'u' :: a :: b :: c :: d :: rest => do
    let character ← escapedCharacter? [a, b, c, d]
    prepended character (referenceContent rest)
  | '\\' :: 'U' :: a :: b :: c :: d :: e :: f :: g :: h :: rest => do
    let character ← escapedCharacter? [a, b, c, d, e, f, g, h]
    prepended character (referenceContent rest)
  | character :: rest =>
    if character = '>' then some ([], rest)
    else if character = '\\' || isLineEnd character then none
    else prepended character (referenceContent rest)

/-! ### Names -/

/-- Reads a prefixed name or a bare word. Dots at the end of a word do not belong to it. -/
def nameToken? (characters : List Char) : Option (Token × List Char) :=
  let run := characters.takeWhile fun character => isNameCharacter character || character = '.'
  match characters.drop run.length with
  | ':' :: rest =>
    if run.getLast? = some '.' then none
    else (localPart? rest).map fun (part, after) => (.name (String.ofList run) part, after)
  | _ =>
    let word := (run.reverse.dropWhile (· = '.')).reverse
    if word.isEmpty then none
    else some (.word (String.ofList word), characters.drop word.length)

/-! ### Numbers -/

/-- Reads a number: digits with an optional sign, point and exponent. -/
def numberToken? (characters : List Char) : Option (Token × List Char) := do
  let (sign, body) := match characters with
    | '+' :: rest => (['+'], rest)
    | '-' :: rest => (['-'], rest)
    | _ => ([], characters)
  let whole := body.takeWhile Char.isDigit
  let afterWhole := body.dropWhile Char.isDigit
  let (fraction, afterFraction) := match afterWhole with
    | '.' :: rest => (rest.takeWhile Char.isDigit, rest.dropWhile Char.isDigit)
    | _ => ([], afterWhole)
  let dotted := afterFraction.length < afterWhole.length
  let point := if dotted then ['.'] else []
  let written := sign ++ whole ++ point ++ fraction
  if afterFraction.head? = some 'e' || afterFraction.head? = some 'E' then
    let mark := afterFraction.take 1
    let afterMark := afterFraction.drop 1
    let (exponentSign, afterSign) := match afterMark with
      | '+' :: rest => (['+'], rest)
      | '-' :: rest => (['-'], rest)
      | _ => ([], afterMark)
    let exponent := afterSign.takeWhile Char.isDigit
    if exponent.isEmpty || (whole.isEmpty && fraction.isEmpty) then none
    else some (.number (String.ofList (written ++ mark ++ exponentSign ++ exponent))
      Vocabulary.xsdDouble, afterSign.dropWhile Char.isDigit)
  else if !fraction.isEmpty then
    some (.number (String.ofList written) Vocabulary.xsdDecimal, afterFraction)
  else if !whole.isEmpty then
    some (.number (String.ofList (sign ++ whole)) Vocabulary.xsdInteger, afterWhole)
  else none

/-! ### Documents -/

/-- Reads letters, and a hyphen wherever a letter follows it. -/
def tagContent : List Char → List Char × List Char
  | [] => ([], [])
  | character :: rest =>
    let hyphen := character = '-' && (rest.head?.map Char.isAlpha).getD false
    if hyphen || character.isAlpha then
      let (text, after) := tagContent rest
      (character :: text, after)
    else ([], character :: rest)

/-- Reads a language tag after the at sign. -/
def languageToken? (characters : List Char) : Option (Token × List Char) :=
  let (tag, after) := tagContent characters
  if (tag.headD '-').isAlpha then some (.language (String.ofList tag), after) else none

/-- Reads a string, after its first quote. -/
def stringToken? (quote : Char) (characters : List Char) : Option (Token × List Char) := do
  let long := characters.take 2 = [quote, quote]
  let (content, rest) ←
    if long then stringContent quote true (characters.drop 2)
    else stringContent quote false characters
  some (.string (String.ofList content), rest)

/-- Reads the token that begins with a given character. -/
def token? (character : Char) (rest : List Char) : Option (Token × List Char) :=
  if character = '<' then
    (referenceContent rest).map fun (text, after) => (.iriReference (String.ofList text), after)
  else if character = '"' || character = '\'' then stringToken? character rest
  else if character = '@' then languageToken? rest
  else if character = '^' then
    match rest with
    | '^' :: after => some (.datatypeMark, after)
    | _ => none
  else if character = '_' then
    match rest with
    | ':' :: first :: after =>
      if beginsLocal first then
        let (label, after) := labelContent after
        some (.blank (String.ofList (first :: label)), after)
      else none
    | _ => none
  else if character.isDigit || character = '+' || character = '-' then
    numberToken? (character :: rest)
  else if character = '.' then
    if (rest.headD ' ').isDigit then numberToken? (character :: rest)
    else some (.mark '.', rest)
  else if ";,[]()".toList.contains character then some (.mark character, rest)
  else if character = ':' || nameLetters.contains character then nameToken? (character :: rest)
  else none

/-- Skips white space and comments; `inComment` tells whether a comment is being skipped. -/
def skip (inComment : Bool) : List Char → List Char
  | [] => []
  | character :: rest =>
    if inComment then skip (!isLineEnd character) rest
    else if isSpace character then skip false rest
    else if character = '#' then skip true rest
    else character :: rest

theorem skip_length (inComment : Bool) (characters : List Char) :
    (skip inComment characters).length ≤ characters.length := by
  induction characters generalizing inComment with
  | nil => simp [skip]
  | cons character rest inductionHypothesis =>
    have bound := fun inComment => Nat.le_succ_of_le (inductionHypothesis inComment)
    simp only [skip, List.length_cons]
    split
    · exact bound _
    · split
      · exact bound _
      · split
        · exact bound _
        · exact Nat.le_refl _

/-- The tokens of a document. Every token takes at least one character. -/
def tokens? (characters : List Char) : Option (List Token) :=
  match _equal : skip false characters with
  | [] => some []
  | character :: rest =>
    match token? character rest with
    | none => none
    | some (token, after) =>
      if _shorter : after.length ≤ rest.length then (tokens? after).map (token :: ·) else none
termination_by characters.length
decreasing_by
  have bound := skip_length false characters
  rw [_equal, List.length_cons] at bound
  omega

end ShapeQuery.Rdf.Turtle
