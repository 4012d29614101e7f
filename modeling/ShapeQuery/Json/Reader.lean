/-
This file reads JSON texts. The text is first cut into tokens, one character at a time, and the
tokens then drive a machine whose stack holds the arrays and objects that are still open. Both
are folds over their input, so no text makes them run on.

A reader that is interested in some members of an object only passes over the others. Those have
to be well formed, but they may nest to any depth and hold scalars that have no value.
-/
import ShapeQuery.Json.Number

namespace ShapeQuery.Json

/-! ### Tokens -/

/-- A token of a JSON text. -/
inductive Token where
  | openArray
  | closeArray
  | openObject
  | closeObject
  | comma
  | colon
  | scalar (value : Json)
  /-- A well formed scalar without value: a number beyond the range, or a text with half of a pair
  of code units. -/
  | valueless (isText : Bool)
deriving Inhabited

/-- Where the scanner stands. Texts are collected in reverse, until they turn out to have no
value. -/
inductive ScanState where
  | between
  | word (collected : List Char)
  | text (collected : Option (List Char))
  | escape (collected : Option (List Char))
  | codeUnit (collected : Option (List Char)) (high : Option Nat) (digits : List Char)
  | afterHigh (collected : Option (List Char)) (high : Nat)
  | afterHighEscape (collected : Option (List Char)) (high : Nat)

/-- The four characters that JSON skips between tokens. -/
def isSpace (character : Char) : Bool :=
  character = ' ' || character = '\n' || character = '\t' || character = '\r'

/-- The token of a punctuation mark. -/
def punctuation? (character : Char) : Option Token :=
  match character with
  | '[' => some .openArray
  | ']' => some .closeArray
  | '{' => some .openObject
  | '}' => some .closeObject
  | ',' => some .comma
  | ':' => some .colon
  | _ => none

/-- The token of an unquoted word: one of the three names or a number. -/
def wordToken? (characters : List Char) : Option Token :=
  match String.ofList characters with
  | "null" => some (.scalar .null)
  | "true" => some (.scalar (.bool true))
  | "false" => some (.scalar (.bool false))
  | _ => (JsonNumber.Parts.ofText? characters).map fun parts =>
    match parts.value? with
    | some value => .scalar (.number value)
    | none => .valueless false

/-- The token of a text. -/
def textToken (collected : Option (List Char)) : Token :=
  match collected with
  | some collected => .scalar (.string (String.ofList collected.reverse))
  | none => .valueless true

/-- The value of a hexadecimal digit. -/
def hexDigit? (character : Char) : Option Nat :=
  if character.isDigit then some (character.toNat - '0'.toNat)
  else if 'a' ≤ character && character ≤ 'f' then some (character.toNat - 'a'.toNat + 10)
  else if 'A' ≤ character && character ≤ 'F' then some (character.toNat - 'A'.toNat + 10)
  else none

/-- The value of some hexadecimal digits. -/
def hexValue? (digits : List Char) : Option Nat :=
  digits.foldlM (fun value digit => (hexDigit? digit).map (16 * value + ·)) 0

/-- The character of a one letter escape. -/
def shortEscape? (character : Char) : Option Char :=
  match character with
  | '"' => some '"'
  | '\\' => some '\\'
  | '/' => some '/'
  | 'b' => some '\x08'
  | 'f' => some '\x0c'
  | 'n' => some '\n'
  | 'r' => some '\r'
  | 't' => some '\t'
  | _ => none

/-- What follows a complete code unit: a character, or the wait for the second half of a pair. A
half without the other leaves the text without value. -/
def afterCodeUnit (collected : Option (List Char)) (high : Option Nat) (unit : Nat) : ScanState :=
  let isLow := 0xDC00 ≤ unit && unit ≤ 0xDFFF
  match high with
  | some high =>
    if isLow then
      let character := Char.ofNat (0x10000 + (high - 0xD800) * 0x400 + (unit - 0xDC00))
      .text (collected.map (character :: ·))
    else .text none
  | none =>
    if 0xD800 ≤ unit && unit ≤ 0xDBFF then .afterHigh collected unit
    else if isLow then .text none
    else .text (collected.map (Char.ofNat unit :: ·))

/-- Starts over after a token: the character is skipped, is a token, or begins one. -/
def beginToken (tokens : List Token) (character : Char) : ScanState × List Token :=
  if isSpace character then (.between, tokens)
  else if character = '"' then (.text (some []), tokens)
  else match punctuation? character with
    | some token => (.between, token :: tokens)
    | none => (.word [character], tokens)

/-- Ends a word that was collected in reverse. -/
def endWord (collected : List Char) (tokens : List Token) : Option (List Token) :=
  (wordToken? collected.reverse).map (· :: tokens)

/-- Takes a character of a text. -/
def textStep (collected : Option (List Char)) (tokens : List Token) (character : Char) :
    Option (ScanState × List Token) :=
  if character = '"' then some (.between, textToken collected :: tokens)
  else if character = '\\' then some (.escape collected, tokens)
  else if character.toNat < 0x20 then none
  else some (.text (collected.map (character :: ·)), tokens)

/-- Takes the letter of an escape. -/
def escapeStep (collected : Option (List Char)) (tokens : List Token) (character : Char) :
    Option (ScanState × List Token) :=
  if character = 'u' then some (.codeUnit collected none [], tokens)
  else (shortEscape? character).map fun escaped =>
    (.text (collected.map (escaped :: ·)), tokens)

/-- Takes one character. -/
def scanStep (state : ScanState × List Token) (character : Char) :
    Option (ScanState × List Token) :=
  let (state, tokens) := state
  match state with
  | .between => some (beginToken tokens character)
  | .word collected =>
    if isSpace character || character = '"' || (punctuation? character).isSome then
      (endWord collected tokens).map fun tokens => beginToken tokens character
    else some (.word (character :: collected), tokens)
  | .text collected => textStep collected tokens character
  | .escape collected => escapeStep collected tokens character
  | .codeUnit collected high digits => do
    let digits := digits ++ [character]
    let unit ← hexValue? digits
    if digits.length < 4 then some (.codeUnit collected high digits, tokens)
    else some (afterCodeUnit collected high unit, tokens)
  | .afterHigh collected high =>
    if character = '\\' then some (.afterHighEscape collected high, tokens)
    else textStep none tokens character
  | .afterHighEscape collected high =>
    if character = 'u' then some (.codeUnit collected (some high) [], tokens)
    else escapeStep none tokens character

/-- The tokens of a text. -/
def tokens? (text : String) : Option (List Token) := do
  let (state, tokens) ← text.toList.foldlM scanStep (.between, [])
  match state with
  | .between => some tokens.reverse
  | .word collected => (endWord collected tokens).map List.reverse
  | _ => none

/-! ### Documents -/

/-- An array or object that is still open, its content in reverse. -/
inductive Frame where
  | array (elements : List Json)
  | object (members : List (String × Json))
  | member (members : List (String × Json)) (key : String)

/-- What the machine waits for. -/
inductive Expectation where
  | value
  | elementOrClose
  | keyOrClose
  | key
  | colon
  | commaOrClose
  | done (value : Json)

/-- Arrays and objects nest at most this deep. -/
def depthLimit : Nat := 127

/-- Hands a complete value to the innermost open array or object. -/
def complete (stack : List Frame) (value : Json) : Option (List Frame × Expectation) :=
  match stack with
  | [] => some ([], .done value)
  | .array elements :: rest => some (.array (value :: elements) :: rest, .commaOrClose)
  | .member members key :: rest => some (.object ((key, value) :: members) :: rest, .commaOrClose)
  | .object _ :: _ => none

/-- Which parts of a document are passed over, told by what is open. -/
abbrev Unread := List Frame → Bool

/-- Opens an array or object, unless too many are open already. -/
def openFrame (unread : Unread) (stack : List Frame) (frame : Frame) (expectation : Expectation) :
    Option (List Frame × Expectation) :=
  if unread stack || stack.length < depthLimit then some (frame :: stack, expectation) else none

/-- Takes the first token of a value. -/
def beginValue (unread : Unread) (stack : List Frame) : Token → Option (List Frame × Expectation)
  | .openArray => openFrame unread stack (.array []) .elementOrClose
  | .openObject => openFrame unread stack (.object []) .keyOrClose
  | .scalar value => complete stack value
  | .valueless _ => if unread stack then complete stack .null else none
  | _ => none

/-- Closes the innermost array. -/
def closeArray (stack : List Frame) : Option (List Frame × Expectation) :=
  match stack with
  | .array elements :: rest => complete rest (.array elements.reverse)
  | _ => none

/-- Closes the innermost object. -/
def closeObject (stack : List Frame) : Option (List Frame × Expectation) :=
  match stack with
  | .object members :: rest => complete rest (.object members.reverse)
  | _ => none

/-- Takes the key of a member. -/
def beginMember (unread : Unread) (stack : List Frame) (token : Token) :
    Option (List Frame × Expectation) :=
  match stack, token with
  | .object members :: rest, .scalar (.string key) => some (.member members key :: rest, .colon)
  | .object members :: rest, .valueless true =>
    if unread rest then some (.member members "" :: rest, .colon) else none
  | _, _ => none

/-- Takes one token. -/
def parseStep (unread : Unread) (state : List Frame × Expectation) (token : Token) :
    Option (List Frame × Expectation) :=
  let (stack, expectation) := state
  match expectation, token with
  | .value, token => beginValue unread stack token
  | .elementOrClose, .closeArray => closeArray stack
  | .elementOrClose, token => beginValue unread stack token
  | .keyOrClose, .closeObject => closeObject stack
  | .keyOrClose, token => beginMember unread stack token
  | .key, token => beginMember unread stack token
  | .colon, .colon => some (stack, .value)
  | .commaOrClose, .comma =>
    match stack with
    | .array _ :: _ => some (stack, .value)
    | _ => some (stack, .key)
  | .commaOrClose, .closeArray => closeArray stack
  | .commaOrClose, .closeObject => closeObject stack
  | _, _ => none

/-- Reads a text as it is written, with the members of objects in their order and duplicates
kept, and passes over some parts. -/
def written? (unread : Unread) (text : String) : Option Json := do
  let tokens ← tokens? text
  let (_, expectation) ← tokens.foldlM (parseStep unread) ([], .value)
  match expectation with
  | .done value => some value
  | _ => none

/-- The members of the outermost object that have none of the given keys. -/
def otherThan (keys : List String) : Unread := fun stack =>
  match stack.getLast? with
  | some (.member _ key) => !keys.contains key
  | _ => false

/-- Reads a text into canonical form. -/
def parse? (text : String) : Option Json :=
  (written? (fun _ => false) text).map canonical

end ShapeQuery.Json
