/-
This file reads the names of Turtle documents: the labels of blank nodes, and the local parts of
prefixed names, in which characters may be escaped.
-/
import ShapeQuery.Iri.Basic
import ShapeQuery.Text.Basic

namespace ShapeQuery.Rdf.Turtle

/-! ### Character classes -/

/-- The letters that may begin a name. -/
def nameLetters : Text.CodePoints := ⟨
  [(0x41, 0x5A), (0x61, 0x7A), (0xC0, 0xD6), (0xD8, 0xF6), (0xF8, 0x2FF), (0x370, 0x37D),
   (0x37F, 0x1FFF), (0x200C, 0x200D), (0x2070, 0x218F), (0x2C00, 0x2FEF), (0x3001, 0xD7FF),
   (0xF900, 0xFDCF), (0xFDF0, 0xFFFD), (0x10000, 0xEFFFF)]⟩

/-- The further characters of a name. -/
def nameExtras : Text.CodePoints := ⟨
  [(0x2D, 0x2D), (0x30, 0x39), (0x5F, 0x5F), (0xB7, 0xB7), (0x300, 0x36F), (0x203F, 0x2040)]⟩

/-- Whether a character may stand inside a name. -/
def isNameCharacter (character : Char) : Bool :=
  nameLetters.contains character || nameExtras.contains character

/-- Whether a character may begin a label or a local name. -/
def beginsLocal (character : Char) : Bool :=
  nameLetters.contains character || character = '_' || character.isDigit

/-- Whether a character that could spoil an IRI may be escaped in a local part. -/
def isDelimiter (character : Char) : Bool :=
  "/?#@%".toList.contains character

/-- Whether a name character is taken for one that could spoil an IRI: those from U+FFF0 to U+FFFD,
and the multiples of `0xFFFE` and of `0xFFFF`, which stand near the ends of the planes. -/
def isBorderCharacter (character : Char) : Bool :=
  let code := character.toNat
  (0xFFF0 ≤ code && code ≤ 0xFFFD) || code % 0xFFFE = 0 || code % 0xFFFF = 0

/-- Whether a character may be escaped by a backslash in a local part. -/
def isEscapable (character : Char) : Bool :=
  "_~.-!$&'()*+,;=".toList.contains character || isDelimiter character

/-! ### Labels -/

/-- Reads the rest of the label of a blank node. A dot belongs to it if more of the label follows, or
if the document ends with the dot. -/
def labelContent : List Char → List Char × List Char
  | [] => ([], [])
  | character :: rest =>
    let inside := character = '.' && (rest.head?.map isNameCharacter).getD true
    if inside || isNameCharacter character then
      let (text, after) := labelContent rest
      (character :: text, after)
    else ([], character :: rest)

/-! ### Local parts -/

/-- The local part of a prefixed name. -/
structure LocalPart where
  text : String
  /-- Whether the part could spoil the IRI of its name, which is checked then. -/
  isDoubtful : Bool
deriving DecidableEq

/-- One character of a local part, as it is written. -/
inductive LocalUnit where
  | plain (character : Char)
  | percent (first second : Char)
  | escaped (character : Char)

namespace LocalUnit

/-- What a unit stands for. -/
def value : LocalUnit → List Char
  | .plain character => [character]
  | .percent first second => ['%', first, second]
  | .escaped character => [character]

/-- Whether a unit is a dot that is not escaped. -/
def isDot : LocalUnit → Bool
  | .plain character => character = '.'
  | _ => false

/-- Whether a unit is escaped. -/
def isEscaped : LocalUnit → Bool
  | .escaped _ => true
  | _ => false

/-- Whether a unit could spoil an IRI. -/
def isDoubtful : LocalUnit → Bool
  | .plain character => character = ':' || isBorderCharacter character
  | .percent _ _ => false
  | .escaped character => isDelimiter character

end LocalUnit

/-- Reads the units of a local part. -/
def localUnits? : List Char → Option (List LocalUnit × List Char)
  | [] => some ([], [])
  | '%' :: first :: second :: rest =>
    if Iri.isHexDigit first && Iri.isHexDigit second then
      (localUnits? rest).map fun (units, after) => (.percent first second :: units, after)
    else none
  | '\\' :: character :: rest =>
    if isEscapable character then
      (localUnits? rest).map fun (units, after) => (.escaped character :: units, after)
    else none
  | character :: rest =>
    if isNameCharacter character || character = ':' || character = '.' then
      (localUnits? rest).map fun (units, after) => (.plain character :: units, after)
    else if character = '%' || character = '\\' then none
    else some ([], character :: rest)

/-- The local part of some units, which could spoil an IRI if any unit that was read could. -/
def LocalPart.ofUnits (read kept : List LocalUnit) : LocalPart :=
  ⟨String.ofList (kept.flatMap LocalUnit.value), read.any LocalUnit.isDoubtful⟩

/-- Takes the dots from the end of some units. -/
def withoutFinalDots (units : List LocalUnit) : List LocalUnit :=
  (units.reverse.dropWhile LocalUnit.isDot).reverse

/-- The end of a text that takes a given number of bytes. -/
def endOfSize? (size : Nat) : List Char → Option (List Char)
  | [] => if size = 0 then some [] else none
  | character :: rest =>
    if (String.ofList (character :: rest)).utf8ByteSize = size then some (character :: rest)
    else endOfSize? size rest

/-- A local part with an escape that reaches to the end of the document. It ends with its last
escape, less the dots at its end; for each of these the document gets its last byte back. -/
def unendedPart? (units : List LocalUnit) (characters : List Char) :
    Option (LocalPart × List Char) := do
  let kept := (units.reverse.dropWhile fun unit => !unit.isEscaped).reverse
  let part := LocalPart.ofUnits units kept
  let text := (part.text.toList.reverse.dropWhile (· = '.')).reverse
  let after ← endOfSize? (part.text.length - text.length) characters
  some ({ part with text := String.ofList text }, after)

/-- Reads the local part of a prefixed name, which may be empty. Dots at its end do not belong to
it. -/
def localPart? (characters : List Char) : Option (LocalPart × List Char) :=
  let begins := fun (character : Char) =>
    beginsLocal character || character = ':' || character = '%' || character = '\\'
  if (characters.head?.map begins).getD false then do
    let (units, after) ← localUnits? characters
    if after.isEmpty && units.any LocalUnit.isEscaped then unendedPart? units characters
    else
      let kept := withoutFinalDots units
      let dots := List.replicate (units.length - kept.length) '.'
      some (.ofUnits units kept, dots ++ after)
  else some (⟨"", false⟩, characters)

end ShapeQuery.Rdf.Turtle
