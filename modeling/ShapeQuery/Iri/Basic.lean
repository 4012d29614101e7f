/-
This file defines IRIs as texts of their own type, and their character classes.

Most IRIs of a program come from sources that have checked them already; the check itself is in
`ShapeQuery.Iri.Scan`.
-/

namespace ShapeQuery

/-- An IRI. -/
structure Iri where
  text : String
deriving DecidableEq, Inhabited

namespace Iri

/-- The IRI between angle brackets. -/
def bracketed (iri : Iri) : String :=
  "<" ++ iri.text ++ ">"

/-! ### Character classes -/

/-- The letters and digits of ASCII. -/
def isAsciiAlphanumeric (character : Char) : Bool :=
  character.isAlpha || character.isDigit

/-- Whether a character is a hexadecimal digit. -/
def isHexDigit (character : Char) : Bool :=
  character.isDigit || ('a' ≤ character && character ≤ 'f')
    || ('A' ≤ character && character ≤ 'F')

/-- The ASCII characters that stand for themselves everywhere but in a scheme. -/
def isPlainAscii (character : Char) : Bool :=
  isAsciiAlphanumeric character || "!$&'()*+,-.;=_~".toList.contains character

/-- The characters beyond ASCII that stand for themselves. -/
def isPlainBeyondAscii (character : Char) : Bool :=
  let code := character.toNat
  (0xA0 ≤ code && code ≤ 0xD7FF) || (0xF900 ≤ code && code ≤ 0xFDCF)
    || (0xFDF0 ≤ code && code ≤ 0xFFEF)
    || (0x10000 ≤ code && code ≤ 0xDFFFF && code % 0x10000 ≤ 0xFFFD)
    || (0xE1000 ≤ code && code ≤ 0xEFFFD)

/-- The characters that stand for themselves in every component. -/
def isPlain (character : Char) : Bool :=
  isPlainAscii character || isPlainBeyondAscii character

/-- The private use characters that only a query may hold. -/
def isPrivateUse (character : Char) : Bool :=
  let code := character.toNat
  (0xE000 ≤ code && code ≤ 0xF8FF) || (0xF0000 ≤ code && code ≤ 0xFFFFD)
    || (0x100000 ≤ code && code ≤ 0x10FFFD)

/-- The characters of a scheme after its first letter. -/
def isSchemeCharacter (character : Char) : Bool :=
  isAsciiAlphanumeric character || character = '+' || character = '-' || character = '.'

/-- The characters of user information. -/
def isUserCharacter (character : Char) : Bool :=
  isPlain character || character = ':'

/-- The characters of the first segment of a relative path. -/
def isFirstSegmentCharacter (character : Char) : Bool :=
  isPlain character || character = '@'

/-- The characters of a path. -/
def isPathCharacter (character : Char) : Bool :=
  isPlain character || character = ':' || character = '@' || character = '/'

/-- The characters of a fragment. -/
def isFragmentCharacter (character : Char) : Bool :=
  isPathCharacter character || character = '?'

/-- The characters of a query. -/
def isQueryCharacter (character : Char) : Bool :=
  isFragmentCharacter character || isPrivateUse character

end Iri

end ShapeQuery
