/-
This file checks the addresses that stand between square brackets in the host of an IRI: IPv6
addresses, and the addresses of later versions.
-/
import ShapeQuery.Iri.Basic
import ShapeQuery.Number.Numeral
import ShapeQuery.Text.Basic

namespace ShapeQuery.Iri

/-- One to four hexadecimal digits. -/
def isAddressGroup (group : List Char) : Bool :=
  !group.isEmpty && group.length ≤ 4 && group.all isHexDigit

/-- A number below 256 without a superfluous leading zero. -/
def isAddressByte (digits : List Char) : Bool :=
  !digits.isEmpty && digits.length ≤ 3 && digits.all Char.isDigit
    && Number.digitsValue digits < 256 && (digits.length = 1 || digits.head? ≠ some '0')

/-- Four bytes separated by points. -/
def isDottedAddress (text : List Char) : Bool :=
  let bytes := Text.splitOn '.' text
  bytes.length = 4 && bytes.all isAddressByte

/-- The number of groups in a sequence of them; a dotted address at the end counts as two, where
it is allowed. -/
def groupCount? (dottedAllowed : Bool) : List (List Char) → Option Nat
  | [] => some 0
  | [group] =>
    if isAddressGroup group then some 1
    else if dottedAllowed && isDottedAddress group then some 2
    else none
  | group :: rest =>
    if isAddressGroup group then (groupCount? dottedAllowed rest).map (· + 1) else none

/-- The number of groups of a text, where the empty text has none. -/
def textGroupCount? (dottedAllowed : Bool) (text : List Char) : Option Nat :=
  if text.isEmpty then some 0 else groupCount? dottedAllowed (Text.splitOn ':' text)

/-- The texts before and after the first double colon. -/
def splitDoubleColon : List Char → Option (List Char × List Char)
  | [] => none
  | ':' :: ':' :: after => some ([], after)
  | character :: rest =>
    (splitDoubleColon rest).map fun (before, after) => (character :: before, after)

/-- An IPv6 address has eight groups, of which a double colon stands for at least one. -/
def isIpv6Address (text : List Char) : Bool :=
  match splitDoubleColon text with
  | none => textGroupCount? true text = some 8
  | some (before, after) =>
    match textGroupCount? false before, textGroupCount? true after with
    | some leading, some trailing => leading + trailing ≤ 7
    | _, _ => false

/-- The first character that spoils an address of a later version: the letter `v`, hexadecimal
digits, a point, and at least one further character. -/
def futureAddressFault? (text : List Char) : Option Char :=
  let afterLetter := text.drop 1
  let version := afterLetter.takeWhile (· ≠ '.')
  let body := (afterLetter.dropWhile (· ≠ '.')).drop 1
  match version.find? fun character => !isHexDigit character with
  | some character => some character
  | none =>
    if version.isEmpty then some (body.head?.getD ']')
    else if body.isEmpty then some ']'
    else body.find? fun character => !(isPlainAscii character || character = ':')

end ShapeQuery.Iri
