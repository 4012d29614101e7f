/-
This file writes a text between double quotes. The three styles differ only in the characters
they escape: those of RDF literals, those of JSON strings, and those of diagnostic messages,
which also show every invisible character by its code point.
-/
import ShapeQuery.Text.Printable

namespace ShapeQuery.Text

/-- Puts a text between double quotes, each character as the style writes it. -/
def quoted (escape : Char → List Char) (text : String) : String :=
  String.ofList ('"' :: text.toList.flatMap escape ++ ['"'])

/-- A number in hexadecimal, padded with zeros to at least `width` digits. -/
def hexadecimal (width : Nat) (number : Nat) : List Char :=
  let digits := Nat.toDigits 16 number
  List.replicate (width - digits.length) '0' ++ digits

/-- In an RDF literal the named control characters, the quote and the backslash have short
escapes; the other control characters are written with four upper case digits. -/
def escapeLiteral (character : Char) : List Char :=
  match character with
  | '\x08' => ['\\', 'b']
  | '\t' => ['\\', 't']
  | '\n' => ['\\', 'n']
  | '\x0c' => ['\\', 'f']
  | '\r' => ['\\', 'r']
  | '"' => ['\\', '"']
  | '\\' => ['\\', '\\']
  | _ =>
    if character.toNat < 0x20 || character.toNat = 0x7F then
      '\\' :: 'u' :: (hexadecimal 4 character.toNat).map Char.toUpper
    else [character]

/-- In a JSON string the control characters without a short escape are written with four lower
case digits. -/
def escapeJson (character : Char) : List Char :=
  match character with
  | '\x08' => ['\\', 'b']
  | '\t' => ['\\', 't']
  | '\n' => ['\\', 'n']
  | '\x0c' => ['\\', 'f']
  | '\r' => ['\\', 'r']
  | '"' => ['\\', '"']
  | '\\' => ['\\', '\\']
  | _ =>
    if character.toNat < 0x20 then '\\' :: 'u' :: hexadecimal 4 character.toNat
    else [character]

/-- In a diagnostic message an invisible character is written as its code point in braces. -/
def escapeDiagnostic (character : Char) : List Char :=
  match character with
  | '\x00' => ['\\', '0']
  | '\t' => ['\\', 't']
  | '\r' => ['\\', 'r']
  | '\n' => ['\\', 'n']
  | '"' => ['\\', '"']
  | '\\' => ['\\', '\\']
  | _ =>
    if invisible.contains character then
      '\\' :: 'u' :: '{' :: hexadecimal 1 character.toNat ++ ['}']
    else [character]

end ShapeQuery.Text
