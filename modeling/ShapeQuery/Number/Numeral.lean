/-
This file reads the text of a floating point number: an optional sign, then digits with an
optional point and exponent, or one of the words for infinity and for an undefined number.
-/
import ShapeQuery.Number.Binary64

namespace ShapeQuery.Number

/-- The value of a list of decimal digits. -/
def digitsValue (digits : List Char) : Nat :=
  digits.foldl (fun value digit => 10 * value + (digit.toNat - '0'.toNat)) 0

/-- The digits of a text, when it has no other characters and is not empty. -/
def allDigits? (characters : List Char) : Option Nat :=
  if characters.isEmpty || !characters.all Char.isDigit then none
  else some (digitsValue characters)

/-- A text of an optional plus sign and digits, when its value is at most `bound`. -/
def unsigned? (bound : Nat) (text : String) : Option Nat := do
  let digits := match text.toList with
    | '+' :: rest => rest
    | characters => characters
  let value ← allDigits? digits
  if value ≤ bound then some value else none

/-- The greatest number of 64 bits. -/
def greatestWord : Nat := twoTo 64 - 1

/-- The greatest number of 32 bits. -/
def greatestHalfWord : Nat := twoTo 32 - 1

/-- An exponent: nothing, or the letter `e`, an optional sign and digits. -/
def exponent? : List Char → Option Int
  | [] => some 0
  | mark :: rest =>
    if mark = 'e' || mark = 'E' then
      match rest with
      | '-' :: digits => (allDigits? digits).map fun value => -(value : Int)
      | '+' :: digits => (allDigits? digits).map Int.ofNat
      | digits => (allDigits? digits).map Int.ofNat
    else none

/-- Digits with an optional point and exponent; at least one digit stands before the exponent. -/
def Binary64.ofUnsignedText? (negative : Bool) (characters : List Char) : Option Binary64 := do
  let whole := characters.takeWhile Char.isDigit
  let afterWhole := characters.dropWhile Char.isDigit
  let (fraction, rest) := match afterWhole with
    | '.' :: digits => (digits.takeWhile Char.isDigit, digits.dropWhile Char.isDigit)
    | _ => ([], afterWhole)
  if whole.isEmpty && fraction.isEmpty then none
  else
    let exponent ← exponent? rest
    some (.ofDecimal negative (digitsValue (whole ++ fraction)) (exponent - fraction.length))

/-- A number in any accepted spelling; letters count in either case. -/
def Binary64.ofText? (text : String) : Option Binary64 :=
  let (negative, body) := match text.toList with
    | '-' :: rest => (true, rest)
    | '+' :: rest => (false, rest)
    | characters => (false, characters)
  match String.ofList (body.map Char.toLower) with
  | "inf" => some (.infinite negative)
  | "infinity" => some (.infinite negative)
  | "nan" => some .notANumber
  | _ => Binary64.ofUnsignedText? negative body

end ShapeQuery.Number
