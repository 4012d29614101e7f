/-
This file reads the numbers of JSON texts. The value of a number with a point, an exponent or too
many digits is found in two rounded steps: the leading digits that fit into 64 bits make the
significand, and the significand is then multiplied or divided by a power of ten.
-/
import ShapeQuery.Json.Value
import ShapeQuery.Number.Numeral

namespace ShapeQuery.JsonNumber

open Number (Binary64 greatestWord digitsValue)

/-- The parts of a number as they are written. -/
structure Parts where
  negative : Bool
  whole : List Char
  fraction : List Char
  exponent : Int
  isInteger : Bool

/-- A nonempty run of digits without a superfluous leading zero. -/
def isWholePart : List Char → Bool
  | [] => false
  | ['0'] => true
  | '0' :: _ => false
  | digits => digits.all Char.isDigit

/-- Splits a number into its parts; nothing if the text is not a JSON number. -/
def Parts.ofText? (characters : List Char) : Option Parts := do
  let (negative, body) := match characters with
    | '-' :: rest => (true, rest)
    | _ => (false, characters)
  let whole := body.takeWhile Char.isDigit
  let afterWhole := body.dropWhile Char.isDigit
  if !isWholePart whole then none
  let (fraction, afterFraction) ← match afterWhole with
    | '.' :: rest =>
      let digits := rest.takeWhile Char.isDigit
      if digits.isEmpty then none else some (digits, rest.dropWhile Char.isDigit)
    | _ => some ([], afterWhole)
  let exponent ← Number.exponent? afterFraction
  some { negative, whole, fraction, exponent, isInteger := afterWhole.isEmpty }

/-- Appends digits to a significand as long as it fits into 64 bits; returns the digits left. -/
def extendSignificand (significand : Nat) : List Char → Nat × List Char
  | [] => (significand, [])
  | digit :: rest =>
    let extended := 10 * significand + (digit.toNat - '0'.toNat)
    if extended ≤ greatestWord then extendSignificand extended rest
    else (significand, digit :: rest)

/-- Scales a number by a power of ten, in steps of at most `10 ^ 308`; nothing if it grows beyond
the range. -/
def scaled? (number : Binary64) (exponent : Int) : Option Binary64 :=
  if exponent.natAbs ≤ 308 then
    let result :=
      if 0 ≤ exponent then number.timesPowerOfTen exponent.natAbs
      else number.overPowerOfTen exponent.natAbs
    if result.isFinite then some result else none
  else if number.isZero then some number
  else if 0 ≤ exponent then none
  else scaled? (number.overPowerOfTen 308) (exponent + 308)
termination_by exponent.natAbs
decreasing_by omega

/-- The value of a number with a point, an exponent or too many digits. -/
def Parts.float? (parts : Parts) : Option Binary64 := do
  let (significand, wholeLeft) := extendSignificand 0 parts.whole
  let (significand, fractionLeft) := extendSignificand significand parts.fraction
  let exponent := (wholeLeft.length : Int) - (parts.fraction.length - fractionLeft.length)
    + parts.exponent
  let magnitude ← scaled? (.ofNat significand) exponent
  match magnitude with
  | .finite _ significand exponent => some (.finite parts.negative significand exponent)
  | other => some other

/-- The value of a number: an integer of 64 bits if it is written as one, but a negative zero is a
floating point number. Numbers beyond the range have none. -/
def Parts.value? (parts : Parts) : Option JsonNumber :=
  let value := digitsValue parts.whole
  if parts.isInteger && !parts.negative && value ≤ greatestWord then some (.integer value)
  else if parts.isInteger && parts.negative && 0 < value && value ≤ Number.twoTo 63 then
    some (.integer (-value))
  else parts.float?.map .float

end ShapeQuery.JsonNumber
