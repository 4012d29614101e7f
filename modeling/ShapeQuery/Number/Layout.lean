/-
This file writes numbers as text: positionally with the fewest digits, positionally with a fixed
number of decimal places, and in scientific notation.
-/
import ShapeQuery.Number.Shortest

namespace ShapeQuery.Number

/-- A minus sign for a negative number, the sign of a negative zero included. -/
def signText (negative : Bool) : String :=
  if negative then "-" else ""

/-- Digits with a decimal point before the last `places` of them. -/
def pointed (digits : List Char) (places : Nat) : String :=
  let digits := List.replicate (places + 1 - digits.length) '0' ++ digits
  let split := digits.length - places
  if places = 0 then String.ofList digits
  else String.ofList (digits.take split ++ '.' :: digits.drop split)

/-- A decimal without an exponent: a whole number has no point. -/
def Decimal.plain (decimal : Decimal) : String :=
  pointed (decimal.digits ++ List.replicate decimal.exponent.toNat '0') (-decimal.exponent).toNat

/-- A decimal with one digit before the point and a signed exponent. -/
def Decimal.scientific (decimal : Decimal) : String :=
  let fraction := decimal.digits.drop 1
  let point := if fraction.isEmpty then "" else "."
  let sign := if decimal.magnitude < 0 then "-" else "+"
  String.ofList (decimal.digits.take 1) ++ point ++ String.ofList fraction ++ "e" ++ sign
    ++ toString decimal.magnitude.natAbs

namespace Binary64

/-- The fewest digits that read back, never with an exponent. A tie goes upwards. -/
def plainText : Binary64 → String
  | .finite negative significand exponent =>
    signText negative ++ (shortest .upwards significand exponent).plain
  | .infinite negative => signText negative ++ "inf"
  | .notANumber => "NaN"

/-- The exact value rounded to a number of decimal places. -/
def fixedText (places : Nat) : Binary64 → String
  | .finite negative significand exponent =>
    let scaled := nearest (significand * twoTo exponent.toNat * tenTo places)
      (twoTo (-exponent).toNat)
    signText negative ++ pointed (Nat.toDigits 10 scaled) places
  | .infinite negative => signText negative ++ "inf"
  | .notANumber => "NaN"

/-- The number of decimal places of the plain text. -/
def decimalPlaces : Binary64 → Nat
  | .finite _ significand exponent => (-(shortest .upwards significand exponent).exponent).toNat
  | _ => 0

/-- The fewest digits that read back: positional with at least one decimal place when the leading
digit stands between `10 ^ -5` and `10 ^ 15`, scientific otherwise. A tie goes to the even digit. -/
def jsonText : Binary64 → String
  | .finite negative significand exponent =>
    let decimal := shortest .toEven significand exponent
    let body :=
      if decimal.coefficient = 0 then "0.0"
      else if decimal.magnitude < -5 || 16 ≤ decimal.magnitude then decimal.scientific
      else if 0 ≤ decimal.exponent then decimal.plain ++ ".0"
      else decimal.plain
    signText negative ++ body
  | _ => "null"

end Binary64

end ShapeQuery.Number
