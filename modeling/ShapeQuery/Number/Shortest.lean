/-
This file finds the shortest decimal that reads back as a given floating point number.

The decimals that read back as a number are those of an interval around it: half the distance to
each neighbour, with both ends included exactly when the significand is even. For one digit, then
two, and so on, the two neighbours of the number on that decimal grid are tested; the first grid
with a hit wins, and of two hits the nearer; the output format says which of two equally near ones
it takes. Seventeen digits always suffice.
-/
import ShapeQuery.Number.Binary64

namespace ShapeQuery.Number

/-- The decimal `coefficient * 10 ^ exponent`. -/
structure Decimal where
  coefficient : Nat
  exponent : Int
deriving DecidableEq, Inhabited

namespace Decimal

/-- The digits of the coefficient, most significant first. -/
def digits (decimal : Decimal) : List Char :=
  Nat.toDigits 10 decimal.coefficient

/-- The exponent of the leading digit. -/
def magnitude (decimal : Decimal) : Int :=
  decimal.exponent + decimal.digits.length - 1

end Decimal

/-- An interval of positive rationals over one denominator, with the value it surrounds. -/
structure Neighbourhood where
  low : Nat
  value : Nat
  high : Nat
  denominator : Nat
  closed : Bool

/-- The rationals that round to `significand * 2 ^ exponent`, in quarters of the last binary
place: at a power of two the lower neighbour is only half as far away. -/
def Neighbourhood.around (significand : Nat) (exponent : Int) : Neighbourhood :=
  let scale := twoTo (exponent - 2).toNat
  let below := if significand = twoTo 52 ∧ exponent ≠ Binary64.leastExponent then 1 else 2
  { low := (4 * significand - below) * scale
    value := 4 * significand * scale
    high := (4 * significand + 2) * scale
    denominator := twoTo (2 - exponent).toNat
    closed := significand % 2 = 0 }

/-- Whether a decimal lies in the interval. -/
def Neighbourhood.contains (near : Neighbourhood) (decimal : Decimal) : Bool :=
  let point := decimal.coefficient * tenTo decimal.exponent.toNat * near.denominator
  let unit := tenTo (-decimal.exponent).toNat
  if near.closed then near.low * unit ≤ point && point ≤ near.high * unit
  else near.low * unit < point && point < near.high * unit

/-- The greatest `n` with `10 ^ n ≤ numerator / denominator`, for positive arguments. -/
def floorLog10 (numerator denominator : Nat) : Int :=
  if denominator ≤ numerator then (Nat.toDigits 10 (numerator / denominator)).length - 1
  else -((Nat.toDigits 10 ((denominator - 1) / numerator)).length : Int)

/-- Which of two equally near decimals is taken. -/
inductive Tie where
  /-- The one with the even coefficient. -/
  | toEven
  /-- The greater one. -/
  | upwards
deriving DecidableEq

/-- Whether a tie goes to the decimal above a coefficient. -/
def Tie.prefersUpper (tie : Tie) (coefficient : Nat) : Bool :=
  match tie with
  | .toEven => coefficient % 2 = 1
  | .upwards => true

/-- The nearer hit among the two neighbours of the value on the grid of multiples of
`10 ^ exponent`. -/
def Neighbourhood.hit? (near : Neighbourhood) (tie : Tie) (exponent : Int) : Option Decimal :=
  let point := near.value * tenTo (-exponent).toNat
  let unit := near.denominator * tenTo exponent.toNat
  let lower : Decimal := ⟨point / unit, exponent⟩
  let upper : Decimal := ⟨point / unit + 1, exponent⟩
  let rest := point % unit
  let preferUpper := unit < 2 * rest || (unit = 2 * rest && tie.prefersUpper lower.coefficient)
  let candidates := if preferUpper then [upper, lower] else [lower, upper]
  candidates.find? near.contains

/-- Drops trailing zeros of the coefficient, at most `limit` of them. -/
def Decimal.dropZeros (decimal : Decimal) : (limit : Nat) → Decimal
  | 0 => decimal
  | limit + 1 =>
    if decimal.coefficient % 10 = 0 then
      Decimal.dropZeros ⟨decimal.coefficient / 10, decimal.exponent + 1⟩ limit
    else decimal

/-- The shortest decimal that reads back as `significand * 2 ^ exponent`. -/
def shortest (tie : Tie) (significand : Nat) (exponent : Int) : Decimal :=
  if significand = 0 then ⟨0, 0⟩
  else
    let near := Neighbourhood.around significand exponent
    let leading := floorLog10 near.value near.denominator
    let found := (List.range 17).findSome? fun (further : Nat) => near.hit? tie (leading - further)
    (found.getD ⟨0, 0⟩).dropZeros 17

end ShapeQuery.Number
