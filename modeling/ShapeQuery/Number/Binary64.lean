/-
This file defines the floating point numbers of 64 bits as exact values, and the rounding of a
ratio of natural numbers to the nearest of them.

A finite number is `significand * 2 ^ exponent`, with a significand below `2 ^ 53` and an
exponent of at least `-1074`; above that least exponent the significand is at least `2 ^ 52`, so
that every number is written in one way. All arithmetic is done on natural numbers and rounded
once, to nearest, a tie going to the even significand.
-/

namespace ShapeQuery.Number

/-! ### Powers -/

/-- A power of two. -/
def twoTo (exponent : Nat) : Nat :=
  Nat.pow 2 exponent

/-- A power of ten. -/
def tenTo (exponent : Nat) : Nat :=
  Nat.pow 10 exponent

/-! ### Numbers -/

/-- A binary floating point number of 64 bits. -/
inductive Binary64 where
  | finite (negative : Bool) (significand : Nat) (exponent : Int)
  | infinite (negative : Bool)
  | notANumber
deriving DecidableEq, Inhabited

/-- The natural number nearest to a quotient, the even one of two equally near. -/
def nearest (numerator denominator : Nat) : Nat :=
  let quotient := numerator / denominator
  let rest := numerator % denominator
  if 2 * rest < denominator then quotient
  else if denominator < 2 * rest then quotient + 1
  else quotient + quotient % 2

/-- The greatest `n` with `2 ^ n ≤ numerator / denominator`, for positive arguments. -/
def floorLog2 (numerator denominator : Nat) : Int :=
  let guess : Int := (numerator.log2 : Int) - denominator.log2
  if denominator * twoTo guess.toNat ≤ numerator * twoTo (-guess).toNat then guess else guess - 1

namespace Binary64

/-- The least exponent of a finite number. -/
def leastExponent : Int := -1074

/-- The greatest exponent of a finite number. -/
def greatestExponent : Int := 971

/-- The number nearest to `numerator / denominator`, infinite beyond the finite range. -/
def ofRatio (negative : Bool) (numerator denominator : Nat) : Binary64 :=
  if numerator = 0 then .finite negative 0 leastExponent
  else
    let exponent := max (floorLog2 numerator denominator - 52) leastExponent
    let significand :=
      nearest (numerator * twoTo (-exponent).toNat) (denominator * twoTo exponent.toNat)
    let carried := significand = twoTo 53
    let exponent := if carried then exponent + 1 else exponent
    let significand := if carried then twoTo 52 else significand
    if greatestExponent < exponent then .infinite negative
    else .finite negative significand exponent

/-- The number nearest to a natural number. -/
def ofNat (value : Nat) : Binary64 :=
  ofRatio false value 1

/-- The number nearest to an integer. -/
def ofInt (value : Int) : Binary64 :=
  ofRatio (value < 0) value.natAbs 1

/-- The number nearest to `coefficient * 10 ^ exponent`. Exponents that put the value far outside
the range are decided without computing the power. -/
def ofDecimal (negative : Bool) (coefficient : Nat) (exponent : Int) : Binary64 :=
  let magnitude : Int := (Nat.toDigits 10 coefficient).length + exponent
  if coefficient = 0 then ofRatio negative 0 1
  else if 400 < magnitude then .infinite negative
  else if magnitude < -400 then ofRatio negative 0 1
  else ofRatio negative (coefficient * tenTo exponent.toNat) (tenTo (-exponent).toNat)

/-- The rounded product of a number and a power of ten that is itself rounded first. -/
def timesPowerOfTen (number : Binary64) (power : Nat) : Binary64 :=
  match number, ofNat (tenTo power) with
  | .finite negative significand exponent, .finite _ factor shift =>
    let exponent := exponent + shift
    ofRatio negative (significand * factor * twoTo exponent.toNat) (twoTo (-exponent).toNat)
  | _, _ => number

/-- The rounded quotient of a number and a power of ten that is itself rounded first. -/
def overPowerOfTen (number : Binary64) (power : Nat) : Binary64 :=
  match number, ofNat (tenTo power) with
  | .finite negative significand exponent, .finite _ divisor shift =>
    let exponent := exponent - shift
    ofRatio negative (significand * twoTo exponent.toNat) (divisor * twoTo (-exponent).toNat)
  | _, _ => number

/-- Whether the number is neither infinite nor undefined. -/
def isFinite : Binary64 → Bool
  | .finite .. => true
  | _ => false

/-- Whether the number is a zero of either sign. -/
def isZero : Binary64 → Bool
  | .finite _ 0 _ => true
  | _ => false

end Binary64

end ShapeQuery.Number
