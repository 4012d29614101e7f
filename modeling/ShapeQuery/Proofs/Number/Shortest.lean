/-
This file proves how far a natural number that takes all of 64 bits is off once it has gone through
a floating point number and the shortest decimal of that. The floating point numbers are 2048 apart
there, so that each of the two steps moves the number by 1024 at most. Half of a thousand is less, so
that the shortest decimal is found among the multiples of a thousand at the latest, and is whole.
-/
import Mathlib.Algebra.Order.Ring.Nat
import ShapeQuery.Number.Layout

namespace ShapeQuery.Number

/-! ### Whole decimals -/

namespace Decimal

/-- The natural number that a decimal without a fraction stands for. -/
def whole (decimal : Decimal) : Nat :=
  decimal.coefficient * tenTo decimal.exponent.toNat

/-- Trailing zeros of the coefficient go to the exponent. -/
theorem whole_dropZeros {decimal : Decimal} (integral : 0 ≤ decimal.exponent) (limit : Nat) :
    0 ≤ (decimal.dropZeros limit).exponent ∧ (decimal.dropZeros limit).whole = decimal.whole := by
  induction limit generalizing decimal with
  | zero => exact ⟨integral, rfl⟩
  | succ limit inductionHypothesis =>
    rw [dropZeros]
    split
    · rename_i trailing
      have more : 0 ≤ decimal.exponent + 1 := by omega
      obtain ⟨positive, same⟩ :=
        @inductionHypothesis ⟨decimal.coefficient / 10, decimal.exponent + 1⟩ more
      refine ⟨positive, same.trans ?_⟩
      have next : (decimal.exponent + 1).toNat = decimal.exponent.toNat + 1 := by omega
      have tenth : decimal.coefficient / 10 * 10 = decimal.coefficient :=
        Nat.div_mul_cancel (Nat.dvd_of_mod_eq_zero trailing)
      show decimal.coefficient / 10 * 10 ^ (decimal.exponent + 1).toNat =
        decimal.coefficient * 10 ^ decimal.exponent.toNat
      rw [next, Nat.pow_succ', ← Nat.mul_assoc, tenth]
    · exact ⟨integral, rfl⟩

/-- A decimal without a fraction is written as its digits with zeros after them. -/
theorem toList_plain {decimal : Decimal} (integral : 0 ≤ decimal.exponent) :
    decimal.plain.toList = decimal.digits ++ List.replicate decimal.exponent.toNat '0' := by
  have first : 0 < decimal.digits.length := List.length_pos_iff.2 Nat.toDigits_ne_nil
  have none : (-decimal.exponent).toNat = 0 := Int.toNat_of_nonpos (by omega)
  have padding : 0 + 1 - (decimal.digits ++ List.replicate decimal.exponent.toNat '0').length =
      0 := by
    rw [List.length_append]
    omega
  rw [plain, none, pointed, if_pos rfl, padding, List.replicate_zero, List.nil_append,
    String.toList_ofList]

end Decimal

/-! ### Neighbourhoods -/

namespace Neighbourhood

variable {near : Neighbourhood} {tie : Tie}

/-- A whole decimal that is contained lies between the ends. -/
theorem bounds_of_contains {decimal : Decimal} (integral : 0 ≤ decimal.exponent)
    (contained : near.contains decimal = true) :
    near.low ≤ decimal.whole * near.denominator ∧
      decimal.whole * near.denominator ≤ near.high := by
  have unit : tenTo (-decimal.exponent).toNat = 1 := by
    rw [Int.toNat_of_nonpos (by omega)]
    rfl
  unfold contains at contained
  rw [unit] at contained
  simp only [Nat.mul_one] at contained
  split at contained
  · simpa [Decimal.whole] using contained
  · rw [Bool.and_eq_true, decide_eq_true_iff, decide_eq_true_iff] at contained
    exact ⟨Nat.le_of_lt contained.1, Nat.le_of_lt contained.2⟩

theorem hit?_eq_some {exponent : Int} {decimal : Decimal}
    (hit : near.hit? tie exponent = some decimal) :
    decimal.exponent = exponent ∧ near.contains decimal = true := by
  unfold hit? at hit
  refine ⟨?_, List.find?_some hit⟩
  have member := List.mem_of_find?_eq_some hit
  split at member <;> simp only [List.mem_cons, List.not_mem_nil, or_false] at member <;>
    rcases member with rfl | rfl <;> rfl

/-- A whole decimal between the ends is contained. -/
theorem contains_of_lt {decimal : Decimal} (integral : 0 ≤ decimal.exponent)
    (low : near.low < decimal.whole * near.denominator)
    (high : decimal.whole * near.denominator < near.high) : near.contains decimal = true := by
  have unit : tenTo (-decimal.exponent).toNat = 1 := by
    rw [Int.toNat_of_nonpos (by omega)]
    rfl
  unfold contains
  rw [unit]
  simp only [Nat.mul_one]
  split <;> rw [Bool.and_eq_true, decide_eq_true_iff, decide_eq_true_iff]
  · exact ⟨Nat.le_of_lt low, Nat.le_of_lt high⟩
  · exact ⟨low, high⟩

/-- On a grid that is finer than the neighbourhood, a neighbour of the value is hit. -/
theorem exists_hit (tie : Tie) (places : Nat) (integral : near.denominator = 1)
    (below : 2 * near.low + tenTo places < 2 * near.value)
    (above : 2 * near.value + tenTo places < 2 * near.high) :
    ∃ decimal, near.hit? tie places = some decimal := by
  let lower : Decimal := ⟨near.value / tenTo places, places⟩
  let upper : Decimal := ⟨near.value / tenTo places + 1, places⟩
  have split := Nat.div_add_mod' near.value (tenTo places)
  have rest := Nat.mod_lt near.value (show 0 < tenTo places from Nat.pow_pos (by decide))
  have inside (coefficient : Nat) (low : near.low < coefficient * tenTo places)
      (high : coefficient * tenTo places < near.high) :
      near.contains ⟨coefficient, places⟩ = true := by
    have whole : Decimal.whole ⟨coefficient, places⟩ = coefficient * tenTo places := rfl
    refine contains_of_lt (Int.natCast_nonneg places) ?_ ?_ <;>
      rwa [whole, integral, Nat.mul_one]
  have nearer : near.contains lower = true ∨ near.contains upper = true := by
    by_cases close : 2 * (near.value % tenTo places) ≤ tenTo places
    · exact .inl (inside _ (by omega) (by omega))
    · refine .inr (inside _ ?_ ?_) <;> rw [Nat.add_mul, Nat.one_mul] <;> omega
  have point : near.value * tenTo (-(places : Int)).toNat = near.value := by
    rw [Int.toNat_neg_natCast]
    exact Nat.mul_one _
  have unit : near.denominator * tenTo (places : Int).toNat = tenTo places := by
    rw [integral, Nat.one_mul, Int.toNat_natCast]
  rw [← Option.isSome_iff_exists, hit?, point, unit, List.find?_isSome]
  rcases nearer with contained | contained
  · refine ⟨lower, ?_, contained⟩
    split <;> simp [lower]
  · refine ⟨upper, ?_, contained⟩
    split <;> simp [upper]

end Neighbourhood

/-! ### Shortest decimals -/

/-- From seventeen digits on, the shortest decimal of a number is whole and stands in the
neighbourhood of the number, if that is wider than a unit of the last of seventeen digits. -/
theorem shortest_within {significand : Nat} {exponent : Int} {near : Neighbourhood}
    (tie : Tie) (places : Nat) (around : Neighbourhood.around significand exponent = near)
    (integral : near.denominator = 1) (few : places ≤ 16) (long : tenTo 16 ≤ near.value)
    (short : near.value < tenTo (places + 17))
    (below : 2 * near.low + tenTo places < 2 * near.value)
    (above : 2 * near.value + tenTo places < 2 * near.high) :
    0 ≤ (shortest tie significand exponent).exponent ∧
      near.low ≤ (shortest tie significand exponent).whole ∧
      (shortest tie significand exponent).whole ≤ near.high := by
  have positive : significand ≠ 0 := by
    rintro rfl
    rw [← around] at long
    exact absurd long (by simp [Neighbourhood.around, tenTo])
  let size := (Nat.toDigits 10 near.value).length
  have leading : floorLog10 near.value near.denominator = size - 1 := by
    have whole : 1 ≤ near.value := Nat.le_trans (by decide) long
    rw [floorLog10, integral, if_pos whole, Nat.div_one]
  have many : 16 < size :=
    Nat.not_le.1 fun few => Nat.not_lt.2 long
      ((Nat.length_toDigits_le_iff (by decide) (by decide)).1 few)
  have most : size ≤ places + 17 :=
    (Nat.length_toDigits_le_iff (by decide) (Nat.succ_pos _)).2 short
  -- The grid of `places` is among the seventeen that are tested, so that some grid has a hit.
  obtain ⟨decimal, hit⟩ := near.exists_hit tie places integral below above
  have tested : ((List.range 17).findSome? fun (further : Nat) =>
      near.hit? tie (size - 1 - further)).isSome = true := by
    rw [List.findSome?_isSome_iff]
    refine ⟨size - 1 - places, List.mem_range.2 (by omega), ?_⟩
    have grid : (size : Int) - 1 - (size - 1 - places : Nat) = places := by omega
    rw [grid, hit]
    rfl
  obtain ⟨found, first⟩ := Option.isSome_iff_exists.1 tested
  obtain ⟨further, among, hit⟩ := List.exists_of_findSome?_eq_some first
  obtain ⟨same, contained⟩ := Neighbourhood.hit?_eq_some hit
  have whole : 0 ≤ found.exponent := by
    have := List.mem_range.1 among
    omega
  obtain ⟨kept, unchanged⟩ := Decimal.whole_dropZeros whole 17
  obtain ⟨low, high⟩ := Neighbourhood.bounds_of_contains whole contained
  rw [integral, Nat.mul_one] at low high
  simp only [shortest, if_neg positive, around, leading, first, Option.getD_some]
  exact ⟨kept, unchanged ▸ low, unchanged ▸ high⟩

/-! ### Numbers of 64 bits -/

/-- A rounded quotient is off by half a unit at most. -/
theorem nearest_within (numerator : Nat) {denominator : Nat} (positive : 0 < denominator) :
    2 * numerator ≤ 2 * (nearest numerator denominator * denominator) + denominator ∧
      2 * (nearest numerator denominator * denominator) ≤ 2 * numerator + denominator := by
  have split := Nat.div_add_mod' numerator denominator
  have rest := Nat.mod_lt numerator positive
  simp only [nearest]
  split_ifs with down up
  · omega
  · rw [Nat.add_mul, Nat.one_mul]
    omega
  · rcases Nat.mod_two_eq_zero_or_one (numerator / denominator) with even | odd
    · rw [even, Nat.add_zero]
      omega
    · rw [odd, Nat.add_mul, Nat.one_mul]
      omega

/-- A number that takes all of 64 bits is rounded to a multiple of 2048. -/
theorem Binary64.ofRatio_of_wide {value : Nat} (wide : twoTo 63 ≤ value)
    (bounded : value < twoTo 64) (negative : Bool) :
    ∃ significand, twoTo 52 ≤ significand ∧ significand ≤ twoTo 53 ∧
      value ≤ significand * 2048 + 1024 ∧ significand * 2048 ≤ value + 1024 ∧
      ofRatio negative value 1 =
        if significand = twoTo 53 then .finite negative (twoTo 52) 12
        else .finite negative significand 11 := by
  have least : twoTo 63 = twoTo 52 * 2048 := rfl
  have greatest : twoTo 64 = twoTo 53 * 2048 := rfl
  have positive : value ≠ 0 := Nat.ne_of_gt (Nat.lt_of_lt_of_le (by decide) wide)
  have bits : floorLog2 value 1 = 63 := by
    have log : value.log2 = 63 := (Nat.log2_eq_iff positive).2 ⟨wide, bounded⟩
    rw [floorLog2, log, if_pos]
    · rfl
    · exact (Nat.one_mul _).trans_le (wide.trans_eq (Nat.mul_one _).symm)
  obtain ⟨near, nearer⟩ := nearest_within value (show 0 < 2048 by decide)
  refine ⟨nearest value 2048, by omega, by omega, by omega, by omega, ?_⟩
  have scaled : nearest (value * twoTo (-11 : Int).toNat) (1 * twoTo (11 : Int).toNat) =
      nearest value 2048 := by
    rw [Nat.one_mul]
    exact congrArg (nearest · 2048) (Nat.mul_one value)
  have exponent : max (floorLog2 value 1 - 52) leastExponent = 11 := by
    rw [bits]
    rfl
  simp only [ofRatio, if_neg positive, exponent, scaled]
  split_ifs with carried overflow overflow
  · exact absurd overflow (by decide)
  · rfl
  · exact absurd overflow (by decide)
  · rfl

/-- A number that takes all of 64 bits is written as a whole decimal, which is off by 2048 at
most. -/
theorem Binary64.plainText_of_wide {value : Nat} (wide : twoTo 63 ≤ value)
    (bounded : value < twoTo 64) (negative : Bool) :
    ∃ decimal : Decimal, 0 ≤ decimal.exponent ∧
      (ofRatio negative value 1).plainText = signText negative ++ decimal.plain ∧
      value ≤ decimal.whole + 2048 ∧ decimal.whole ≤ value + 2048 := by
  obtain ⟨significand, least, greatest, low, high, rounded⟩ :=
    ofRatio_of_wide wide bounded negative
  rw [rounded]
  by_cases carried : significand = twoTo 53
  · have found : shortest .upwards (twoTo 52) 12 = ⟨18446744073709552, 3⟩ := by decide +kernel
    have top : twoTo 53 = 9007199254740992 := rfl
    have whole : (Decimal.mk 18446744073709552 3).whole = 18446744073709552000 := rfl
    refine ⟨⟨18446744073709552, 3⟩, by decide, ?_, by omega, by omega⟩
    rw [if_pos carried, plainText, found]
  · rw [if_neg carried]
    refine ⟨shortest .upwards significand 11, ?_⟩
    have bottom : twoTo 52 = 4503599627370496 := rfl
    have top : twoTo 53 = 9007199254740992 := rfl
    have few : tenTo 16 = 10000000000000000 := rfl
    have many : tenTo (3 + 17) = 100000000000000000000 := rfl
    have unit : tenTo 3 = 1000 := rfl
    obtain ⟨near, around⟩ : ∃ near, Neighbourhood.around significand 11 = near := ⟨_, rfl⟩
    have scale : twoTo ((11 : Int) - 2).toNat = 512 := rfl
    have value : near.value = significand * 2048 := by
      simp only [← around, Neighbourhood.around, scale]
      omega
    have above : near.high = significand * 2048 + 1024 := by
      simp only [← around, Neighbourhood.around, scale]
      omega
    -- The neighbour below a power of two is nearer, but not so near as half of a thousand.
    have below : significand * 2048 ≤ near.low + 1024 ∧ near.low + 512 ≤ significand * 2048 := by
      simp only [← around, Neighbourhood.around, scale]
      split <;> omega
    have integral : near.denominator = 1 := around ▸ rfl
    obtain ⟨whole, floor, ceiling⟩ := shortest_within .upwards 3 around integral (by decide)
      (by omega) (by omega) (by omega) (by omega)
    exact ⟨whole, rfl, by omega, by omega⟩

end ShapeQuery.Number
