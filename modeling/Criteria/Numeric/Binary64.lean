/-!
# Finite binary floating-point numbers

A double-precision number is kept as sign, significand and binary exponent, so that comparing it
with an integer, rounding a decimal to it and printing it are all exact integer arithmetic.

* `Binary64.ofRatio` rounds a quotient of naturals to the nearest double, a tie to the even
  significand;
* `Binary64.ofDecimal` rounds `digits * 10 ^ exponent` the same way;
* `Binary64.absLe` compares the magnitude with a natural.

Rounding gives up (`none`) exactly where the result would not be finite. The numbers built here
are in normal form: the significand is below `2 ^ 53`, and it is at least `2 ^ 52` unless the
exponent is the least one, `-1074`.
-/

namespace Criteria

/-- The finite double `(-1) ^ negative * significand * 2 ^ exponent`. -/
structure Binary64 where
  /-- The sign, also of zero. -/
  negative : Bool
  /-- The integer significand, below `2 ^ 53`. -/
  significand : Nat
  /-- The power of two the significand is scaled by. -/
  exponent : Int
deriving DecidableEq, Repr, Inhabited

namespace Binary64

/-- The least exponent of a double; every subnormal number has it. -/
def leastExponent : Int := -1074

/-- The greatest exponent of a finite double. -/
def greatestExponent : Int := 971

/-- Zero with the given sign. -/
def zero (negative : Bool) : Binary64 := ⟨negative, 0, leastExponent⟩

/-- The quotient rounded to the nearest natural, a tie to the even one. -/
def roundDiv (num den : Nat) : Nat :=
  let quotient := num / den
  let twice := 2 * (num % den)
  if twice < den then quotient
  else if den < twice then quotient + 1
  else quotient + quotient % 2

/-- The quotient `num / den` divided by `base ^ power`, as a quotient again. -/
def scaleDown (base : Nat) (num den : Nat) (power : Int) : Nat × Nat :=
  if 0 ≤ power then (num, den * base.pow power.toNat) else (num * base.pow (-power).toNat, den)

/-- The floor of the binary logarithm of a positive quotient. -/
def floorLog2 (num den : Nat) : Int :=
  let guess : Int := (num.log2 : Int) - (den.log2 : Int)
  let (n, d) := scaleDown 2 num den guess
  if d ≤ n then guess else guess - 1

/-- The double nearest to `num / den`, a tie to the even significand; `none` if that is not
finite. -/
def ofRatio (negative : Bool) (num den : Nat) : Option Binary64 :=
  if num = 0 then some (zero negative)
  else
    let exponent := max (floorLog2 num den - 52) leastExponent
    let (n, d) := scaleDown 2 num den exponent
    let significand := roundDiv n d
    let carried : Binary64 :=
      if significand = Nat.pow 2 53 then ⟨negative, Nat.pow 2 52, exponent + 1⟩
      else ⟨negative, significand, exponent⟩
    if carried.exponent ≤ greatestExponent then some carried else none

/-- How many decimal digits a natural has. -/
def decimalLength (n : Nat) : Nat := (Nat.toDigits 10 n).length

/-- The double nearest to `digits * 10 ^ exponent`. Magnitudes of `10 ^ 310` and more are not
finite, and those below `10 ^ (-330)` round to zero, so the powers that are computed stay small. -/
def ofDecimal (negative : Bool) (digits : Nat) (exponent : Int) : Option Binary64 :=
  let magnitude : Int := decimalLength digits + exponent
  if digits = 0 then some (zero negative)
  else if 310 < magnitude then none
  else if magnitude < -330 then some (zero negative)
  else
    let (num, den) := scaleDown 10 digits 1 (-exponent)
    ofRatio negative num den

/-- The double nearest to an integer, zero if there is none. -/
def ofInt (i : Int) : Binary64 :=
  (ofRatio (i < 0) i.natAbs 1).getD (zero false)

/-- The magnitude is at most `bound`. -/
def absLe (x : Binary64) (bound : Nat) : Bool :=
  if 0 ≤ x.exponent then decide (x.significand * Nat.pow 2 x.exponent.toNat ≤ bound)
  else decide (x.significand ≤ bound * Nat.pow 2 (-x.exponent).toNat)

end Binary64

end Criteria
