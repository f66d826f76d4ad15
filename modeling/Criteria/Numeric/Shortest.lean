import Criteria.Numeric.Binary64

/-!
# The shortest decimal that reads back

A double is printed with the fewest decimal digits that still round to it, and among those with
the digits nearest to its value. The reals that round to `m * 2 ^ q` form an interval whose ends
belong to it exactly when `m` is even. For one digit, two digits and so on up to seventeen, the two
neighbours of the value on that decimal grid are tested against the interval in integer
arithmetic; the first grid with a hit wins. Seventeen digits always suffice.

`Decimal` is the result: a digit string and a scientific exponent. `DecimalLayout` says how such a
result is written, positionally or with an exponent.
-/

namespace Criteria

/-- The decimal `d.ddd * 10 ^ exponent`, where `digits` are the digits without their point. -/
structure Decimal where
  /-- The sign, also of zero. -/
  negative : Bool
  /-- The digits, the first one before the point. -/
  digits : List Char
  /-- The power of ten of the first digit. -/
  exponent : Int
deriving DecidableEq, Repr

namespace Binary64

/-- The reals that round to a positive double, in quarters of its last place: `4 * m` is the value
and the interval reaches from `low` to `high`. Below a power of two the doubles lie twice as
close. -/
structure Interval where
  /-- The value, in quarters of the last place. -/
  value : Nat
  /-- The lower end. -/
  low : Nat
  /-- The upper end. -/
  high : Nat
  /-- Both ends round to the double themselves. -/
  closed : Bool
deriving Repr

/-- The interval of a positive double. -/
def interval (x : Binary64) : Interval where
  value := 4 * x.significand
  low := 4 * x.significand -
    if x.significand = Nat.pow 2 52 ∧ leastExponent < x.exponent then 1 else 2
  high := 4 * x.significand + 2
  closed := x.significand % 2 = 0

/-- The floor of the decimal logarithm of a positive quotient. -/
def floorLog10 (num den : Nat) : Int :=
  let guess : Int := (decimalLength num : Int) - (decimalLength den : Int)
  let (n, d) := scaleDown 10 num den guess
  if d ≤ n then guess else guess - 1

/-- The neighbour of the value on the grid of multiples of `10 ^ power` that lies in the interval
and is nearest to the value, the even one of two equally near; `none` if neither lies in it. -/
def gridPoint (x : Binary64) (power : Int) : Option Nat :=
  let i := x.interval
  let (unitNum, unitDen) := scaleDown 2 1 1 (2 - x.exponent)
  let (num, den) := scaleDown 10 unitNum unitDen power
  let below := i.value * num / den
  let admits (point : Nat) : Bool :=
    if i.closed then i.low * num ≤ point * den ∧ point * den ≤ i.high * num
    else i.low * num < point * den ∧ point * den < i.high * num
  let overshoot := (below + 1) * den - i.value * num
  let undershoot := i.value * num - below * den
  match admits below, admits (below + 1) with
  | true, true =>
    if undershoot < overshoot ∨ (undershoot = overshoot ∧ below % 2 = 0) then some below
    else some (below + 1)
  | true, false => some below
  | false, true => some (below + 1)
  | false, false => none

/-- The grid points tried with `count`, `count + 1`, … digits, at most `fuel` grids. -/
def shortestFrom (x : Binary64) (leading : Int) : (fuel count : Nat) → Option (Nat × Int)
  | 0, _ => none
  | fuel + 1, count =>
    let power := leading - (count : Int) + 1
    match x.gridPoint power with
    | some point =>
      if point = 0 then shortestFrom x leading fuel (count + 1) else some (point, power)
    | none => shortestFrom x leading fuel (count + 1)

/-- The shortest decimal of a double. Zero has the single digit `0`. -/
def shortest (x : Binary64) : Decimal :=
  if x.significand = 0 then ⟨x.negative, ['0'], 0⟩
  else
    let (num, den) := scaleDown 2 x.significand 1 (-x.exponent)
    match x.shortestFrom (floorLog10 num den) 17 1 with
    | none => ⟨x.negative, ['0'], 0⟩
    | some (point, power) =>
      let written := Nat.toDigits 10 point
      let digits := (written.reverse.dropWhile (· = '0')).reverse
      ⟨x.negative, digits, power + (written.length : Int) - 1⟩

end Binary64

/-- How a decimal is written: with a positional point for scientific exponents from
`positionalFrom` up to but without `positionalBelow`, and with an exponent otherwise. -/
structure DecimalLayout where
  /-- The least exponent written positionally. -/
  positionalFrom : Int
  /-- The first exponent that is no longer written positionally. -/
  positionalBelow : Int
  /-- A positive exponent carries a plus sign. -/
  plusSign : Bool
deriving Repr

namespace DecimalLayout

/-- A run of zeros. -/
def zeros (n : Nat) : List Char := List.replicate n '0'

/-- The positional form, with at least one digit on each side of the point. -/
def positional (digits : List Char) (exponent : Int) : List Char :=
  if exponent < 0 then '0' :: '.' :: (zeros (-exponent - 1).toNat ++ digits)
  else
    let whole := exponent.toNat + 1
    let front := digits.take whole ++ zeros (whole - digits.length)
    let back := digits.drop whole
    front ++ '.' :: (if back.isEmpty then ['0'] else back)

/-- The form with an exponent, its point left out behind a single digit. -/
def scientific (layout : DecimalLayout) (digits : List Char) (exponent : Int) : List Char :=
  let sign := if exponent < 0 then ['-'] else if layout.plusSign then ['+'] else []
  let back := digits.drop 1
  digits.take 1 ++ (if back.isEmpty then [] else '.' :: back) ++
    'e' :: (sign ++ Nat.toDigits 10 exponent.natAbs)

/-- A decimal in this layout. -/
def write (layout : DecimalLayout) (x : Decimal) : List Char :=
  let body :=
    if layout.positionalFrom ≤ x.exponent ∧ x.exponent < layout.positionalBelow then
      positional x.digits x.exponent
    else layout.scientific x.digits x.exponent
  if x.negative then '-' :: body else body

end DecimalLayout

end Criteria
