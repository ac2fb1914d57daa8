import TableGroups.Binary64

/-!
# The shortest decimal of a binary number

A finite number stands for an interval of reals, those that round to it; the ends belong to it when
the significand is even.  Its *shortest decimal* is the decimal in that interval with the fewest
digits, and of those with equally few the one nearest the number, the upper one if two are equally
near.

The search is the definition turned into a loop: on the grid of decimals with `n` digits only the
two neighbours of the number can be candidates, and the first `n` for which one of them lies in
the interval wins.  All of it is exact arithmetic on natural numbers.
-/

namespace TableGroups

/-- The decimal `digits * 10 ^ exponent`. -/
structure Decimal where
  digits : Nat
  exponent : Int
  deriving DecidableEq

namespace Binary64

/-- A finite number is, up to its sign, `significand * 2 ^ exponent`. -/
def significand (x : Binary64) : Nat :=
  if x.exponentBits = 0 then x.fractionBits else 0x10000000000000 + x.fractionBits

/-- The power of two that scales the significand. -/
def exponent (x : Binary64) : Int :=
  (max 1 x.exponentBits : Nat) - 1075

/-- Whether the gap to the next number below is half the gap to the next one above. -/
def isNarrowBelow (x : Binary64) : Bool :=
  x.fractionBits == 0 && decide (1 < x.exponentBits)

/-- Exact comparison of `a * 10 ^ i` with `n * 2 ^ j`. -/
def compareScaled (a : Nat) (i : Int) (n : Nat) (j : Int) : Ordering :=
  compare (a * Nat.pow 10 i.toNat * Nat.pow 2 (-j).toNat)
    (n * Nat.pow 2 j.toNat * Nat.pow 10 (-i).toNat)

/-- Whether a decimal rounds to the magnitude of the number.  The ends of the interval are a
quarter or half of a gap away from it. -/
def readsBack (x : Binary64) (d : Decimal) : Bool :=
  let low := 4 * x.significand - (if x.isNarrowBelow then 1 else 2)
  let high := 4 * x.significand + 2
  let fromLow := compareScaled d.digits d.exponent low (x.exponent - 2)
  let fromHigh := compareScaled d.digits d.exponent high (x.exponent - 2)
  if x.significand % 2 = 0 then fromLow != .lt && fromHigh != .gt
  else fromLow == .gt && fromHigh == .lt

/-- The magnitude of the number in units of `10 ^ unit`, rounded down. -/
def unitsBelow (x : Binary64) (unit : Int) : Nat :=
  x.significand * Nat.pow 2 x.exponent.toNat * Nat.pow 10 (-unit).toNat /
    (Nat.pow 10 unit.toNat * Nat.pow 2 (-x.exponent).toNat)

/-- The least power of ten above the magnitude of a nonzero number.  No number is smaller than
`10 ^ -400`. -/
def decimalScale (x : Binary64) : Int :=
  ((Nat.toDigits 10 (x.unitsBelow (-400))).length : Int) - 400

/-- Of the two grid neighbours of the number, the one that reads back; of two, the nearer, and the
upper one of two equally near. -/
def onGrid? (x : Binary64) (unit : Int) : Option Decimal :=
  let below : Decimal := ⟨x.unitsBelow unit, unit⟩
  let above : Decimal := ⟨below.digits + 1, unit⟩
  match x.readsBack below, x.readsBack above with
  | true, true =>
    if compareScaled (below.digits + above.digits) unit (2 * x.significand) x.exponent = .gt then
      some below
    else some above
  | true, false => some below
  | false, true => some above
  | false, false => none

/-- Drop trailing zeros of the digits, at most `fuel` of them. -/
def dropZeros : Nat → Decimal → Decimal
  | 0, d => d
  | fuel + 1, d =>
    if d.digits ≠ 0 ∧ d.digits % 10 = 0 then dropZeros fuel ⟨d.digits / 10, d.exponent + 1⟩ else d

/-- The shortest decimal of the magnitude of a finite, nonzero number.  Seventeen digits always
suffice; what stands in for an unsuccessful search is the number rounded down on the finest
grid. -/
def shortestDecimal (x : Binary64) : Decimal :=
  let scale := x.decimalScale
  let grids := (List.range 17).map fun n => scale - (n + 1 : Nat)
  dropZeros 17 ((grids.findSome? x.onGrid?).getD ⟨x.unitsBelow (scale - 17), scale - 17⟩)

end Binary64

end TableGroups
