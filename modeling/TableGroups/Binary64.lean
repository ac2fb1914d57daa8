/-!
# Binary floating-point numbers, by their bits

A `Binary64` is the 64 bits of a double-precision number, so that NaN payloads and the sign of
zero are values like any other.  Two relations live on it and must not be confused.  `agrees` is
equality of numbers: a NaN agrees with nothing and the two zeros agree.  `totalCompare` is the
total order in which the numbers are stored: negative numbers below positive ones, `-0` below `0`,
and the NaNs at the two ends, told apart by their payloads.

`totalCompare` compares the natural numbers `rank`, which makes it a total order for free;
`rank_injective` says that it is an order on bit patterns, so that only a number itself compares
equal to it.
-/

namespace TableGroups

/-- A double-precision number, given by its bits. -/
structure Binary64 where
  bits : UInt64
  deriving DecidableEq

namespace Binary64

/-- The largest bit pattern with a clear sign bit, plus one. -/
def signBit : Nat := 0x8000000000000000

/-- Whether the sign bit is set. -/
def isNegative (x : Binary64) : Bool :=
  decide (signBit ≤ x.bits.toNat)

/-- The bits without the sign: exponent and fraction. -/
def magnitude (x : Binary64) : Nat :=
  x.bits.toNat % signBit

/-- The eleven exponent bits. -/
def exponentBits (x : Binary64) : Nat :=
  x.magnitude / 0x10000000000000

/-- The fifty-two fraction bits. -/
def fractionBits (x : Binary64) : Nat :=
  x.magnitude % 0x10000000000000

/-- Whether the exponent is all ones: an infinity or a NaN. -/
def isSpecial (x : Binary64) : Bool :=
  x.exponentBits == 2047

/-- Whether the number is a NaN, whatever its sign and payload. -/
def isNaN (x : Binary64) : Bool :=
  x.isSpecial && x.fractionBits != 0

/-- Whether the number is one of the two zeros. -/
def isZero (x : Binary64) : Bool :=
  x.magnitude == 0

/-- Equality of numbers: no NaN agrees with anything, and the two zeros agree. -/
def agrees (x y : Binary64) : Bool :=
  !x.isNaN && !y.isNaN && ((x.isZero && y.isZero) || x.bits == y.bits)

/-- Place of a number in the total order: a set sign bit counts down from the middle and a clear
one counts up. -/
def rank (x : Binary64) : Nat :=
  if signBit ≤ x.bits.toNat then 2 * signBit - 1 - x.bits.toNat else x.bits.toNat + signBit

/-- The total order of bit patterns that agrees with the order of numbers wherever numbers have
one. -/
def totalCompare (x y : Binary64) : Ordering :=
  compare x.rank y.rank

/-- Different bit patterns have different places. -/
theorem rank_injective {x y : Binary64} (h : x.rank = y.rank) : x = y := by
  have hx := x.bits.toNat_lt
  have hy := y.bits.toNat_lt
  cases x with | mk x =>
  cases y with | mk y =>
  simp only [rank, signBit] at h hx hy
  -- negative numbers have the lower half of the places, and in each half the bits can be read off
  have : x.toNat = y.toNat := by
    by_cases h1 : 0x8000000000000000 ≤ x.toNat <;>
      by_cases h2 : 0x8000000000000000 ≤ y.toNat <;>
      simp only [h1, h2, if_true, if_false] at h <;> omega
  exact congrArg Binary64.mk (UInt64.toNat_inj.mp this)

end Binary64

end TableGroups
