import TableGroups.Binary64
import TableGroups.Json

/-!
# What numerals stand for

A numeral without fraction and exponent stands for an integer if the integer has sixty-four bits,
with or without a sign; minus zero does not count as one.

Every numeral in the range of the floats stands for one, found by floating-point arithmetic: as
many leading digits as fit into sixty-four bits are taken as an integer, which is then multiplied
or divided by a power of ten.  The result can be off the nearest float by a unit in the last place;
what matters is that every reader of a document finds the same one.
-/

namespace TableGroups

namespace Numeral

/-- The number that digits stand for. -/
def value (digits : List Nat) : Nat :=
  digits.foldl (fun n digit => 10 * n + digit) 0

/-- The integer that a numeral stands for. -/
def integer? (numeral : Numeral) : Option Int :=
  let magnitude := value numeral.whole
  match numeral.fraction, numeral.exponent with
  | none, none =>
    if numeral.negative then
      if 0 < magnitude ∧ magnitude ≤ 0x8000000000000000 then some (-magnitude) else none
    else if magnitude < 0x10000000000000000 then some magnitude
    else none
  | _, _ => none

/-- The leading digits before the point that fit into sixty-four bits, appended to `significand`,
and how many were left out behind them. -/
def takeWhole (significand : Nat) : List Nat → Nat × Nat
  | [] => (significand, 0)
  | digit :: rest =>
    let longer := 10 * significand + digit
    if longer < 0x10000000000000000 then takeWhole longer rest else (significand, rest.length + 1)

/-- The leading digits after the point that fit into sixty-four bits, appended to `significand`,
and how many they are. -/
def takeFraction (significand : Nat) : List Nat → Nat × Nat
  | [] => (significand, 0)
  | digit :: rest =>
    let longer := 10 * significand + digit
    if longer < 0x10000000000000000 then
      let (taken, count) := takeFraction longer rest
      (taken, count + 1)
    else (significand, 0)

/-- The power of ten `10 ^ n` as a float. -/
def power (n : Nat) : Float :=
  Float.ofScientific 1 false n

/-- A float times `10 ^ exponent`, if that is finite.  Powers beyond the range of the floats are
divided by in steps, which end at zero after two. -/
def scale? (steps : Nat) (f : Float) (exponent : Int) : Option Float :=
  if exponent.natAbs ≤ 308 then
    if 0 ≤ exponent then
      let scaled := f * power exponent.natAbs
      if scaled.isInf then none else some scaled
    else some (f / power exponent.natAbs)
  else if f == 0 then some f
  else if 0 ≤ exponent then none
  else
    match steps with
    | 0 => some f
    | steps + 1 => scale? steps (f / power 308) (exponent + 308)

/-- The magnitude of the float that a numeral stands for. -/
def magnitude? (numeral : Numeral) : Option Float :=
  let (whole, dropped) := takeWhole 0 numeral.whole
  let (significand, places) := takeFraction whole (numeral.fraction.getD [])
  let exponent : Int :=
    match numeral.exponent with
    | none => 0
    | some (true, digits) => -(value digits : Int)
    | some (false, digits) => value digits
  if 0x80000000 ≤ exponent ∧ significand ≠ 0 then none
  else if 0x80000000 ≤ exponent.natAbs then some 0
  else scale? 3 significand.toUInt64.toFloat ((dropped : Int) - places + exponent)

/-- The float that a numeral stands for. -/
def binary64? (numeral : Numeral) : Option Binary64 :=
  numeral.magnitude?.map fun f => ⟨(if numeral.negative then -f else f).toBits⟩

end Numeral

end TableGroups
