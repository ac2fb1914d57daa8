import TableGroups.Binary64.Digits

/-!
# Numbers as text

A number is written with the digits of its shortest decimal.  A `NumberStyle` holds what remains
to be decided: whether a whole number keeps a point and a zero, and whether very small and very
large magnitudes are written with an exponent.  A NaN has no sign in text; the infinities and the
zeros have theirs.
-/

namespace TableGroups

/-- The decisions that the text of a number leaves open. -/
structure NumberStyle where
  /-- Whole numbers end in a point and a zero. -/
  keepsPoint : Bool
  /-- Magnitudes below `10 ^ -4` and from `10 ^ 16` on are written with an exponent. -/
  usesExponent : Bool

namespace NumberStyle

/-- Positional at every magnitude, and no point after a whole number. -/
def plain : NumberStyle := ⟨false, false⟩

/-- Recognisable as a float: with a point or an exponent. -/
def detailed : NumberStyle := ⟨true, true⟩

end NumberStyle

namespace Decimal

/-- The digits of the decimal, most significant first. -/
def digitChars (d : Decimal) : List Char :=
  Nat.toDigits 10 d.digits

/-- How many digits stand before the point, negative when zeros follow it. -/
def pointPosition (d : Decimal) : Int :=
  d.digitChars.length + d.exponent

/-- Positional notation. -/
def positional (d : Decimal) (keepsPoint : Bool) : String :=
  let digits := d.digitChars
  if 0 ≤ d.exponent then
    String.ofList (digits ++ List.replicate d.exponent.toNat '0') ++
      (if keepsPoint then ".0" else "")
  else if 0 < d.pointPosition then
    String.ofList (digits.take d.pointPosition.toNat) ++ "." ++
      String.ofList (digits.drop d.pointPosition.toNat)
  else
    "0." ++ String.ofList (List.replicate (-d.pointPosition).toNat '0' ++ digits)

/-- One digit, a point if more digits follow, and the exponent of ten. -/
def scientific (d : Decimal) : String :=
  let digits := d.digitChars
  String.ofList (digits.take 1) ++
    (if digits.length = 1 then "" else "." ++ String.ofList (digits.drop 1)) ++
    "e" ++ toString (d.pointPosition - 1)

end Decimal

namespace Binary64

/-- The text of a number. -/
def text (style : NumberStyle) (x : Binary64) : String :=
  let sign := if x.isNegative then "-" else ""
  if x.isNaN then "NaN"
  else if x.isSpecial then sign ++ "inf"
  else if x.isZero then sign ++ (if style.keepsPoint then "0.0" else "0")
  else
    let d := x.shortestDecimal
    let positional := decide (-4 < d.pointPosition) && decide (d.pointPosition ≤ 16)
    if style.usesExponent && !positional then sign ++ d.scientific
    else sign ++ d.positional style.keepsPoint

end Binary64

end TableGroups
