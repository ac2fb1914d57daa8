/-!
# JSON documents

A `Json` is a document as it is written, not yet as it is meant.  Numbers keep their digits and
strings their escapes, so that whoever reads a field decides what it stands for: a number with a
fraction is no integer, and a string in which half of a surrogate pair is missing stands for no
text.  Members of objects stay in order, repeated names included.
-/

namespace TableGroups

/-- One element of a string literal. -/
inductive TextUnit where
  /-- A character, written as it is or by a short escape. -/
  | char (c : Char)
  /-- A sixteen-bit unit, written by its number. -/
  | unit (code : Nat)
  deriving DecidableEq

/-- A string literal. -/
abbrev TextLiteral := List TextUnit

namespace TextLiteral

/-- Whether a unit is the first half of a surrogate pair. -/
def isHigh (code : Nat) : Bool :=
  decide (0xD800 ≤ code) && decide (code < 0xDC00)

/-- Whether a unit is the second half of a surrogate pair. -/
def isLow (code : Nat) : Bool :=
  decide (0xDC00 ≤ code) && decide (code < 0xE000)

/-- The characters that a literal stands for, if every surrogate has its partner. -/
def chars? : TextLiteral → Option (List Char)
  | [] => some []
  | .char c :: rest => (chars? rest).map (c :: ·)
  | .unit high :: .unit low :: rest =>
    if isHigh high then
      if isLow low then
        (chars? rest).map (Char.ofNat (0x10000 + (high - 0xD800) * 0x400 + (low - 0xDC00)) :: ·)
      else none
    else if isLow high then none
    else (chars? (.unit low :: rest)).map (Char.ofNat high :: ·)
  | .unit code :: rest =>
    if isHigh code || isLow code then none
    else (chars? rest).map (Char.ofNat code :: ·)

/-- The text that a literal stands for. -/
def text? (literal : TextLiteral) : Option String :=
  (chars? literal).map String.ofList

end TextLiteral

/-- A number as it is written, digit by digit. -/
structure Numeral where
  negative : Bool
  /-- The digits before the point. -/
  whole : List Nat
  /-- The digits after the point, if there is one. -/
  fraction : Option (List Nat)
  /-- Whether the exponent is negative, and its digits, if there is one. -/
  exponent : Option (Bool × List Nat)
  deriving DecidableEq

/-- A document. -/
inductive Json where
  | null
  | bool (b : Bool)
  | number (numeral : Numeral)
  | string (literal : TextLiteral)
  | array (items : List Json)
  | object (members : List (TextLiteral × Json))

end TableGroups
