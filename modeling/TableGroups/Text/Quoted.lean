import TableGroups.Text.Printable

/-!
# Quoted text

Messages show a text value between double quotes.  A quote and a backslash inside it are written
with a backslash before them, the common control characters by their letter, and every other
character that is not printable by its code point in hexadecimal.
-/

namespace TableGroups

namespace Text

/-- A natural number in lower-case hexadecimal. -/
def hex (n : Nat) : String :=
  String.ofList (Nat.toDigits 16 n)

/-- A byte as two hexadecimal digits. -/
def hexByte (byte : UInt8) : String :=
  (if byte.toNat < 16 then "0" else "") ++ hex byte.toNat

/-- One character inside quotes. -/
def quoteChar (c : Char) : String :=
  match c with
  | '"' => "\\\""
  | '\\' => "\\\\"
  | '\t' => "\\t"
  | '\r' => "\\r"
  | '\n' => "\\n"
  | '\x00' => "\\0"
  | c => if isPrintable c then String.singleton c else "\\u\x7b" ++ hex c.toNat ++ "\x7d"

/-- A text between quotes. -/
def quote (s : String) : String :=
  "\"" ++ String.join (s.toList.map quoteChar) ++ "\""

end Text

end TableGroups
