import TableGroups.Json

/-!
# Reading JSON

A document is read by recursive descent.  Each reader takes what it recognises from the front of
the text and hands over the rest; `Json.ofText?` wants nothing but blanks to be left.  Recursion is
bounded by the length of the text, of which every other step uses up a character.
-/

namespace TableGroups

namespace Json

/-- The four characters that may stand between the parts of a document. -/
def isBlank (c : Char) : Bool :=
  c == ' ' || c == '\t' || c == '\n' || c == '\r'

/-- The text without the blanks in front. -/
def skipBlanks (cs : List Char) : List Char :=
  cs.dropWhile isBlank

/-- The value of a hexadecimal digit. -/
def hexDigit? (c : Char) : Option Nat :=
  if '0' ≤ c ∧ c ≤ '9' then some (c.toNat - '0'.toNat)
  else if 'a' ≤ c ∧ c ≤ 'f' then some (c.toNat - 'a'.toNat + 10)
  else if 'A' ≤ c ∧ c ≤ 'F' then some (c.toNat - 'A'.toNat + 10)
  else none

/-- The character that a short escape stands for. -/
def shortEscape? : Char → Option Char
  | '"' => some '"'
  | '\\' => some '\\'
  | '/' => some '/'
  | 'b' => some '\x08'
  | 'f' => some '\x0c'
  | 'n' => some '\n'
  | 'r' => some '\r'
  | 't' => some '\t'
  | _ => none

/-- Read a string literal whose opening quote has been read. -/
def readText : List Char → Option (TextLiteral × List Char)
  | [] => none
  | '"' :: rest => some ([], rest)
  | '\\' :: 'u' :: a :: b :: c :: d :: rest => do
    let code := (((← hexDigit? a) * 16 + (← hexDigit? b)) * 16 + (← hexDigit? c)) * 16 +
      (← hexDigit? d)
    let (literal, rest) ← readText rest
    return (.unit code :: literal, rest)
  | '\\' :: c :: rest => do
    let escaped ← shortEscape? c
    let (literal, rest) ← readText rest
    return (.char escaped :: literal, rest)
  | c :: rest =>
    if c.toNat < 0x20 ∨ c = '\\' then none
    else do
      let (literal, rest) ← readText rest
      return (.char c :: literal, rest)

/-- The digits at the front of a text. -/
def takeDigits (cs : List Char) : List Nat × List Char :=
  ((cs.takeWhile Char.isDigit).map fun c => c.toNat - '0'.toNat, cs.dropWhile Char.isDigit)

/-- Read the digits before the point; a zero in front stands alone. -/
def readWhole (cs : List Char) : Option (List Nat × List Char) :=
  match takeDigits cs with
  | ([], _) => none
  | (0 :: _ :: _, _) => none
  | digits => some digits

/-- Read a point and the digits after it, if there is a point. -/
def readFraction : List Char → Option (Option (List Nat) × List Char)
  | '.' :: rest =>
    match takeDigits rest with
    | ([], _) => none
    | (digits, rest) => some (some digits, rest)
  | cs => some (none, cs)

/-- Read an exponent, its mark already read. -/
def readExponentDigits (cs : List Char) : Option (Option (Bool × List Nat) × List Char) :=
  let (negative, rest) :=
    match cs with
    | '+' :: rest => (false, rest)
    | '-' :: rest => (true, rest)
    | _ => (false, cs)
  match takeDigits rest with
  | ([], _) => none
  | (digits, rest) => some (some (negative, digits), rest)

/-- Read an exponent, if there is one. -/
def readExponent : List Char → Option (Option (Bool × List Nat) × List Char)
  | 'e' :: rest => readExponentDigits rest
  | 'E' :: rest => readExponentDigits rest
  | cs => some (none, cs)

/-- Read a number. -/
def readNumeral (cs : List Char) : Option (Numeral × List Char) := do
  let (negative, cs) :=
    match cs with
    | '-' :: rest => (true, rest)
    | _ => (false, cs)
  let (whole, cs) ← readWhole cs
  let (fraction, cs) ← readFraction cs
  let (exponent, cs) ← readExponent cs
  return (⟨negative, whole, fraction, exponent⟩, cs)

mutual

/-- Read a value; there are no blanks in front. -/
def readValue : Nat → List Char → Option (Json × List Char)
  | 0, _ => none
  | fuel + 1, cs =>
    match cs with
    | 'n' :: 'u' :: 'l' :: 'l' :: rest => some (.null, rest)
    | 't' :: 'r' :: 'u' :: 'e' :: rest => some (.bool true, rest)
    | 'f' :: 'a' :: 'l' :: 's' :: 'e' :: rest => some (.bool false, rest)
    | '"' :: rest => do
      let (literal, rest) ← readText rest
      return (.string literal, rest)
    | '[' :: rest =>
      match skipBlanks rest with
      | ']' :: rest => some (.array [], rest)
      | rest => do
        let (items, rest) ← readItems fuel rest
        return (.array items, rest)
    | '\x7b' :: rest =>
      match skipBlanks rest with
      | '\x7d' :: rest => some (.object [], rest)
      | rest => do
        let (members, rest) ← readMembers fuel rest
        return (.object members, rest)
    | cs => do
      let (numeral, rest) ← readNumeral cs
      return (.number numeral, rest)

/-- Read the items of an array up to its end; there is at least one. -/
def readItems : Nat → List Char → Option (List Json × List Char)
  | 0, _ => none
  | fuel + 1, cs => do
    let (item, rest) ← readValue fuel cs
    match skipBlanks rest with
    | ']' :: rest => return ([item], rest)
    | ',' :: rest => do
      let (items, rest) ← readItems fuel (skipBlanks rest)
      return (item :: items, rest)
    | _ => none

/-- Read the members of an object up to its end; there is at least one. -/
def readMembers : Nat → List Char → Option (List (TextLiteral × Json) × List Char)
  | 0, _ => none
  | fuel + 1, cs =>
    match cs with
    | '"' :: rest => do
      let (name, rest) ← readText rest
      match skipBlanks rest with
      | ':' :: rest => do
        let (value, rest) ← readValue fuel (skipBlanks rest)
        match skipBlanks rest with
        | '\x7d' :: rest => return ([(name, value)], rest)
        | ',' :: rest => do
          let (members, rest) ← readMembers fuel (skipBlanks rest)
          return ((name, value) :: members, rest)
        | _ => none
      | _ => none
    | _ => none

end

/-- The document that a text is, blanks around it allowed. -/
def ofText? (text : String) : Option Json := do
  let cs := skipBlanks text.toList
  let (document, rest) ← readValue (2 * cs.length + 2) cs
  if (skipBlanks rest).isEmpty then return document else none

end Json

end TableGroups
