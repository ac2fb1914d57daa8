import TableGroups.Binary64.Text
import TableGroups.Text.Quoted
import TableGroups.Value

/-!
# Values as text

A value has two texts.  `Value.display` is how rows and keys show it: bare numbers, `NULL`, text in
single quotes as it stands, bytes in hexadecimal.  `Value.detail` names the kind as well and quotes
text so that nothing in it is invisible; messages about a single value use it.
-/

namespace TableGroups

namespace Value

/-- The text of a value inside a row or a key. -/
def display : Value → String
  | .null => "NULL"
  | .bool b => if b then "true" else "false"
  | .int i => toString i.toInt
  | .uint u => toString u.toNat
  | .float64 x => x.text .plain
  | .text s => "'" ++ s ++ "'"
  | .blob bytes => "x'" ++ String.join (bytes.map Text.hexByte) ++ "'"

/-- The text of a value in a message about it. -/
def detail : Value → String
  | .null => "Null"
  | .bool b => if b then "Bool(true)" else "Bool(false)"
  | .int i => "Int(" ++ toString i.toInt ++ ")"
  | .uint u => "Uint(" ++ toString u.toNat ++ ")"
  | .float64 x => "Float64(" ++ x.text .detailed ++ ")"
  | .text s => "Text(" ++ Text.quote s ++ ")"
  | .blob bytes => "Blob([" ++ ", ".intercalate (bytes.map fun b => toString b.toNat) ++ "])"

end Value

end TableGroups
