import TableGroups.Json.Numeral
import TableGroups.Json.Reader

/-!
# The forms of data in JSON

What a document says about data of a given form.  A record is an object with a member for each
field, or an array of the fields in order.  A choice is its name, or an object whose only member
has the name of the choice and holds what belongs to it.

A reading answers `none` for a document of another form.
-/

namespace TableGroups

namespace Json

/-- A reading of documents. -/
abbrev Reading (α : Type) := Json → Option α

/-- A truth value. -/
def bool? : Reading Bool
  | .bool b => some b
  | _ => none

/-- A text. -/
def text? : Reading String
  | .string literal => literal.text?
  | _ => none

/-- An integer. -/
def int? : Reading Int
  | .number numeral => numeral.integer?
  | _ => none

/-- A natural number below a limit. -/
def natBelow? (limit : Nat) : Reading Nat := fun document => do
  let n ← document.int?
  if 0 ≤ n ∧ n.toNat < limit then return n.toNat else none

/-- A position or a count. -/
def nat? : Reading Nat :=
  natBelow? 0x10000000000000000

/-- An integer of sixty-four bits with a sign. -/
def int64? : Reading Int64 := fun document => do
  let n ← document.int?
  if n < 0x8000000000000000 then return Int64.ofInt n else none

/-- A float; integers are floats too. -/
def binary64? : Reading Binary64
  | .number numeral => numeral.binary64?
  | _ => none

/-- A list of data of one form. -/
def listOf? {α : Type} (item? : Reading α) : Reading (List α)
  | .array items => items.mapM item?
  | _ => none

/-- Data that may be absent, null standing for its absence. -/
def optional? {α : Type} (some? : Reading α) : Reading (Option α)
  | .null => some none
  | document => (some? document).map some

/-- The members of an object by their names as text. -/
def members? : Reading (List (String × Json))
  | .object members => members.mapM fun (name, value) => (name.text?).map fun text => (text, value)
  | _ => none

/-- The fields of a record, each present or not.  Names that are not the record's are passed over,
or refused if the record is closed; a repeated field and a surplus item are always refused. -/
def fields? (isClosed : Bool) (names : List String) : Reading (List (Option Json))
  | .array items =>
    if items.length ≤ names.length then
      some (items.map some ++ List.replicate (names.length - items.length) none)
    else none
  | document => do
    let members ← document.members?
    if isClosed && members.any (fun (name, _) => !names.contains name) then none
    else
      names.mapM fun name =>
        match members.filter (·.1 == name) with
        | [] => some none
        | [(_, value)] => some (some value)
        | _ => none

/-- The fields of an open record, all of which must be present. -/
def record? (names : List String) : Reading (List Json) := fun document => do
  let fields ← document.fields? false names
  fields.mapM id

/-- The name of a choice and what belongs to it. -/
def choice? : Reading (String × Option Json)
  | .string literal => (literal.text?).map fun name => (name, none)
  | document => do
    match ← document.members? with
    | [(name, content)] => some (name, some content)
    | _ => none

/-- A choice to which nothing belongs, given the names of the choices. -/
def plainChoice? {α : Type} (choices : List (String × α)) : Reading α := fun document => do
  match ← document.choice? with
  | (name, none) => choices.lookup name
  | (name, some .null) => choices.lookup name
  | _ => none

end Json

end TableGroups
