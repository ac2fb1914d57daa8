import TableGroups.Index
import TableGroups.Value.Text

/-!
# Rows and their types

Every row is tagged with a row type: a name, the kinds of its fields, and what it describes.  Two
row types are the same when these three are, and a merge tells the rows meant for it from others
by their type.

`Row.make` checks values against a type.  A cursor over stored entries tags them without a check.
-/

namespace TableGroups

/-- What the rows of a type are. -/
inductive RowSource where
  /-- Rows of a table. -/
  | table (name : TableName)
  /-- Rows of an index. -/
  | index (name : IndexName)
  /-- Rows of a projection or another derived stream. -/
  | derived
  deriving DecidableEq

/-- The type of a row. -/
structure RowType where
  name : String
  fields : List FieldKind
  source : RowSource
  deriving DecidableEq

namespace RowType

/-- The type of a table's rows. -/
def ofTable (table : Table) : RowType :=
  ⟨table.name.display, table.columns.map (·.kind), .table table.name⟩

/-- The type of an index's rows, all columns included. -/
def ofIndex (index : Index) : RowType :=
  ⟨index.name.display, index.allColumns.map (·.column.kind), .index index.name⟩

/-- The type of a derived stream. -/
def derived (name : String) (fields : List FieldKind) : RowType :=
  ⟨name, fields, .derived⟩

/-- The index whose rows these are. -/
def index? (type : RowType) : Option IndexName :=
  match type.source with
  | .index name => some name
  | _ => none

/-- The name and the number of fields. -/
def display (type : RowType) : String :=
  s!"{type.name}[{type.fields.length}]"

end RowType

/-- Why values do not make a row of a type. -/
inductive RowError where
  /-- There are too many or too few values. -/
  | width (type : RowType) (found : Nat)
  /-- A value does not fit its field. -/
  | field (type : RowType) (position : Nat) (kind : FieldKind) (value : Value)
  deriving DecidableEq

/-- The failure as it is reported. -/
def RowError.toFault : RowError → Fault
  | .width type found =>
    ⟨.invalidArgument, .executor,
      s!"row of type {type.display} expects {type.fields.length} fields, got {found}"⟩
  | .field type position kind value =>
    ⟨.invalidArgument, .executor,
      s!"field {position} of {type.display} expects {kind.label}, got {value.detail}"⟩

/-- Values tagged with a row type. -/
structure Row where
  type : RowType
  values : List Value
  deriving DecidableEq

namespace Row

/-- A row of a type, if there is a fitting value for every field. -/
def make (type : RowType) (values : List Value) : Except RowError Row :=
  if values.length = type.fields.length then
    match ((values.zip type.fields).zipIdx).find? fun ((value, kind), _) => !value.fits kind with
    | some ((value, kind), position) => .error (.field type position kind value)
    | none => .ok ⟨type, values⟩
  else .error (.width type values.length)

/-- Whether the row is of a type. -/
def isOfType (row : Row) (type : RowType) : Bool :=
  row.type == type

/-- Equality of rows: one type, and values that agree as fields do. -/
def agrees (a b : Row) : Bool :=
  a.isOfType b.type && Value.allAgree a.values b.values

/-- The name of the type and the values. -/
def display (row : Row) : String :=
  row.type.name ++ "(" ++ ", ".intercalate (row.values.map Value.display) ++ ")"

end Row

end TableGroups
