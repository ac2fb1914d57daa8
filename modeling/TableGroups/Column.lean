import TableGroups.Name
import TableGroups.Value

/-!
# Columns

A `Column` is one declared field of a table's rows.  A `ColumnRef` names a column of some table by
its position; keys that run over several tables are described with them.
-/

namespace TableGroups

/-- A declared column; `position` is the place of its field in a row of the table. -/
structure Column where
  name : String
  position : Nat
  kind : FieldKind
  nullable : Bool
  deriving DecidableEq

/-- A column of a table. -/
structure ColumnRef where
  table : TableName
  position : Nat
  deriving DecidableEq

/-- The table and the position. -/
def ColumnRef.display (column : ColumnRef) : String :=
  column.table.display ++ "#" ++ toString column.position

end TableGroups
