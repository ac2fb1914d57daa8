import TableGroups.Index
import TableGroups.Value.Text

/-!
# Failures of stores

What can be wrong with a request to a store of index entries.
-/

namespace TableGroups

/-- Why a store refuses a request. -/
inductive StoreError where
  /-- An index of this name is registered already. -/
  | alreadyRegistered (index : IndexName)
  /-- No index of this name is registered. -/
  | unknownIndex (index : IndexName)
  /-- An index row has the wrong number of fields. -/
  | indexRowWidth (index : IndexName) (expected found : Nat)
  /-- A field of an index row does not fit its column. -/
  | indexField (index : IndexName) (column : IndexColumn) (value : Value)
  /-- A table row has the wrong number of fields. -/
  | tableRowWidth (table : TableName) (expected found : Nat)
  /-- A column does not take a field of a table row. -/
  | tableField (table : TableName) (column : Column) (value : Value)
  /-- The rows of a table do not hold what an index of it needs. -/
  | notMaintainable (index : IndexName) (table : TableName)
  deriving DecidableEq

namespace StoreError

/-- The failure as it is reported. -/
def toFault : StoreError → Fault
  | .alreadyRegistered index =>
    ⟨.invalidArgument, .store, s!"index '{index.display}' is already registered"⟩
  | .unknownIndex index => .notInStore s!"index '{index.display}'"
  | .indexRowWidth index expected found =>
    ⟨.invalidArgument, .store, s!"index '{index.display}' rows have {expected} fields, got {found}"⟩
  | .indexField index column value =>
    ⟨.invalidArgument, .store,
      s!"index '{index.display}' column {column.display} expects {column.column.kind.label}, " ++
        s!"got {value.detail}"⟩
  | .tableRowWidth table expected found =>
    ⟨.invalidArgument, .store, s!"table '{table.display}' rows have {expected} fields, got {found}"⟩
  | .tableField table column value =>
    ⟨.invalidArgument, .store,
      s!"column '{column.name}' of '{table.display}' rejects {value.detail}"⟩
  | .notMaintainable index table =>
    ⟨.invariantViolation, .store,
      s!"index '{index.display}' cannot be maintained from rows of '{table.display}'"⟩

end StoreError

end TableGroups
