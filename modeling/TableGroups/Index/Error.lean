import TableGroups.Column
import TableGroups.Fault

/-!
# Failures of index definitions

What can be wrong with the definition of an index, with the ordinals its keys need, and with a row
handed to it.
-/

namespace TableGroups

/-- The largest number that an index may have as its id. -/
def maxIndexId : Nat := 0xFFFF

/-- Why an index cannot be defined or used. -/
inductive IndexError where
  /-- An id needs more than sixteen bits. -/
  | idOutOfRange (id : Nat)
  /-- A column comes after the column list was frozen. -/
  | columnsFrozen (index : IndexName)
  /-- There is no key column. -/
  | noColumns (index : IndexName)
  /-- A key column is not a column of its table. -/
  | unknownColumn (index : IndexName) (table : TableName) (column : String)
  /-- A key column belongs to a table that the index does not span. -/
  | columnOutsideBranch (index : IndexName) (table : TableName)
  /-- Two key columns are declared at one position. -/
  | duplicatePosition (index : IndexName) (position : Nat)
  /-- No table of the branch carries a column of the hierarchical key. -/
  | hkeyColumnUnavailable (index : IndexName) (column : ColumnRef)
  /-- A table of the lineage has no ordinal. -/
  | missingOrdinal (index : IndexName) (table : TableName)
  /-- An index row has the wrong number of fields. -/
  | rowArity (index : IndexName) (expected found : Nat)
  deriving DecidableEq

namespace IndexError

/-- How reports name the cause. -/
def label : IndexError → String
  | .idOutOfRange .. => "IdOutOfRange"
  | .columnsFrozen .. => "ColumnsFrozen"
  | .noColumns .. => "NoColumns"
  | .unknownColumn .. => "UnknownColumn"
  | .columnOutsideBranch .. => "ColumnOutsideBranch"
  | .duplicatePosition .. => "DuplicatePosition"
  | .hkeyColumnUnavailable .. => "HKeyColumnUnavailable"
  | .missingOrdinal .. => "MissingOrdinal"
  | .rowArity .. => "RowArity"

/-- The failure as a sentence. -/
def message : IndexError → String
  | .idOutOfRange id => s!"index id out of range: {id} > {maxIndexId}"
  | .columnsFrozen index =>
    s!"can't add column to index '{index.display}' because its column list is frozen"
  | .noColumns index => s!"index '{index.display}' declares no key columns"
  | .unknownColumn index table column =>
    s!"index '{index.display}' references unknown column '{column}' of '{table.display}'"
  | .columnOutsideBranch index table =>
    s!"index '{index.display}' column from '{table.display}' lies outside the indexed branch"
  | .duplicatePosition index position =>
    s!"index '{index.display}' declares position {position} more than once"
  | .hkeyColumnUnavailable index column =>
    s!"index '{index.display}' cannot source hkey column {column.display} from its branch"
  | .missingOrdinal index table =>
    s!"no ordinal assigned to table '{table.display}' (required by index '{index.display}')"
  | .rowArity index expected found =>
    s!"index row has {found} fields, index '{index.display}' expects {expected}"

/-- The failure as it is reported. -/
def toFault (error : IndexError) : Fault :=
  ⟨.invalidArgument, .index, error.message⟩

end IndexError

end TableGroups
