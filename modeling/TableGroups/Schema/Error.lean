import TableGroups.Index.Error

/-!
# Failures of schema definitions

What can be wrong with the definition of a table, with its place in a group, and with a change of
a schema.
-/

namespace TableGroups

/-- Why a table, a group or a schema cannot be defined or changed. -/
inductive SchemaError where
  /-- A table declares two columns of one name. -/
  | duplicateColumn (table : TableName) (column : String)
  /-- A key or a join names a column that its table lacks. -/
  | unknownColumn (table : TableName) (column : String)
  /-- A table declares no primary key. -/
  | emptyPrimaryKey (table : TableName)
  /-- The parent columns of a grouping join are not the parent's primary key. -/
  | groupingJoinMismatch (child parent : TableName)
  /-- A table with a parent cannot be the root of a group. -/
  | rootHasParent (table : TableName)
  /-- A table of this name exists already. -/
  | duplicateTable (table : TableName)
  /-- The parent of a table is not a member of the group. -/
  | orphanTable (table : TableName)
  /-- A group of this name exists already. -/
  | duplicateGroup (group : String)
  /-- No table of this name is registered. -/
  | unknownTable (table : TableName)
  /-- An index of this name exists already. -/
  | duplicateIndex (index : IndexName)
  /-- No index of this name is registered. -/
  | unknownIndex (index : IndexName)
  /-- An index could not be defined. -/
  | index (error : IndexError)
  deriving DecidableEq

namespace SchemaError

/-- How reports name the cause. -/
def label : SchemaError → String
  | .duplicateColumn .. => "DuplicateColumn"
  | .unknownColumn .. => "UnknownColumn"
  | .emptyPrimaryKey .. => "EmptyPrimaryKey"
  | .groupingJoinMismatch .. => "GroupingJoinMismatch"
  | .rootHasParent .. => "RootHasParent"
  | .duplicateTable .. => "DuplicateTable"
  | .orphanTable .. => "OrphanTable"
  | .duplicateGroup .. => "DuplicateGroup"
  | .unknownTable .. => "UnknownTable"
  | .duplicateIndex .. => "DuplicateIndex"
  | .unknownIndex .. => "UnknownIndex"
  | .index .. => "Index"

/-- The failure as a sentence. -/
def message : SchemaError → String
  | .duplicateColumn table column =>
    s!"table '{table.display}' declares column '{column}' more than once"
  | .unknownColumn table column => s!"table '{table.display}' has no column '{column}'"
  | .emptyPrimaryKey table => s!"table '{table.display}' has no primary key"
  | .groupingJoinMismatch child parent =>
    s!"grouping join of '{child.display}' must cover the primary key of '{parent.display}'"
  | .rootHasParent table => s!"group root '{table.display}' must not have a parent"
  | .duplicateTable table => s!"table '{table.display}' already exists"
  | .orphanTable table => s!"parent of table '{table.display}' is not part of the group"
  | .duplicateGroup group => s!"group '{group}' already exists"
  | .unknownTable table => s!"unknown table '{table.display}'"
  | .duplicateIndex taken => s!"index '{taken.display}' already exists"
  | .unknownIndex missing => s!"unknown index '{missing.display}'"
  | .index error => error.message

/-- What kind of failure it is: names that nothing is registered under are not found, all else is
an invalid argument. -/
def faultKind : SchemaError → FaultKind
  | .unknownTable _ => .notFound
  | .unknownIndex _ => .notFound
  | _ => .invalidArgument

/-- The failure as it is reported. -/
def toFault (error : SchemaError) : Fault :=
  ⟨error.faultKind, .schema, error.message⟩

end SchemaError

end TableGroups
