import TableGroups.Schema.Error
import TableGroups.Table

/-!
# Declaring tables

A `TableDeclaration` names columns; `TableDeclaration.resolve` turns the names into positions and
checks what a table owes its group: column names are distinct, there is a primary key, and the
parent columns of a grouping join are the parent's primary key, in any order and each as often as
the key has it.
-/

namespace TableGroups

/-- A column as it is declared; its position is its place in the declaration. -/
structure ColumnDeclaration where
  name : String
  kind : FieldKind
  nullable : Bool

/-- A grouping join as it is declared: pairs of a column of the table and a column of the
parent. -/
structure GroupingDeclaration where
  parent : Table
  pairs : List (String × String)

/-- A table as it is declared. -/
structure TableDeclaration where
  name : TableName
  columns : List ColumnDeclaration
  primaryKey : List String
  grouping : Option GroupingDeclaration

/-- The first name that stands in the list already, `seen` standing before it. -/
def firstRepeated? (seen : List String) : List String → Option String
  | [] => none
  | name :: rest => if name ∈ seen then some name else firstRepeated? (name :: seen) rest

namespace TableDeclaration

/-- The declared columns with their positions. -/
def numberedColumns (declaration : TableDeclaration) : List Column :=
  declaration.columns.zipIdx.map fun (column, position) =>
    ⟨column.name, position, column.kind, column.nullable⟩

/-- The position of the column with a name among the columns of a table. -/
def position (table : TableName) (columns : List Column) (name : String) :
    Except SchemaError Nat :=
  match columns.find? (·.name == name) with
  | some column => .ok column.position
  | none => .error (.unknownColumn table name)

/-- The positions of a declared grouping join; the parent side has to be the parent's primary
key. -/
def joinPairs (table : TableName) (columns : List Column) (grouping : GroupingDeclaration) :
    Except SchemaError (List JoinPair) := do
  let parent := grouping.parent
  let pairs ← grouping.pairs.mapM fun (childColumn, parentColumn) => do
    let child ← position table columns childColumn
    let parentPosition ← position parent.name parent.columns parentColumn
    return JoinPair.mk child parentPosition
  if (pairs.map (·.parent)).isPerm parent.primaryKey then
    return pairs
  else
    throw (.groupingJoinMismatch table parent.name)

/-- The declared table, or the first thing that is wrong with it. -/
def resolve (declaration : TableDeclaration) : Except SchemaError Table := do
  let name := declaration.name
  let columns := declaration.numberedColumns
  if let some column := firstRepeated? [] (declaration.columns.map (·.name)) then
    throw (.duplicateColumn name column)
  if declaration.primaryKey.isEmpty then
    throw (.emptyPrimaryKey name)
  let primaryKey ← declaration.primaryKey.mapM (position name columns)
  match declaration.grouping with
  | none => return .root ⟨name, columns, primaryKey⟩
  | some grouping =>
    let pairs ← joinPairs name columns grouping
    return .child ⟨name, columns, primaryKey⟩ grouping.parent pairs

end TableDeclaration

end TableGroups
