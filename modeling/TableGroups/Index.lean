import TableGroups.Direction
import TableGroups.Index.Error
import TableGroups.Table

/-!
# Indexes

An index orders rows of one table, its leaf, by key columns.  A *table index* draws its key columns
from the leaf alone; a *group index* draws them from any table of the leaf's lineage and spans the
branch from the root-most of these tables down to the leaf.

After the key columns an index row holds whatever else is needed to rebuild the hierarchical key of
its leaf row, so `allColumns` extends `keyColumns`.  A column *carries* a column of the hierarchical
key if its table holds that column's value in it; `sourcePosition?` finds the first that does.

An index may have an id of sixteen bits.  Id, validity and join side are packed into one word, the
id lowest; `IndexDraft` reads such words back.
-/

namespace TableGroups

/-- An index id has sixteen bits. -/
abbrev IndexId := Fin 0x10000

/-- The id with a number, if the number is small enough. -/
def IndexId.ofNat? (n : Nat) : Except IndexError IndexId :=
  if h : n < 0x10000 then .ok ⟨n, h⟩ else .error (.idOutOfRange n)

/-- The part that an index plays in its table's constraints. -/
inductive IndexConstraint where
  | primaryKey
  | unique
  | key
  | foreignKey
  deriving DecidableEq

/-- How a constraint is called. -/
def IndexConstraint.label : IndexConstraint → String
  | .primaryKey => "PRIMARY"
  | .unique => "UNIQUE"
  | .key => "KEY"
  | .foreignKey => "FOREIGN KEY"

/-- Which rows of its tables a group index keeps when a partner is missing. -/
inductive GroupJoin where
  | left
  | right
  deriving DecidableEq

/-- Whether an index is over one table or over a branch of a group. -/
inductive IndexKind where
  | table
  | group
  deriving DecidableEq

/-- How messages name the kind of an index. -/
def IndexKind.label : IndexKind → String
  | .table => "TABLE"
  | .group => "GROUP"

/-- What an index draws its key columns from; only a group index has a join. -/
inductive IndexSpan where
  | table
  | group (join : GroupJoin)
  deriving DecidableEq

namespace IndexSpan

/-- The kind of an index with this span. -/
def kind : IndexSpan → IndexKind
  | .table => .table
  | .group _ => .group

/-- The join of a group index. -/
def join? : IndexSpan → Option GroupJoin
  | .table => none
  | .group join => some join

/-- The span with a join of its own; an index over one table has none. -/
def withJoin (join : GroupJoin) : IndexSpan → IndexSpan
  | .table => .table
  | .group _ => .group join

end IndexSpan

/-- One column of an index: a column of a table, the position it is declared at, and the direction
in which the index keeps it. -/
structure IndexColumn where
  table : TableName
  column : Column
  position : Nat
  direction : Direction
  deriving DecidableEq

namespace IndexColumn

/-- The column as messages show it. -/
def display (column : IndexColumn) : String :=
  column.table.table ++ "." ++ column.column.name ++
    (if column.direction.isAscending then "" else " DESC")

/-- Whether the column holds the value of a hierarchical-key column, as its table in the branch
knows it. -/
def carries (branch : List Table) (column : IndexColumn) (target : ColumnRef) : Bool :=
  ((branch.find? (·.name == column.table)).bind (·.localEquivalent? target)) ==
    some column.column.position

end IndexColumn

/-- The first of the columns that carries a hierarchical-key column. -/
def sourcePosition? (branch : List Table) (columns : List IndexColumn) (target : ColumnRef) :
    Option Nat :=
  columns.findIdx? (·.carries branch target)

/-- The name of an index that marks its foreign key as a grouping join starts with this. -/
def groupingPrefix : String := "__grouping"

/-- A finished index definition. -/
structure Index where
  name : IndexName
  id : Option IndexId
  unique : Bool
  constraint : IndexConstraint
  span : IndexSpan
  valid : Bool
  treeName : String
  leaf : Table
  /-- How many tables of the leaf's lineage lie above the branch. -/
  rootDepth : Nat
  keyColumns : List IndexColumn
  allColumns : List IndexColumn
  deriving DecidableEq

namespace Index

/-- Whether the index is over one table or over a branch. -/
def kind (index : Index) : IndexKind :=
  index.span.kind

/-- Whether the index serves its table's primary key. -/
def isPrimaryKey (index : Index) : Bool :=
  index.constraint == .primaryKey

/-- Whether the index serves the foreign key of a grouping join. -/
def isGroupingForeignKey (index : Index) : Bool :=
  index.constraint == .foreignKey && index.name.name.startsWith groupingPrefix

/-- Whether the index is over one table. -/
def isTableIndex (index : Index) : Bool :=
  index.kind == .table

/-- Whether the index is over a branch of a group. -/
def isGroupIndex (index : Index) : Bool :=
  index.kind == .group

/-- Whether the index may be used; an index over one table always may. -/
def isValid (index : Index) : Bool :=
  index.isTableIndex || index.valid

/-- Weight of the validity flag in a packed word. -/
def validFlag : Nat := 0x10000

/-- Weight of the right-join flag in a packed word. -/
def rightJoinFlag : Nat := 0x20000

/-- Id, validity and join side in one word, once the index has an id. -/
def packed? (index : Index) : Option Nat :=
  index.id.map fun id =>
    id.val + (if index.valid then validFlag else 0) +
      (if index.span.join? = some .right then rightJoinFlag else 0)

/-- The tables that the index spans, root-most first. -/
def branch (index : Index) : List Table :=
  index.leaf.lineage.drop index.rootDepth

/-- The first table of the branch. -/
def rootMost (index : Index) : Table :=
  index.branch.head?.getD index.leaf

/-- The shape of the leaf's hierarchical keys. -/
def hkeyLayout (index : Index) : HKeyLayout :=
  index.leaf.hkeyLayout

/-- The directions of all columns, in order. -/
def directions (index : Index) : List Direction :=
  index.allColumns.map (·.direction)

/-- The number of fields of an index row. -/
def width (index : Index) : Nat :=
  index.allColumns.length

/-- The index as messages show it: kind, name and key columns. -/
def display (index : Index) : String :=
  (if index.unique then "UNIQUE " else "") ++ index.kind.label ++ " " ++ index.name.display ++
    "(" ++ ", ".intercalate (index.keyColumns.map (·.display)) ++ ")"

end Index

end TableGroups
