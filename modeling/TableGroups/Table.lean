import TableGroups.Column

/-!
# Tables

A table stands alone, as the root of a group, or hangs from a parent by a *grouping join*, which
pairs columns of the table with the columns of the parent's primary key.  So a table carries its
whole lineage, and every walk up to the root is a recursion on the table itself.

Two things are read off a lineage.  The *hkey layout* of a table lists the primary keys from the
root down to it: one segment per table.  `localEquivalent?` answers where a table carries the value
of a column of an ancestor, following the joins from the ancestor down.
-/

namespace TableGroups

/-- A column of a child table and the column of its parent that it repeats. -/
structure JoinPair where
  child : Nat
  parent : Nat
  deriving DecidableEq

/-- What a table declares about itself alone. -/
structure TableShape where
  name : TableName
  columns : List Column
  primaryKey : List Nat
  deriving DecidableEq

/-- A table, with all that it hangs from. -/
inductive Table where
  | root (shape : TableShape)
  | child (shape : TableShape) (parent : Table) (pairs : List JoinPair)
  deriving DecidableEq

/-- The part of a hierarchical key that belongs to one table. -/
structure HKeySegmentLayout where
  table : TableName
  columns : List ColumnRef
  deriving DecidableEq

/-- The shape of a hierarchical key: one segment per table, root first. -/
abbrev HKeyLayout := List HKeySegmentLayout

/-- The columns of all segments; a flat hkey position is a place in this list. -/
def HKeyLayout.columns (layout : HKeyLayout) : List ColumnRef :=
  layout.flatMap (·.columns)

namespace Table

/-- What the table declares about itself. -/
def shape : Table → TableShape
  | .root shape => shape
  | .child shape _ _ => shape

/-- The name of the table. -/
def name (table : Table) : TableName :=
  table.shape.name

/-- The columns of the table. -/
def columns (table : Table) : List Column :=
  table.shape.columns

/-- The positions of the primary-key columns. -/
def primaryKey (table : Table) : List Nat :=
  table.shape.primaryKey

/-- The table that this one hangs from. -/
def parent? : Table → Option Table
  | .root _ => none
  | .child _ parent _ => some parent

/-- The column pairs of the grouping join, if there is one. -/
def joinPairs? : Table → Option (List JoinPair)
  | .root _ => none
  | .child _ _ pairs => some pairs

/-- The column at a position. -/
def column? (table : Table) (position : Nat) : Option Column :=
  table.columns[position]?

/-- The column with a name. -/
def columnNamed? (table : Table) (name : String) : Option Column :=
  table.columns.find? (·.name == name)

/-- The number of tables above this one. -/
def depth : Table → Nat
  | .root _ => 0
  | .child _ parent _ => parent.depth + 1

/-- The tables from the root down to this one. -/
def lineage : Table → List Table
  | .root shape => [.root shape]
  | .child shape parent pairs => parent.lineage ++ [.child shape parent pairs]

/-- Whether a table of this one's name is in the lineage of the other. -/
def isAncestorOrSelfOf (table other : Table) : Bool :=
  other.lineage.any (·.name == table.name)

/-- The segment of a hierarchical key that holds this table's primary key. -/
def segmentLayout (table : Table) : HKeySegmentLayout :=
  ⟨table.name, table.primaryKey.map fun position => ⟨table.name, position⟩⟩

/-- The shape of the hierarchical keys of this table's rows. -/
def hkeyLayout (table : Table) : HKeyLayout :=
  table.lineage.map segmentLayout

/-- The position at which a row of this table holds the value of the column `target` of a table in
its lineage: the column itself if it is one's own, and otherwise the column joined to where the
parent holds it. -/
def localEquivalent? (target : ColumnRef) : Table → Option Nat
  | .root shape =>
    if target.table = shape.name then (shape.columns[target.position]?).map (·.position)
    else none
  | .child shape parent pairs =>
    if target.table = shape.name then (shape.columns[target.position]?).map (·.position)
    else
      match parent.localEquivalent? target with
      | none => none
      | some position => (pairs.find? (·.parent == position)).map (·.child)

@[simp] theorem length_lineage (table : Table) : table.lineage.length = table.depth + 1 := by
  induction table with
  | root shape => rfl
  | child shape parent pairs ih => simp [lineage, depth, ih]

end Table

end TableGroups
