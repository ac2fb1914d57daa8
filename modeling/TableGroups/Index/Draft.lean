import TableGroups.Index

/-!
# Drafting indexes

An `IndexDraft` collects the definition of an index.  Key columns come in any order until the list
is frozen, which sorts them by declared position, once.

`IndexDraft.build` checks the key columns one after the other against the leaf's lineage, finds the
branch they span, and completes them to the full column list: each column of the hierarchical key
that no column carries yet is appended, ascending, from the first table of the branch that holds
its value.
-/

namespace TableGroups

/-- An index definition that is still being written. -/
structure IndexDraft where
  name : IndexName
  id : Option IndexId
  unique : Bool
  constraint : IndexConstraint
  span : IndexSpan
  valid : Bool
  treeName : Option String
  leaf : Table
  keyColumns : List IndexColumn
  frozen : Bool
  deriving DecidableEq

namespace IndexDraft

/-- Start an index over one table. -/
def overTable (table : Table) (name : String) (unique : Bool) (constraint : IndexConstraint) :
    IndexDraft :=
  ⟨⟨table.name, name⟩, none, unique, constraint, .table, true, none, table, [], false⟩

/-- Start an index over a branch that ends in `leaf`.  It counts as invalid until it is said to be
valid. -/
def overBranch (leaf : Table) (name : String) (join : GroupJoin) : IndexDraft :=
  ⟨⟨leaf.name, name⟩, none, false, .key, .group join, false, none, leaf, [], false⟩

/-- Give the index an id. -/
def assignId (draft : IndexDraft) (id : Nat) : Except IndexError IndexDraft :=
  (IndexId.ofNat? id).map fun id => { draft with id := some id }

/-- Read id, validity and, for a group index, the join side from a packed word.  Higher bits of
the word say nothing. -/
def unpack (draft : IndexDraft) (word : Nat) : Except IndexError IndexDraft :=
  (IndexId.ofNat? (word % 0x10000)).map fun id =>
    { draft with
      id := some id
      valid := word.testBit 16
      span := draft.span.withJoin (if word.testBit 17 then .right else .left) }

/-- Say whether the index is valid. -/
def setValid (draft : IndexDraft) (valid : Bool) : IndexDraft :=
  { draft with valid }

/-- Name the tree in which the index is kept. -/
def setTreeName (draft : IndexDraft) (treeName : String) : IndexDraft :=
  { draft with treeName := some treeName }

/-- Add a key column. -/
def addColumn (draft : IndexDraft) (column : IndexColumn) : Except IndexError IndexDraft :=
  if draft.frozen then .error (.columnsFrozen draft.name)
  else .ok { draft with keyColumns := draft.keyColumns ++ [column] }

/-- Add the column of a table with a name as a key column. -/
def addColumnNamed (draft : IndexDraft) (table : Table) (column : String) (position : Nat)
    (direction : Direction) : Except IndexError IndexDraft :=
  match table.columnNamed? column with
  | none => .error (.unknownColumn draft.name table.name column)
  | some found => draft.addColumn ⟨table.name, found, position, direction⟩

/-- The columns by declared position; columns at one position keep their order. -/
def sortColumns (columns : List IndexColumn) : List IndexColumn :=
  columns.mergeSort fun a b => decide (a.position ≤ b.position)

/-- Close the column list and sort it.  An open list was not sorted before, and as long as no column
was added it is empty, so no mark has to say whether it needs sorting. -/
def freeze (draft : IndexDraft) : IndexDraft :=
  if draft.frozen then draft
  else { draft with keyColumns := sortColumns draft.keyColumns, frozen := true }

/-- The table that a key column is to be found in, and its depth: the leaf itself for an index over
one table, and for a group index the first table of the lineage with the column's table name. -/
def homeOf? (draft : IndexDraft) (column : IndexColumn) : Option (Table × Nat) :=
  match draft.span with
  | .table => if column.table = draft.leaf.name then some (draft.leaf, draft.leaf.depth) else none
  | .group _ => draft.leaf.lineage.zipIdx.find? (·.1.name == column.table)

/-- The depth of a key column's table, if the column is a fair one to come after `earlier`. -/
def columnDepth (draft : IndexDraft) (earlier : List IndexColumn) (column : IndexColumn) :
    Except IndexError Nat :=
  if earlier.any (·.position == column.position) then
    .error (.duplicatePosition draft.name column.position)
  else
    match draft.homeOf? column with
    | none => .error (.columnOutsideBranch draft.name column.table)
    | some (table, depth) =>
      if table.column? column.column.position = some column.column then .ok depth
      else .error (.unknownColumn draft.name column.table column.column.name)

/-- The depths of the key columns' tables, or the first thing that is wrong with a column. -/
def columnDepths (draft : IndexDraft) (earlier : List IndexColumn) :
    List IndexColumn → Except IndexError (List Nat)
  | [] => .ok []
  | column :: rest => do
    let depth ← draft.columnDepth earlier column
    let depths ← draft.columnDepths (earlier ++ [column]) rest
    return depth :: depths

/-- The first table of a branch that holds the value of a hierarchical-key column, and the column
it holds it in. -/
def supplier? (branch : List Table) (target : ColumnRef) : Option (TableName × Column) :=
  branch.findSome? fun table =>
    ((table.localEquivalent? target).bind table.column?).map fun column => (table.name, column)

/-- Append a column for each hierarchical-key column that none of the columns carries yet. -/
def complete (index : IndexName) (branch : List Table) :
    List ColumnRef → List IndexColumn → Except IndexError (List IndexColumn)
  | [], columns => .ok columns
  | target :: rest, columns =>
    if (sourcePosition? branch columns target).isSome then complete index branch rest columns
    else
      match supplier? branch target with
      | none => .error (.hkeyColumnUnavailable index target)
      | some (table, column) =>
        complete index branch rest (columns ++ [⟨table, column, columns.length, .asc⟩])

/-- The finished index, or the first thing that is wrong with the draft. -/
def build (draft : IndexDraft) : Except IndexError Index := do
  let draft := draft.freeze
  if draft.keyColumns.isEmpty then
    throw (.noColumns draft.name)
  let depths ← draft.columnDepths [] draft.keyColumns
  let rootDepth := depths.foldl min draft.leaf.depth
  let branch := draft.leaf.lineage.drop rootDepth
  let allColumns ← complete draft.name branch draft.leaf.hkeyLayout.columns draft.keyColumns
  return {
    name := draft.name
    id := draft.id
    unique := draft.unique
    constraint := draft.constraint
    span := draft.span
    valid := draft.valid
    treeName := draft.treeName.getD draft.name.display
    leaf := draft.leaf
    rootDepth
    keyColumns := draft.keyColumns
    allColumns }

end IndexDraft

end TableGroups
