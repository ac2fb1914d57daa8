import TableGroups.Index.Composition
import TableGroups.SortedMap
import TableGroups.Store.Error
import TableGroups.Store.Search
import TableGroups.Value.Order

/-!
# Index storage

A store keeps, for each registered index, its entries in index order; an entry is one index row.
A new entry goes behind the entries that compare equal to it.

Rows come in two ways.  `insertIndexRow` takes a row of the index itself and checks it against the
index.  `insertTableRow` takes a row of a table, checks it against the table, and writes what each
registered index over that table makes of it, in the order of the indexes' names.

A snapshot is the index and its entries at one moment.  Bounds of a key range are places in a
snapshot, found by a probe that compares an entry with the bound.
-/

namespace TableGroups

namespace Index

/-- The order in which the index keeps its rows. -/
def compareRows (index : Index) (a b : List Value) : Ordering :=
  compareAlong index.directions a b

end Index

/-- A registered index and its entries, in index order. -/
structure IndexSnapshot where
  index : Index
  entries : List (List Value)
  deriving DecidableEq

namespace IndexSnapshot

/-- The first place whose entry does not lie before the probe. -/
def lowerBound (snapshot : IndexSnapshot) (probe : List Value → Ordering) : Nat :=
  boundary (fun entry => probe entry == .lt) snapshot.entries

/-- The first place whose entry lies after the probe. -/
def upperBound (snapshot : IndexSnapshot) (probe : List Value → Ordering) : Nat :=
  boundary (fun entry => probe entry != .gt) snapshot.entries

/-- The snapshot with one more entry, behind those that do not come after it. -/
def insert (snapshot : IndexSnapshot) (row : List Value) : IndexSnapshot :=
  { snapshot with
    entries :=
      snapshot.entries.insertIdx
        (snapshot.upperBound fun entry => snapshot.index.compareRows entry row) row }

end IndexSnapshot

/-- Check a row against the columns of an index. -/
def checkIndexRow (index : Index) (row : List Value) : Except StoreError Unit :=
  if row.length = index.width then
    match (index.allColumns.zip row).find? fun (column, value) =>
      !value.fits column.column.kind with
    | some (column, value) => .error (.indexField index.name column value)
    | none => .ok ()
  else .error (.indexRowWidth index.name index.width row.length)

/-- Whether a column of a table takes a value: it fits, and it is null only if it may be. -/
def Column.accepts (column : Column) (value : Value) : Bool :=
  value.fits column.kind && (!value.isNull || column.nullable)

/-- Check a row against the columns of a table. -/
def checkTableRow (table : Table) (row : List Value) : Except StoreError Unit :=
  if row.length = table.columns.length then
    match (table.columns.zip row).find? fun (column, value) => !column.accepts value with
    | some (column, value) => .error (.tableField table.name column value)
    | none => .ok ()
  else .error (.tableRowWidth table.name table.columns.length row.length)

/-- The registered indexes, each with its entries. -/
structure IndexStore where
  slots : SortedMap IndexName IndexSnapshot

namespace IndexStore

/-- A store without indexes. -/
def empty : IndexStore := ⟨.empty⟩

instance : Inhabited IndexStore := ⟨empty⟩

/-- The index of a name and its entries, now. -/
def snapshot (store : IndexStore) (name : IndexName) : Except StoreError IndexSnapshot :=
  match store.slots.find? name with
  | some slot => .ok slot
  | none => .error (.unknownIndex name)

/-- The number of entries of an index. -/
def size (store : IndexStore) (name : IndexName) : Except StoreError Nat :=
  (store.snapshot name).map (·.entries.length)

/-- Register an index; it has no entries yet. -/
def register (store : IndexStore) (index : Index) : Except StoreError IndexStore :=
  if store.slots.contains index.name then .error (.alreadyRegistered index.name)
  else .ok ⟨store.slots.insert index.name ⟨index, []⟩⟩

/-- Drop an index with its entries, and hand the index over. -/
def drop (store : IndexStore) (name : IndexName) : Except StoreError (Index × IndexStore) :=
  match store.slots.find? name with
  | some slot => .ok (slot.index, ⟨store.slots.erase name⟩)
  | none => .error (.unknownIndex name)

/-- Add an entry to a slot of the store. -/
def write (store : IndexStore) (slot : IndexSnapshot) (row : List Value) : IndexStore :=
  ⟨store.slots.insert slot.index.name (slot.insert row)⟩

/-- Insert a row of an index. -/
def insertIndexRow (store : IndexStore) (name : IndexName) (row : List Value) :
    Except StoreError IndexStore := do
  let slot ← store.snapshot name
  checkIndexRow slot.index row
  return store.write slot row

/-- The slots that rows of a table are written to, in name order: those of indexes over one table,
whose leaf has the table's name. -/
def slotsOver (store : IndexStore) (table : TableName) : List IndexSnapshot :=
  store.slots.values.filter fun slot =>
    slot.index.isTableIndex && slot.index.leaf.name == table

/-- Write a table row to the given slots, one after the other.  What was written before a slot
failed stays written. -/
def writeTableRow (table : TableName) (row : List Value) :
    List IndexSnapshot → IndexStore → Except StoreError Nat × IndexStore
  | [], store => (.ok 0, store)
  | slot :: rest, store =>
    match (Composition.ofIndex slot.index).indexRow? row with
    | none => (.error (.notMaintainable slot.index.name table), store)
    | some entry =>
      let (written, store) := writeTableRow table row rest (store.write slot entry)
      (written.map (· + 1), store)

/-- Insert a row of a table into every index over it: the number of entries written, or why not,
and the store afterwards. -/
def insertTableRow (store : IndexStore) (table : Table) (row : List Value) :
    Except StoreError Nat × IndexStore :=
  match checkTableRow table row with
  | .error e => (.error e, store)
  | .ok () => writeTableRow table.name row (store.slotsOver table.name) store

end IndexStore

end TableGroups
