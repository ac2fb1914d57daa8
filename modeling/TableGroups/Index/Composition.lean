import TableGroups.Index
import TableGroups.Value

/-!
# What an index row is made of

The `Composition` of an index says, for each field of an index row, where the value stands in a row
of the leaf table and which place it takes in the flat hierarchical key.  A field may have either,
both, or only a key place: a column of an ancestor need not be repeated in the leaf.

Reading one way it makes index rows from table rows (`indexRow?`), reading the other way it
recovers from an index row what the index holds of the table row (`tableRow`).
-/

namespace TableGroups

/-- Where each field of an index row comes from. -/
structure Composition where
  /-- Places in the leaf table's row. -/
  fieldPositions : List (Option Nat)
  /-- Places in the flat hierarchical key. -/
  hkeyPositions : List (Option Nat)
  deriving DecidableEq

namespace Composition

/-- The composition of an index's rows. -/
def ofIndex (index : Index) : Composition where
  fieldPositions := index.allColumns.map fun column =>
    index.leaf.localEquivalent? ⟨column.table, column.column.position⟩
  hkeyPositions := index.allColumns.map fun column =>
    index.hkeyLayout.columns.findIdx? (column.carries index.branch)

/-- The number of fields of an index row. -/
def width (composition : Composition) : Nat :=
  composition.fieldPositions.length

/-- Whether an index row has no fields. -/
def isEmpty (composition : Composition) : Bool :=
  composition.fieldPositions.isEmpty

/-- Where an index field stands in the leaf's row. -/
def fieldPosition? (composition : Composition) (position : Nat) : Option Nat :=
  composition.fieldPositions[position]?.join

/-- Which place of the flat hierarchical key an index field takes. -/
def hkeyPosition? (composition : Composition) (position : Nat) : Option Nat :=
  composition.hkeyPositions[position]?.join

/-- Whether every index field can be read from the leaf's row. -/
def coversTableRow (composition : Composition) : Bool :=
  composition.fieldPositions.all (·.isSome)

/-- The index row of a row of the leaf table, if the row has all of its fields. -/
def indexRow? (composition : Composition) (tableRow : List Value) : Option (List Value) :=
  composition.fieldPositions.mapM fun position => position.bind (tableRow[·]?)

/-- The row of the leaf table that an index row stands for, as far as the index holds it; all other
fields are null. -/
def tableRow (composition : Composition) (indexRow : List Value) (width : Nat) : List Value :=
  (indexRow.zip composition.fieldPositions).foldl
    (fun row (value, position) =>
      match position with
      | some p => row.set p value
      | none => row)
    (List.replicate width .null)

end Composition

end TableGroups
