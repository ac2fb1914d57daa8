import TableGroups.HKey
import TableGroups.Index
import TableGroups.Ordinals

/-!
# From index rows to hierarchical keys

An `HKeyRecipe` rebuilds the hierarchical key of the leaf row from an index row alone.  It has one
segment per table of the leaf's lineage: the table's ordinal, and the index fields that hold its
primary key.  Read step by step it alternates between opening a segment and copying fields into
it, which is how `steps` shows it.
-/

namespace TableGroups

/-- How one segment of a key is made from an index row. -/
structure SegmentRecipe where
  ordinal : Nat
  positions : List Nat
  deriving DecidableEq

/-- How the key of an index's leaf rows is made from its index rows. -/
structure HKeyRecipe where
  index : IndexName
  rowWidth : Nat
  segments : List SegmentRecipe
  deriving DecidableEq

/-- One step of making a key. -/
inductive HKeyStep where
  /-- Open a segment of this ordinal. -/
  | ordinal (ordinal : Nat)
  /-- Copy the index field at this position into the open segment. -/
  | indexRow (position : Nat)
  deriving DecidableEq

namespace HKeyStep

/-- The ordinal, if the step opens a segment. -/
def ordinal? : HKeyStep → Option Nat
  | .ordinal n => some n
  | .indexRow _ => none

/-- The position, if the step copies a field. -/
def indexRowPosition? : HKeyStep → Option Nat
  | .ordinal _ => none
  | .indexRow p => some p

end HKeyStep

namespace HKeyRecipe

/-- The index field that holds a column of the key. -/
def position (index : Index) (target : ColumnRef) : Except IndexError Nat :=
  match sourcePosition? index.branch index.allColumns target with
  | some position => .ok position
  | none => .error (.hkeyColumnUnavailable index.name target)

/-- The recipe of the segment of one table. -/
def segment (index : Index) (ordinals : Ordinals) (layout : HKeySegmentLayout) :
    Except IndexError SegmentRecipe :=
  match ordinals.ordinal? layout.table with
  | none => .error (.missingOrdinal index.name layout.table)
  | some ordinal => do
    let positions ← layout.columns.mapM (position index)
    return ⟨ordinal, positions⟩

/-- The recipe of an index under the ordinals of a generation. -/
def ofIndex (index : Index) (ordinals : Ordinals) : Except IndexError HKeyRecipe := do
  let segments ← index.hkeyLayout.mapM (segment index ordinals)
  return ⟨index.name, index.width, segments⟩

/-- The recipe step by step. -/
def steps (recipe : HKeyRecipe) : List HKeyStep :=
  recipe.segments.flatMap fun segment =>
    .ordinal segment.ordinal :: segment.positions.map .indexRow

/-- The hierarchical key that an index row carries; the row must be of the index's width. -/
def hkey (recipe : HKeyRecipe) (row : List Value) : Except IndexError HKey :=
  if row.length = recipe.rowWidth then
    .ok ⟨recipe.segments.map fun segment =>
      ⟨segment.ordinal, segment.positions.filterMap (row[·]?)⟩⟩
  else .error (.rowArity recipe.index recipe.rowWidth row.length)

end HKeyRecipe

end TableGroups
