import TableGroups.Direction
import TableGroups.Value

/-!
# The two orders of values

`Value.strictCompare?` orders values that have a common order: values of one kind, and null, which
lies below all others.  Values of two different kinds have none.

`Value.canonicalCompare` is the total order in which an index keeps its entries.  It places the
kinds one after the other by `Value.kindRank` and falls back on the strict order inside a kind.

`compareAlong` extends the canonical order to index rows: column by column, each in its own
direction, over as many columns as both rows have.
-/

namespace TableGroups

namespace Value

/-- Place of a value's kind among the kinds, null first. -/
def kindRank : Value → Nat
  | .null => 0
  | .bool _ => 1
  | .int _ => 2
  | .uint _ => 3
  | .float64 _ => 4
  | .text _ => 5
  | .blob _ => 6

/-- The order of two values that have one: null is lowest, values of one kind are ordered by their
contents, and values of two kinds are not ordered. -/
def strictCompare? : Value → Value → Option Ordering
  | .null, .null => some .eq
  | .null, _ => some .lt
  | _, .null => some .gt
  | .bool a, .bool b => some (compare a b)
  | .int a, .int b => some (compare a b)
  | .uint a, .uint b => some (compare a b)
  | .float64 a, .float64 b => some (a.totalCompare b)
  | .text a, .text b => some (compare a b)
  | .blob a, .blob b => some (compare a b)
  | _, _ => none

/-- The total order of all values: by kind, then by contents. -/
def canonicalCompare (v w : Value) : Ordering :=
  (compare v.kindRank w.kindRank).then ((v.strictCompare? w).getD .eq)

end Value

/-- Compare two rows column by column in the canonical order, each column in its direction; the
first column that tells them apart decides.  Columns that one of the rows lacks are not
compared. -/
def compareAlong : List Direction → List Value → List Value → Ordering
  | d :: ds, a :: as, b :: bs => (d.orient (a.canonicalCompare b)).then (compareAlong ds as bs)
  | _, _, _ => .eq

/-- Sort values in the canonical order; values that compare equal keep their order. -/
def sortValues (values : List Value) : List Value :=
  values.mergeSort fun v w => v.canonicalCompare w != .gt

end TableGroups
