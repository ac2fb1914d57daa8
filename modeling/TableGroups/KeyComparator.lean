import TableGroups.Fault
import TableGroups.Value.Order
import TableGroups.Value.Text

/-!
# Comparing keys

A merge compares runs of fields of two rows, one direction per field, each run from an offset of
its own.  Fields are compared in the strict order of values, so two values of different kinds make
the comparison fail, unless an earlier field has decided it.
-/

namespace TableGroups

/-- Why two runs of fields cannot be compared. -/
inductive ComparisonError where
  /-- Two fields have no common order. -/
  | incomparable (left right : Value)
  /-- One of the rows ends before this field of the run. -/
  | outsideRow (field : Nat)
  deriving DecidableEq

/-- The failure as it is reported. -/
def ComparisonError.toFault : ComparisonError → Fault
  | .incomparable left right =>
    ⟨.incomparable, .executor, s!"cannot compare {left.detail} with {right.detail}"⟩
  | .outsideRow field =>
    ⟨.invariantViolation, .executor,
      s!"executor invariant violated: comparison field {field} lies outside the row"⟩

/-- How many fields a merge compares, and in which directions. -/
structure KeyComparator where
  directions : List Direction
  deriving DecidableEq

namespace KeyComparator

/-- The number of fields that are compared. -/
def width (comparator : KeyComparator) : Nat :=
  comparator.directions.length

/-- Compare two runs field by field until one decides; `field` numbers the first of them. -/
def compareFields (field : Nat) :
    List Direction → List Value → List Value → Except ComparisonError Ordering
  | [], _, _ => .ok .eq
  | d :: ds, a :: as, b :: bs =>
    match a.strictCompare? b with
    | none => .error (.incomparable a b)
    | some .eq => compareFields (field + 1) ds as bs
    | some outcome => .ok (d.orient outcome)
  | _ :: _, _, _ => .error (.outsideRow field)

/-- Compare the fields of two rows from an offset on in each. -/
def compareRuns (comparator : KeyComparator) (left : List Value) (leftOffset : Nat)
    (right : List Value) (rightOffset : Nat) : Except ComparisonError Ordering :=
  compareFields 0 comparator.directions (left.drop leftOffset) (right.drop rightOffset)

end KeyComparator

end TableGroups
