import TableGroups.KeyComparator
import TableGroups.QueryContext
import TableGroups.Row
import TableGroups.Store.Error

/-!
# Failures of cursors

What can stop a cursor.  The failures of a merge name the input and the rows they are about, so a
reader can look for the reason in the right place.
-/

namespace TableGroups

/-- One of the two inputs of an intersection. -/
inductive Side where
  | left
  | right
  deriving DecidableEq

namespace Side

/-- How messages name an input. -/
def label : Side → String
  | .left => "left"
  | .right => "right"

/-- The other input. -/
def other : Side → Side
  | .left => .right
  | .right => .left

end Side

/-- Why a call on a cursor fails. -/
inductive CursorError where
  /-- A cursor that is open was opened. -/
  | alreadyOpen (kind : CursorKind)
  /-- A cursor that is closed was asked for a row. -/
  | advancedWhileClosed (kind : CursorKind)
  /-- The query must not go on. -/
  | interrupted (reason : Interruption)
  /-- The store of a scan does not have what the scan needs. -/
  | store (error : StoreError)
  /-- Rows of the two inputs cannot be compared. -/
  | comparison (error : ComparisonError)
  /-- An input went backwards in the order that it was declared to be in. -/
  | outOfOrder (side : Side) (directions : List Direction) (previous current : Row)
  deriving DecidableEq

/-- The failure as it is reported. -/
def CursorError.toFault : CursorError → Fault
  | .alreadyOpen kind => ⟨.stateMisuse, .cursor, s!"{kind.label} cursor is already open"⟩
  | .advancedWhileClosed kind =>
    ⟨.stateMisuse, .cursor, s!"{kind.label} cursor advanced while closed"⟩
  | .interrupted reason => reason.toFault
  | .store error => error.toFault
  | .comparison error => error.toFault
  | .outOfOrder side directions previous current =>
    ⟨.invariantViolation, .executor,
      s!"executor invariant violated: intersection {side.label} input emitted out-of-order key " ++
        s!"for {directionLabels directions} (previous row: {previous.display}, " ++
        s!"current row: {current.display})"⟩

end TableGroups
