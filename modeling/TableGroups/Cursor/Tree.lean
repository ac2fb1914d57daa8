import TableGroups.Cursor.Intersection
import TableGroups.Cursor.Rows
import TableGroups.Cursor.Scan

/-!
# Cursor trees

Scans and cursors over given rows are the leaves of plans, intersections their inner nodes.  The
shape of a plan fixes the type of its cursor, so a statement about all plans is proved by induction
on shapes, with one case per kind of cursor.  A `CursorTree` is a cursor of any shape.
-/

namespace TableGroups

/-- The shape of a plan. -/
inductive CursorShape where
  | rows
  | scan
  | intersection (left right : CursorShape)
  deriving DecidableEq

namespace CursorShape

/-- The type of the cursors of a shape. -/
def Carrier : CursorShape → Type
  | .rows => RowsCursor
  | .scan => IndexScan
  | .intersection left right => Intersection left.Carrier right.Carrier

/-- Cursors of every shape follow the protocol. -/
instance instCursor : (shape : CursorShape) → Cursor shape.Carrier
  | .rows => inferInstanceAs (Cursor RowsCursor)
  | .scan => inferInstanceAs (Cursor IndexScan)
  | .intersection left right =>
    let _ := instCursor left
    let _ := instCursor right
    inferInstanceAs (Cursor (Intersection left.Carrier right.Carrier))

/-- The states of all cursors of a tree, the root first and left before right. -/
def states : (shape : CursorShape) → shape.Carrier → List CursorState
  | .rows, (c : RowsCursor) => [c.lifecycle.state]
  | .scan, (c : IndexScan) => [c.lifecycle.state]
  | .intersection left right, (m : Intersection left.Carrier right.Carrier) =>
    m.lifecycle.state :: (left.states m.left.cursor ++ right.states m.right.cursor)

/-- The states of all cursors of a tree as text, the inputs of a cursor in brackets behind it. -/
def outline : (shape : CursorShape) → shape.Carrier → String
  | .rows, (c : RowsCursor) => c.lifecycle.state.label
  | .scan, (c : IndexScan) => c.lifecycle.state.label
  | .intersection left right, (m : Intersection left.Carrier right.Carrier) =>
    m.lifecycle.state.label ++
      "[" ++ left.outline m.left.cursor ++ "," ++ right.outline m.right.cursor ++ "]"

end CursorShape

/-- A cursor of some shape. -/
structure CursorTree where
  shape : CursorShape
  cursor : shape.Carrier

namespace CursorTree

/-- A cursor over given rows as a tree. -/
def ofRows (c : RowsCursor) : CursorTree := ⟨.rows, c⟩

/-- An index scan as a tree. -/
def ofScan (scan : IndexScan) : CursorTree := ⟨.scan, scan⟩

/-- An intersection of two trees as a tree. -/
def ofIntersection {left right : CursorShape}
    (m : Intersection left.Carrier right.Carrier) : CursorTree :=
  ⟨.intersection left right, m⟩

/-- The type of the rows of the root. -/
def rowType (tree : CursorTree) : RowType :=
  Cursor.rowType tree.cursor

end CursorTree

end TableGroups
