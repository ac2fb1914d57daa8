import TableGroups.Cursor

/-!
# Cursors over given rows

A `RowsCursor` hands out a list of rows in the order in which they are given.
-/

namespace TableGroups

/-- A cursor over a list of rows. -/
structure RowsCursor where
  rowType : RowType
  rows : List Row
  /-- How many rows were returned since the cursor was opened. -/
  position : Nat
  lifecycle : Lifecycle
  deriving DecidableEq

namespace RowsCursor

/-- A closed cursor over rows, which need not be of the cursor's type. -/
def ofRows (rowType : RowType) (rows : List Row) : RowsCursor :=
  ⟨rowType, rows, 0, .initial⟩

/-- A closed cursor over rows of its type, made from values. -/
def ofValues (rowType : RowType) (values : List (List Value)) : Except RowError RowsCursor := do
  let rows ← values.mapM (Row.make rowType)
  return ofRows rowType rows

/-- Open the cursor at its first row. -/
def openOn (context : QueryContext) (c : RowsCursor) : Call RowsCursor Unit :=
  match c.lifecycle.start .rows context with
  | .error e => ⟨.error e, c, []⟩
  | .ok lifecycle =>
    ⟨.ok (), { c with position := 0, lifecycle }, lifecycle.report [.cursorOpened .rows]⟩

/-- Return the row at the current position. -/
def advance (context : QueryContext) (c : RowsCursor) : Call RowsCursor (Option Row) :=
  match c.lifecycle.gate .rows with
  | .error e => ⟨.error e, c, []⟩
  | .ok active =>
    match context.interruption? with
    | some reason => ⟨.error (.interrupted reason), c, context.interruptionEvents⟩
    | none =>
      if active then
        match c.rows[c.position]? with
        | some row => ⟨.ok (some row), { c with position := c.position + 1 }, []⟩
        | none => ⟨.ok none, { c with lifecycle := c.lifecycle.drain }, []⟩
      else ⟨.ok none, c, []⟩

/-- Close the cursor. -/
def close (c : RowsCursor) : RowsCursor × List Event :=
  if c.lifecycle.state.isOpen then
    ({ c with lifecycle := c.lifecycle.close },
      c.lifecycle.report [.cursorClosed .rows c.position])
  else (c, [])

/-- How many rows lie behind the current position. -/
def remaining (c : RowsCursor) : Nat :=
  c.rows.length - c.position

theorem remaining_advance {context : QueryContext} {c after : RowsCursor} {row : Row}
    {events : List Event} (h : c.advance context = ⟨.ok (some row), after, events⟩) :
    after.remaining < c.remaining := by
  unfold advance at h
  split at h
  · simp at h
  · split at h
    · simp at h
    · split at h
      · split at h
        · next found =>
          -- there is a row at the position, so the position lies inside the list
          have inside := (List.getElem?_eq_some_iff.mp found).1
          simp only [Call.mk.injEq] at h
          rw [← h.2.1]
          simp only [remaining]
          omega
        · simp at h
      · simp at h

end RowsCursor

instance : Cursor RowsCursor where
  rowType := RowsCursor.rowType
  state c := c.lifecycle.state
  openOn _ := RowsCursor.openOn
  advance := RowsCursor.advance
  close := RowsCursor.close
  remaining := RowsCursor.remaining
  remaining_advance := RowsCursor.remaining_advance

end TableGroups
