import TableGroups.Cursor
import TableGroups.KeyRange
import TableGroups.RowOrdering

/-!
# Index scans

An `IndexScan` hands out the entries of an index that lie in a key range, forward or backward.  It
reads its store once, when it is opened; writes to the store show at the next opening.

An open scan holds a snapshot of the index and a window of places in it, which it takes from the
front or, if it runs backward, from the end.  Nothing changes a snapshot, so the two are kept
flattened here: as the list of the entries still to come, in the order in which they come.

Which orderings a scan can deliver is decided when it is planned.  An ordering has to name the
trailing columns of the index in order, and each column before them has to be pinned to one value
by the range.  If it asks for the declared direction of every column the scan runs forward, if it
asks for the reverse of every one the scan runs backward, and a mixture is not supported.
-/

namespace TableGroups

/-- Why a scan cannot be planned. -/
inductive ScanError where
  /-- The range bounds more columns than the index has. -/
  | rangeTooWide (index : IndexName) (bounded width : Nat)
  /-- A value of a bound does not fit its column. -/
  | rangeValue (index : IndexName) (column : IndexColumn) (value : Value)
  /-- The ordering names more fields than the index has. -/
  | orderingTooWide (index : IndexName) (fields width : Nat)
  /-- The ordering does not name the trailing fields in order. -/
  | orderingNotTrailing (index : IndexName) (first width : Nat)
  /-- The ordering starts behind a field that the range does not pin. -/
  | orderingUnbound (index : IndexName) (field : Nat)
  /-- The ordering asks for some columns as declared and for others reversed. -/
  | mixedDirections (index : IndexName) (directions : List Direction)
  deriving DecidableEq

/-- The failure as it is reported. -/
def ScanError.toFault : ScanError → Fault
  | .rangeTooWide index bounded width =>
    ⟨.invalidArgument, .executor,
      s!"key range of index '{index.display}' bounds {bounded} columns, the index has {width}"⟩
  | .rangeValue index column value =>
    ⟨.invalidArgument, .executor,
      s!"key range value {value.detail} does not fit column {column.display} " ++
        s!"of index '{index.display}'"⟩
  | .orderingTooWide index fields width =>
    ⟨.invalidArgument, .executor,
      s!"ordering names {fields} fields, index '{index.display}' rows have {width}"⟩
  | .orderingNotTrailing index first width =>
    ⟨.invalidArgument, .executor,
      s!"ordering of index '{index.display}' must name trailing fields {first}..{width} in order"⟩
  | .orderingUnbound index field =>
    ⟨.invalidArgument, .executor,
      s!"ordering of index '{index.display}' leaves field {field} unordered and unbound"⟩
  | .mixedDirections index directions =>
    ⟨.unsupported, .executor,
      s!"mixed-direction scan of index '{index.display}' ({directionLabels directions})"⟩

namespace Index

/-- The first value of a bound that does not fit its column. -/
def misfit? (index : Index) (bound : KeyBound) : Option (IndexColumn × Value) :=
  (index.allColumns.zip bound.values).find? fun (column, value) => !value.fits column.column.kind

/-- Check that a key range bounds columns of the index with values that fit them. -/
def checkRange (index : Index) (range : KeyRange) : Except ScanError Unit :=
  if index.width < range.width then .error (.rangeTooWide index.name range.width index.width)
  else
    match range.bounds.findSome? index.misfit? with
    | some (column, value) => .error (.rangeValue index.name column value)
    | none => .ok ()

/-- Whether a scan that delivers an ordering has to run backward.  Without an ordering it runs
forward. -/
def scansBackward (index : Index) (range : KeyRange) (ordering : RowOrdering) :
    Except ScanError Bool :=
  let first := index.width - ordering.length
  let declared := index.directions.drop first
  if ordering.isEmpty then .ok false
  else if index.width < ordering.length then
    .error (.orderingTooWide index.name ordering.length index.width)
  else if ordering.map (·.position) ≠ List.range' first ordering.length then
    .error (.orderingNotTrailing index.name first index.width)
  else if range.equalityPrefix < first then .error (.orderingUnbound index.name (first - 1))
  else if ordering.directions = declared then .ok false
  else if ordering.directions = declared.map Direction.reverse then .ok true
  else .error (.mixedDirections index.name ordering.directions)

end Index

/-- A cursor over the entries of an index in a key range. -/
structure IndexScan where
  store : StoreId
  index : Index
  range : KeyRange
  backward : Bool
  /-- The entries of the snapshot that are still in the window, in the order in which they come:
  from the front of the window on, or from its end on if the scan runs backward. -/
  pending : List (List Value)
  /-- How many rows were returned since the scan was opened. -/
  scanned : Nat
  lifecycle : Lifecycle
  deriving DecidableEq

namespace IndexScan

/-- Plan a scan of an index in a store. -/
def plan (store : StoreId) (index : Index) (range : KeyRange) (ordering : RowOrdering) :
    Except ScanError IndexScan := do
  index.checkRange range
  let backward ← index.scansBackward range ordering
  return ⟨store, index, range, backward, [], 0, .initial⟩

/-- The type of the rows that the scan returns. -/
def rowType (scan : IndexScan) : RowType :=
  .ofIndex scan.index

/-- How an entry lies to a bound, on the columns that the bound has values for. -/
def probe (scan : IndexScan) (bound : KeyBound) (entry : List Value) : Ordering :=
  scan.index.compareRows entry bound.values

/-- The first place of a snapshot that the range covers. -/
def windowStart (scan : IndexScan) (snapshot : IndexSnapshot) : Nat :=
  match scan.range.low with
  | none => 0
  | some low =>
    if low.inclusive then snapshot.lowerBound (scan.probe low)
    else snapshot.upperBound (scan.probe low)

/-- The first place of a snapshot behind the range. -/
def windowStop (scan : IndexScan) (snapshot : IndexSnapshot) : Nat :=
  match scan.range.high with
  | none => snapshot.entries.length
  | some high =>
    if high.inclusive then snapshot.upperBound (scan.probe high)
    else snapshot.lowerBound (scan.probe high)

/-- The entries of a snapshot that the scan returns, in the order in which it returns them. -/
def window (scan : IndexScan) (snapshot : IndexSnapshot) : List (List Value) :=
  let covered := (snapshot.entries.take (scan.windowStop snapshot)).drop (scan.windowStart snapshot)
  if scan.backward then covered.reverse else covered

/-- Open the scan on the entries that its store has now. -/
def openOn (stores : Stores) (context : QueryContext) (scan : IndexScan) : Call IndexScan Unit :=
  match scan.lifecycle.start .indexScan context with
  | .error e => ⟨.error e, scan, []⟩
  | .ok lifecycle =>
    match (stores scan.store).snapshot scan.index.name with
    | .error e => ⟨.error (.store e), { scan with lifecycle := lifecycle.close }, []⟩
    | .ok snapshot =>
      ⟨.ok (), { scan with pending := scan.window snapshot, scanned := 0, lifecycle },
        lifecycle.report [.cursorOpened .indexScan]⟩

/-- Return the next entry. -/
def advance (context : QueryContext) (scan : IndexScan) : Call IndexScan (Option Row) :=
  match scan.lifecycle.gate .indexScan with
  | .error e => ⟨.error e, scan, []⟩
  | .ok active =>
    match context.interruption? with
    | some reason => ⟨.error (.interrupted reason), scan, context.interruptionEvents⟩
    | none =>
      if active then
        match scan.pending with
        | entry :: rest =>
          ⟨.ok (some ⟨scan.rowType, entry⟩),
            { scan with pending := rest, scanned := scan.scanned + 1 }, []⟩
        | [] => ⟨.ok none, { scan with lifecycle := scan.lifecycle.drain }, []⟩
      else ⟨.ok none, scan, []⟩

/-- Close the scan. -/
def close (scan : IndexScan) : IndexScan × List Event :=
  if scan.lifecycle.state.isOpen then
    ({ scan with pending := [], lifecycle := scan.lifecycle.close },
      scan.lifecycle.report
        [.rowsScanned scan.index.name scan.scanned, .cursorClosed .indexScan scan.scanned])
  else (scan, [])

theorem remaining_advance {context : QueryContext} {scan after : IndexScan} {row : Row}
    {events : List Event} (h : scan.advance context = ⟨.ok (some row), after, events⟩) :
    after.pending.length < scan.pending.length := by
  unfold advance at h
  split at h
  · simp at h
  · split at h
    · simp at h
    · split at h
      · split at h
        · next more =>
          -- the entry that is returned is no longer pending
          simp only [Call.mk.injEq] at h
          rw [← h.2.1, more]
          simp
        · simp at h
      · simp at h

end IndexScan

instance : Cursor IndexScan where
  rowType := IndexScan.rowType
  state scan := scan.lifecycle.state
  openOn := IndexScan.openOn
  advance := IndexScan.advance
  close := IndexScan.close
  remaining scan := scan.pending.length
  remaining_advance := IndexScan.remaining_advance

end TableGroups
