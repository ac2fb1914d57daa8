import TableGroups.Name
import TableGroups.SortedMap

/-!
# Metrics

Cursors report what they do as a list of events.  `Counters.record` adds an event to the running
totals; a list of events is counted one by one, so what a run adds to the totals depends on its
events alone.

Totals per index are kept under the index's name as text.  A report lists them in the order of
these texts with the average number of rows per scan.
-/

namespace TableGroups

/-- The kinds of cursors. -/
inductive CursorKind where
  | indexScan
  | intersection
  | rows
  deriving DecidableEq

/-- How messages name a kind of cursor. -/
def CursorKind.label : CursorKind → String
  | .indexScan => "index scan"
  | .intersection => "ordered intersection"
  | .rows => "rows"

/-- Something that a cursor reports. -/
inductive Event where
  /-- A cursor was opened. -/
  | cursorOpened (kind : CursorKind)
  /-- A cursor was closed, and had returned this many rows. -/
  | cursorClosed (kind : CursorKind) (rows : Nat)
  /-- A scan of an index ended, and had read this many rows. -/
  | rowsScanned (index : IndexName) (rows : Nat)
  /-- An intersection ended. -/
  | intersectionFinished (matched unmatchedEmitted discarded : Nat)
  /-- A cursor gave up. -/
  | cursorFailed (kind : CursorKind)
  /-- A cursor found its query stopped. -/
  | cancelled
  deriving DecidableEq

/-- Totals of one index. -/
structure IndexCounters where
  scans : Nat
  rowsScanned : Nat
  deriving DecidableEq

instance : Inhabited IndexCounters := ⟨⟨0, 0⟩⟩

/-- Running totals of all events. -/
structure Counters where
  cursorsOpened : Nat
  cursorsClosed : Nat
  cursorErrors : Nat
  cancellations : Nat
  indexScans : Nat
  rowsScanned : Nat
  intersections : Nat
  intersectRowsEmitted : Nat
  intersectMatched : Nat
  intersectUnmatchedEmitted : Nat
  intersectRowsDiscarded : Nat
  indexes : SortedMap String IndexCounters

namespace Counters

/-- Nothing has been counted. -/
def zero : Counters := ⟨0, 0, 0, 0, 0, 0, 0, 0, 0, 0, 0, .empty⟩

/-- Count the rows of one scan of an index. -/
def recordScan (counters : Counters) (index : String) (rows : Nat) : Counters :=
  let before := (counters.indexes.find? index).getD default
  { counters with
    rowsScanned := counters.rowsScanned + rows
    indexes := counters.indexes.insert index ⟨before.scans + 1, before.rowsScanned + rows⟩ }

/-- Count one event. -/
def record (counters : Counters) : Event → Counters
  | .cursorOpened kind =>
    let counters := { counters with cursorsOpened := counters.cursorsOpened + 1 }
    match kind with
    | .indexScan => { counters with indexScans := counters.indexScans + 1 }
    | .intersection => { counters with intersections := counters.intersections + 1 }
    | .rows => counters
  | .cursorClosed kind rows =>
    let counters := { counters with cursorsClosed := counters.cursorsClosed + 1 }
    match kind with
    | .intersection =>
      { counters with intersectRowsEmitted := counters.intersectRowsEmitted + rows }
    | _ => counters
  | .rowsScanned index rows => counters.recordScan index.display rows
  | .intersectionFinished matched unmatchedEmitted discarded =>
    { counters with
      intersectMatched := counters.intersectMatched + matched
      intersectUnmatchedEmitted := counters.intersectUnmatchedEmitted + unmatchedEmitted
      intersectRowsDiscarded := counters.intersectRowsDiscarded + discarded }
  | .cursorFailed _ => { counters with cursorErrors := counters.cursorErrors + 1 }
  | .cancelled => { counters with cancellations := counters.cancellations + 1 }

/-- Count events in order. -/
def recordAll (counters : Counters) (events : List Event) : Counters :=
  events.foldl record counters

end Counters

/-- What a report says of one index. -/
structure IndexSummary where
  index : String
  scans : Nat
  rowsScanned : Nat
  averageRowsPerScan : Float

/-- The summaries of all indexes that were scanned, in the order of their names as text. -/
def Counters.summaries (counters : Counters) : List IndexSummary :=
  counters.indexes.entries.map fun (index, totals) =>
    { index
      scans := totals.scans
      rowsScanned := totals.rowsScanned
      averageRowsPerScan :=
        if totals.scans = 0 then 0 else Float.ofNat totals.rowsScanned / Float.ofNat totals.scans }

end TableGroups
