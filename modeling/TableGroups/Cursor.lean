import TableGroups.Cursor.Error
import TableGroups.Store

/-!
# Cursors

A cursor hands out rows one at a time.  It is opened under a query context, advanced until it
answers that there are no more rows, and closed; it may be opened again afterwards.  The class
`Cursor` is this protocol.  Each call answers with a `Call`: the outcome, the cursor as the call
left it, and the events that the call reported.

Every cursor knows a bound on the rows it may still return, and returning a row lowers the bound
(`remaining_advance`).  So `pull`, which asks for rows up to a limit, has seen the end or a failure
once the limit exceeds the bound (`length_rows_pull_le`), and `collect` terminates.
-/

namespace TableGroups

/-- Stores are told apart by a number. -/
abbrev StoreId := Nat

/-- The stores as they are at the moment of a call. -/
abbrev Stores := StoreId → IndexStore

/-- Where a cursor is between being opened and being closed. -/
inductive CursorState where
  | closed
  /-- Open, and there may be more rows. -/
  | active
  /-- Open, and there are no more rows. -/
  | drained
  deriving DecidableEq

namespace CursorState

/-- How reports name a state. -/
def label : CursorState → String
  | .closed => "Closed"
  | .active => "Open"
  | .drained => "Drained"

/-- Whether the cursor is closed. -/
def isClosed (state : CursorState) : Bool :=
  state == .closed

/-- Whether the cursor is open and may have more rows. -/
def isActive (state : CursorState) : Bool :=
  state == .active

/-- Whether the cursor is open. -/
def isOpen (state : CursorState) : Bool :=
  state != .closed

end CursorState

/-- The state that every cursor keeps, and whether the context it was opened under records
metrics: closing has no context to ask. -/
structure Lifecycle where
  state : CursorState
  recordMetrics : Bool
  deriving DecidableEq

namespace Lifecycle

/-- A cursor that was never opened. -/
def initial : Lifecycle := ⟨.closed, false⟩

/-- The lifecycle of a cursor that is opened now; an open cursor cannot be. -/
def start (lifecycle : Lifecycle) (kind : CursorKind) (context : QueryContext) :
    Except CursorError Lifecycle :=
  if lifecycle.state.isOpen then .error (.alreadyOpen kind)
  else .ok ⟨.active, context.config.recordMetrics⟩

/-- Whether a cursor that is asked for a row may have one; a closed cursor must not be asked. -/
def gate (lifecycle : Lifecycle) (kind : CursorKind) : Except CursorError Bool :=
  match lifecycle.state with
  | .active => .ok true
  | .drained => .ok false
  | .closed => .error (.advancedWhileClosed kind)

/-- The lifecycle after the last row. -/
def drain (lifecycle : Lifecycle) : Lifecycle :=
  if lifecycle.state.isActive then { lifecycle with state := .drained } else lifecycle

/-- The lifecycle after closing. -/
def close (lifecycle : Lifecycle) : Lifecycle :=
  { lifecycle with state := .closed }

/-- The events of a cursor whose context records metrics; of any other, none. -/
def report (lifecycle : Lifecycle) (events : List Event) : List Event :=
  if lifecycle.recordMetrics then events else []

end Lifecycle

/-- What a call on a cursor leaves behind. -/
structure Call (γ α : Type) where
  result : Except CursorError α
  cursor : γ
  events : List Event

/-- Cursors: types of values that hand out rows one at a time. -/
class Cursor (γ : Type) where
  /-- The type of the rows that the cursor is meant for. -/
  rowType : γ → RowType
  /-- Where the cursor is. -/
  state : γ → CursorState
  /-- Open the cursor.  Fails if it is open. -/
  openOn : Stores → QueryContext → γ → Call γ Unit
  /-- Ask for the next row.  Answers with none, and keeps answering so, after the last one. -/
  advance : QueryContext → γ → Call γ (Option Row)
  /-- Close the cursor, whatever state it is in. -/
  close : γ → γ × List Event
  /-- How many more rows the cursor may return at most before it is opened again. -/
  remaining : γ → Nat
  /-- Returning a row lowers the number of rows to come. -/
  remaining_advance {context : QueryContext} {c after : γ} {row : Row} {events : List Event} :
    advance context c = ⟨.ok (some row), after, events⟩ → remaining after < remaining c

/-- Rows that were asked for one after the other, and what stopped it, if something did. -/
structure Pulled (γ : Type) where
  rows : List Row
  failure : Option CursorError
  cursor : γ
  events : List Event

namespace Cursor

variable {γ : Type} [Cursor γ]

/-- Ask for rows until there are no more, a call fails, or `limit` rows have come. -/
def pull (context : QueryContext) : Nat → γ → Pulled γ
  | 0, c => ⟨[], none, c, []⟩
  | limit + 1, c =>
    match advance context c with
    | ⟨.error e, after, events⟩ => ⟨[], some e, after, events⟩
    | ⟨.ok none, after, events⟩ => ⟨[], none, after, events⟩
    | ⟨.ok (some row), after, events⟩ =>
      let rest := pull context limit after
      ⟨row :: rest.rows, rest.failure, rest.cursor, events ++ rest.events⟩

/-- No more rows come than the cursor has left. -/
theorem length_rows_pull_le (context : QueryContext) (limit : Nat) (c : γ) :
    (pull context limit c).rows.length ≤ remaining c := by
  induction limit generalizing c with
  | zero => simp [pull]
  | succ limit ih =>
    rw [pull]
    split
    · simp
    · simp
    · next row after events h =>
      -- the row that came has lowered the bound for the others
      have lower := remaining_advance h
      have rest := ih after
      simp only [List.length_cons]
      omega

/-- Ask for rows until there are no more or a call fails. -/
def pullAll (context : QueryContext) (c : γ) : Pulled γ :=
  pull context (remaining c + 1) c

/-- Open a cursor, take all of its rows, and close it.  It is closed also when a call for a row
fails, but a cursor that cannot be opened is left alone. -/
def collect (stores : Stores) (context : QueryContext) (c : γ) : Call γ (List Row) :=
  match openOn stores context c with
  | ⟨.error e, c, events⟩ => ⟨.error e, c, events⟩
  | ⟨.ok (), c, events⟩ =>
    let pulled := pullAll context c
    let (closed, closing) := close pulled.cursor
    let result :=
      match pulled.failure with
      | some e => .error e
      | none => .ok pulled.rows
    ⟨result, closed, events ++ pulled.events ++ closing⟩

end Cursor

end TableGroups
