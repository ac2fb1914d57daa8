import TableGroups.Cursor.Tree
import TableGroups.Proofs.Cursor.Invariant
import TableGroups.Proofs.Cursor.Scan

/-!
# The protocol of cursors

The user of a cursor opens it, asks it for rows and closes it, in any order and as often as it
likes, and the stores may change between any two calls.  A `Usage` is a cursor among its stores
together with what was replied so far.

Whatever a cursor reads from, its state says what a call may do (`Cursor.FollowsProtocol`).  An open
cursor cannot be opened and a closed one cannot be asked for a row, and such a call changes nothing.
A row leaves the cursor active, the end of the rows leaves it drained, and closing leaves it closed.
Cursors over given rows and scans follow the protocol, and so do intersections, whether or not their
inputs do.
-/

namespace TableGroups

/-! ### Calls and replies -/

/-- A call of the user of a cursor. -/
inductive CursorCall where
  | openOn
  | advance
  | close
  deriving DecidableEq

/-- What a call that does not fail answers. -/
inductive CursorAnswer where
  | opened
  | row (row : Row)
  | ended
  | closed
  deriving DecidableEq

/-- Make a call on a cursor. -/
def Cursor.perform {γ : Type} [Cursor γ] (stores : Stores) (context : QueryContext) (c : γ) :
    CursorCall → Call γ CursorAnswer
  | .openOn =>
    let call := Cursor.openOn stores context c
    ⟨call.result.map fun _ => .opened, call.cursor, call.events⟩
  | .advance =>
    let call := Cursor.advance context c
    ⟨call.result.map fun answer => answer.elim .ended .row, call.cursor, call.events⟩
  | .close =>
    let (closed, events) := Cursor.close c
    ⟨.ok .closed, closed, events⟩

/-- What can be seen of a call: its result, the state of the cursor afterwards, and the events. -/
structure Reply where
  result : Except CursorError CursorAnswer
  state : CursorState
  events : List Event

/-- The answer of a call or the kind of its failure, and the state of the cursor afterwards. -/
def Reply.shown (reply : Reply) : Except FaultKind CursorAnswer × CursorState :=
  (reply.result.mapError (·.toFault.kind), reply.state)

/-- What the user of a cursor sees of a call. -/
def Call.reply {γ : Type} [Cursor γ] (call : Call γ CursorAnswer) : Reply :=
  ⟨call.result, Cursor.state call.cursor, call.events⟩

/-- What may happen to a cursor and its stores. -/
inductive UsageStep where
  /-- A call on the cursor. -/
  | call (context : QueryContext) (call : CursorCall)
  /-- A call on one of the stores. -/
  | change (store : StoreId) (call : StoreCall)

/-- A cursor among its stores. -/
structure Usage (γ : Type) where
  stores : Stores
  cursor : γ
  /-- What the calls on the cursor were replied, the first reply first. -/
  replies : List Reply

namespace Usage

variable {γ : Type} [Cursor γ]

/-- The usage after one step. -/
def step (usage : Usage γ) : UsageStep → Usage γ
  | .call context call =>
    let done := Cursor.perform usage.stores context usage.cursor call
    { usage with cursor := done.cursor, replies := usage.replies ++ [done.reply] }
  | .change store call =>
    { usage with
      stores := fun other =>
        if other = store then (usage.stores other).perform call else usage.stores other }

/-- The usage after steps made one after the other. -/
def run (usage : Usage γ) (steps : List UsageStep) : Usage γ :=
  steps.foldl step usage

/-- A usage in which nothing has happened. -/
def start (stores : Stores) (c : γ) : Usage γ :=
  ⟨stores, c, []⟩

section

variable (usage : Usage γ) (context : QueryContext) (call : CursorCall)

@[simp] theorem cursor_step_call : (usage.step (.call context call)).cursor =
    (Cursor.perform usage.stores context usage.cursor call).cursor := rfl

@[simp] theorem replies_step_call : (usage.step (.call context call)).replies =
    usage.replies ++ [(Cursor.perform usage.stores context usage.cursor call).reply] := rfl

end

variable {P : γ → Prop}

/-- What the calls on a cursor keep holds of the cursor in every usage. -/
theorem run_of_perform
    (hperform : ∀ stores context c call, P c → P (Cursor.perform stores context c call).cursor)
    {usage : Usage γ} (h : P usage.cursor) (steps : List UsageStep) :
    P (usage.run steps).cursor := by
  induction steps generalizing usage with
  | nil => exact h
  | cons step rest ih =>
    have hstep : P (usage.step step).cursor := by
      cases step with
      | call context call => exact hperform _ _ _ _ h
      | change store call => exact h
    exact ih hstep

end Usage

/-! ### States -/

namespace Lifecycle

variable {lifecycle : Lifecycle}

/-- What is open cannot be opened. -/
theorem start_of_open (h : lifecycle.state ≠ .closed) (kind : CursorKind) (context : QueryContext) :
    lifecycle.start kind context = .error (.alreadyOpen kind) := by
  rw [start, if_pos (by simpa [CursorState.isOpen] using h)]

theorem gate_of_closed (h : lifecycle.state = .closed) (kind : CursorKind) :
    lifecycle.gate kind = .error (.advancedWhileClosed kind) := by
  rw [gate, h]

theorem gate_of_drained (h : lifecycle.state = .drained) (kind : CursorKind) :
    lifecycle.gate kind = .ok false := by
  rw [gate, h]

theorem gate_eq_ok_true_iff {kind : CursorKind} :
    lifecycle.gate kind = .ok true ↔ lifecycle.state = .active := by
  unfold gate
  cases lifecycle.state <;> simp

theorem gate_eq_ok_false_iff {kind : CursorKind} :
    lifecycle.gate kind = .ok false ↔ lifecycle.state = .drained := by
  unfold gate
  cases lifecycle.state <;> simp

theorem state_drain (h : lifecycle.state = .active) : lifecycle.drain.state = .drained := by
  simp [drain, CursorState.isActive, h]

/-- Closing changes nothing of what is closed. -/
theorem close_of_closed (h : lifecycle.state = .closed) : lifecycle.close = lifecycle := by
  rw [close, ← h]

end Lifecycle

namespace Cursor

/-- The state that an answer to a request for a row leaves a cursor in. -/
def stateAfter : Option Row → CursorState
  | some _ => .active
  | none => .drained

/-- What a call does to the state of a cursor. -/
structure FollowsProtocol (γ : Type) [Cursor γ] : Prop where
  openOn_of_open (stores : Stores) (context : QueryContext) {c : γ} :
    state c ≠ .closed →
      ∃ kind, openOn stores context c = ⟨.error (.alreadyOpen kind), c, []⟩
  state_of_openOn {stores : Stores} {context : QueryContext} {c opened : γ}
    {events : List Event} :
    openOn stores context c = ⟨.ok (), opened, events⟩ → state opened = .active
  advance_of_closed (context : QueryContext) {c : γ} :
    state c = .closed →
      ∃ kind, advance context c = ⟨.error (.advancedWhileClosed kind), c, []⟩
  advance_of_drained {context : QueryContext} {c : γ} :
    state c = .drained → context.interruption? = none → advance context c = ⟨.ok none, c, []⟩
  state_of_advance {context : QueryContext} {c after : γ} {answer : Option Row}
    {events : List Event} :
    advance context c = ⟨.ok answer, after, events⟩ → state after = stateAfter answer
  state_close (c : γ) : state (close c).1 = .closed

namespace FollowsProtocol

variable {γ : Type} [Cursor γ] {c : γ}

/-- Opening what is open changes nothing. -/
theorem cursor_openOn_of_open (h : FollowsProtocol γ) (hstate : state c ≠ .closed)
    (stores : Stores) (context : QueryContext) : (openOn stores context c).cursor = c := by
  obtain ⟨kind, hmisuse⟩ := h.openOn_of_open stores context hstate
  rw [hmisuse]

/-- Asking what is closed for a row changes nothing. -/
theorem cursor_advance_of_closed (h : FollowsProtocol γ) (hstate : state c = .closed)
    (context : QueryContext) : (advance context c).cursor = c := by
  obtain ⟨kind, hmisuse⟩ := h.advance_of_closed context hstate
  rw [hmisuse]

end FollowsProtocol

end Cursor

/-! ### Cursors over given rows -/

namespace RowsCursor

variable {stores : Stores} {context : QueryContext} {c after : RowsCursor} {events : List Event}

theorem eq_of_openOn (h : Cursor.openOn stores context c = ⟨.ok (), after, events⟩) :
    after =
      { c with position := 0, lifecycle := ⟨.active, context.config.recordMetrics⟩ } := by
  have hopen : RowsCursor.openOn context c = ⟨.ok (), after, events⟩ := h
  unfold RowsCursor.openOn at hopen
  split at hopen
  · cases hopen
  · next lifecycle hstart =>
    obtain ⟨-, rfl⟩ := Lifecycle.start_eq_ok_iff.mp hstart
    cases hopen
    rfl

/-- A cursor over given rows opens unless it is open. -/
theorem eq_of_openOn_error {e : CursorError}
    (h : Cursor.openOn stores context c = ⟨.error e, after, events⟩) : after = c := by
  have hopen : RowsCursor.openOn context c = ⟨.error e, after, events⟩ := h
  unfold RowsCursor.openOn at hopen
  split at hopen
  · cases hopen
    rfl
  · cases hopen

/-- A request that is answered moves the cursor on. -/
theorem exists_of_advance {answer : Option Row}
    (h : Cursor.advance context c = ⟨.ok answer, after, events⟩) :
    ∃ position lifecycle, after = { c with position, lifecycle } ∧
      lifecycle.state = Cursor.stateAfter answer := by
  have hadvance : RowsCursor.advance context c = ⟨.ok answer, after, events⟩ := h
  unfold RowsCursor.advance at hadvance
  split at hadvance
  · cases hadvance
  · next active hgate =>
    split at hadvance
    · cases hadvance
    · split at hadvance
      · next hactive =>
        subst hactive
        have hstate := Lifecycle.gate_eq_ok_true_iff.mp hgate
        split at hadvance
        · cases hadvance
          exact ⟨_, _, rfl, hstate⟩
        · cases hadvance
          exact ⟨_, _, rfl, Lifecycle.state_drain hstate⟩
      · next hidle =>
        cases hadvance
        rw [Bool.not_eq_true] at hidle
        subst hidle
        exact ⟨_, _, rfl, Lifecycle.gate_eq_ok_false_iff.mp hgate⟩

/-- A request that fails changes nothing. -/
theorem eq_of_advance_error {e : CursorError}
    (h : Cursor.advance context c = ⟨.error e, after, events⟩) : after = c := by
  have hadvance : RowsCursor.advance context c = ⟨.error e, after, events⟩ := h
  unfold RowsCursor.advance at hadvance
  split at hadvance
  · cases hadvance
    rfl
  · split at hadvance
    · cases hadvance
      rfl
    · split at hadvance
      · split at hadvance <;> cases hadvance
      · cases hadvance

theorem followsProtocol : Cursor.FollowsProtocol RowsCursor where
  openOn_of_open stores context c hopen := by
    refine ⟨.rows, ?_⟩
    show RowsCursor.openOn context c = _
    rw [openOn, Lifecycle.start_of_open hopen]
  state_of_openOn h := by
    rw [eq_of_openOn h]
    rfl
  advance_of_closed context c hclosed := by
    refine ⟨.rows, ?_⟩
    show RowsCursor.advance context c = _
    rw [advance, Lifecycle.gate_of_closed hclosed]
  advance_of_drained {context c} hdrained hgo := by
    show RowsCursor.advance context c = _
    simp [advance, Lifecycle.gate_of_drained hdrained, hgo]
  state_of_advance h := by
    obtain ⟨_, _, rfl, hstate⟩ := exists_of_advance h
    exact hstate
  state_close c := by
    show (RowsCursor.close c).1.lifecycle.state = .closed
    unfold close
    split
    · rfl
    · next hclosed => simpa [CursorState.isOpen] using hclosed

end RowsCursor

/-! ### Scans -/

namespace IndexScan

variable {stores : Stores} {context : QueryContext} {scan after : IndexScan} {events : List Event}

/-- A scan that opens has the window of its index's slot before it. -/
theorem exists_of_openOn (h : Cursor.openOn stores context scan = ⟨.ok (), after, events⟩) :
    ∃ slot, (stores scan.store).snapshot scan.index.name = .ok slot ∧
      after =
        { scan with
          pending := scan.window slot
          scanned := 0
          lifecycle := ⟨.active, context.config.recordMetrics⟩ } := by
  have hopen : scan.openOn stores context = ⟨.ok (), after, events⟩ := h
  unfold IndexScan.openOn at hopen
  split at hopen
  · cases hopen
  · next lifecycle hstart =>
    obtain ⟨-, rfl⟩ := Lifecycle.start_eq_ok_iff.mp hstart
    split at hopen
    · cases hopen
    · next slot hslot =>
      cases hopen
      exact ⟨slot, hslot, rfl⟩

/-- A closed scan that does not open stays closed. -/
theorem exists_of_openOn_error {e : CursorError} (hclosed : scan.lifecycle.state = .closed)
    (h : Cursor.openOn stores context scan = ⟨.error e, after, events⟩) :
    ∃ lifecycle, after = { scan with lifecycle } ∧ lifecycle.state = .closed := by
  have hopen : scan.openOn stores context = ⟨.error e, after, events⟩ := h
  unfold IndexScan.openOn at hopen
  split at hopen
  · cases hopen
    exact ⟨_, rfl, hclosed⟩
  · split at hopen
    · cases hopen
      exact ⟨_, rfl, rfl⟩
    · cases hopen

/-- A request that is answered moves the scan on. -/
theorem exists_of_advance {answer : Option Row}
    (h : Cursor.advance context scan = ⟨.ok answer, after, events⟩) :
    ∃ pending scanned lifecycle, after = { scan with pending, scanned, lifecycle } ∧
      lifecycle.state = Cursor.stateAfter answer := by
  have hadvance : scan.advance context = ⟨.ok answer, after, events⟩ := h
  unfold IndexScan.advance at hadvance
  split at hadvance
  · cases hadvance
  · next active hgate =>
    split at hadvance
    · cases hadvance
    · split at hadvance
      · next hactive =>
        subst hactive
        have hstate := Lifecycle.gate_eq_ok_true_iff.mp hgate
        split at hadvance
        · cases hadvance
          exact ⟨_, _, _, rfl, hstate⟩
        · cases hadvance
          exact ⟨_, _, _, rfl, Lifecycle.state_drain hstate⟩
      · next hidle =>
        cases hadvance
        rw [Bool.not_eq_true] at hidle
        subst hidle
        exact ⟨_, _, _, rfl, Lifecycle.gate_eq_ok_false_iff.mp hgate⟩

/-- A request that fails changes nothing. -/
theorem eq_of_advance_error {e : CursorError}
    (h : Cursor.advance context scan = ⟨.error e, after, events⟩) : after = scan := by
  have hadvance : scan.advance context = ⟨.error e, after, events⟩ := h
  unfold IndexScan.advance at hadvance
  split at hadvance
  · cases hadvance
    rfl
  · split at hadvance
    · cases hadvance
      rfl
    · split at hadvance
      · split at hadvance <;> cases hadvance
      · cases hadvance

theorem followsProtocol : Cursor.FollowsProtocol IndexScan where
  openOn_of_open stores context scan hopen := by
    refine ⟨.indexScan, ?_⟩
    show scan.openOn stores context = _
    rw [openOn, Lifecycle.start_of_open hopen]
  state_of_openOn h := by
    obtain ⟨_, _, rfl⟩ := exists_of_openOn h
    rfl
  advance_of_closed context scan hclosed := by
    refine ⟨.indexScan, ?_⟩
    show scan.advance context = _
    rw [advance, Lifecycle.gate_of_closed hclosed]
  advance_of_drained hdrained hgo := advance_drained hdrained hgo
  state_of_advance h := by
    obtain ⟨_, _, _, rfl, hstate⟩ := exists_of_advance h
    exact hstate
  state_close scan := by
    show scan.close.1.lifecycle.state = .closed
    unfold close
    split
    · rfl
    · next hclosed => simpa [CursorState.isOpen] using hclosed

end IndexScan

/-! ### Intersections -/

namespace Intersection

variable {L R : Type} [Cursor L] [Cursor R] {stores : Stores} {context : QueryContext}
  {m after : Intersection L R} {events : List Event}

/-- A request that is answered asks for the next row of the merge, unless the merge is over, and
counts the row that it returns. -/
theorem exists_of_advance {answer : Option Row}
    (h : Cursor.advance context m = ⟨.ok answer, after, events⟩) :
    (m.lifecycle.state = .drained ∧ answer = none ∧ after = m) ∨
      (m.lifecycle.state = .active ∧
        ∃ asked lifecycle, m.nextRow context = ⟨.ok answer, asked, events⟩ ∧
          after =
            { asked with
              stats :=
                { asked.stats with emitted := asked.stats.emitted + answer.toList.length }
              lifecycle } ∧
          lifecycle.state = Cursor.stateAfter answer) := by
  have hadvance : m.advance context = ⟨.ok answer, after, events⟩ := h
  unfold Intersection.advance at hadvance
  split at hadvance
  · cases hadvance
  · next active hgate =>
    split at hadvance
    · cases hadvance
    · split at hadvance
      · next hactive =>
        subst hactive
        have hstate := Lifecycle.gate_eq_ok_true_iff.mp hgate
        refine .inr ⟨hstate, ?_⟩
        split at hadvance
        · cases hadvance
        · next ended _ hstep =>
          cases hadvance
          have hended : ended.lifecycle.state = .active := by
            rw [lifecycle_nextRow hstep, hstate]
          exact ⟨ended, _, hstep, rfl, Lifecycle.state_drain hended⟩
        · next merged _ hstep =>
          cases hadvance
          refine ⟨merged, _, hstep, rfl, ?_⟩
          rw [lifecycle_nextRow hstep, hstate]
          rfl
      · next hidle =>
        cases hadvance
        rw [Bool.not_eq_true] at hidle
        subst hidle
        exact .inl ⟨Lifecycle.gate_eq_ok_false_iff.mp hgate, rfl, rfl⟩

/-- An open intersection that fails to answer a request is closed. -/
theorem exists_of_advance_error {e : CursorError} (hopen : m.lifecycle.state ≠ .closed)
    (h : Cursor.advance context m = ⟨.error e, after, events⟩) :
    ∃ stopped : Intersection L R, after = stopped.close.1 := by
  have hadvance : m.advance context = ⟨.error e, after, events⟩ := h
  unfold Intersection.advance at hadvance
  split at hadvance
  · next hgate =>
    unfold Lifecycle.gate at hgate
    cases hstate : m.lifecycle.state <;> simp_all
  · split at hadvance
    · cases hadvance
      exact ⟨m, rfl⟩
    · split at hadvance
      · split at hadvance
        · next stopped _ _ =>
          cases hadvance
          exact ⟨stopped, rfl⟩
        · cases hadvance
        · cases hadvance
      · cases hadvance

/-- A closed intersection that does not open has opened the inputs in turn, and closed the left one
again if the right one did not open. -/
theorem exists_of_openOn_error {e : CursorError} (hclosed : m.lifecycle.state = .closed)
    (h : Cursor.openOn stores context m = ⟨.error e, after, events⟩) :
    after.lifecycle.state = .closed ∧
      ((∃ leftEvents, Cursor.openOn stores context m.left.cursor =
            ⟨.error e, after.left.cursor, leftEvents⟩ ∧
          after.right.cursor = m.right.cursor) ∨
        ∃ left rightEvents, after.left.cursor = (Cursor.close left).1 ∧
          Cursor.openOn stores context m.right.cursor =
            ⟨.error e, after.right.cursor, rightEvents⟩) := by
  have hopen : m.openOn stores context = ⟨.error e, after, events⟩ := h
  unfold Intersection.openOn at hopen
  split at hopen
  · next hstart =>
    rw [Lifecycle.start_eq_ok_iff.mpr ⟨hclosed, rfl⟩] at hstart
    cases hstart
  · dsimp only [Input.reset] at hopen
    split at hopen
    · next hleft =>
      cases hopen
      exact ⟨rfl, .inl ⟨_, hleft, rfl⟩⟩
    · next left _ _ =>
      split at hopen
      · next hright =>
        cases hopen
        exact ⟨rfl, .inr ⟨left, _, rfl, hright⟩⟩
      · cases hopen

theorem followsProtocol : Cursor.FollowsProtocol (Intersection L R) where
  openOn_of_open stores context m hopen := by
    refine ⟨.intersection, ?_⟩
    show m.openOn stores context = _
    rw [openOn, Lifecycle.start_of_open hopen]
  state_of_openOn h := by
    obtain ⟨_, _, _, _, _, _, rfl⟩ := exists_of_openOn h
    rfl
  advance_of_closed context m hclosed := by
    refine ⟨.intersection, ?_⟩
    show m.advance context = _
    rw [advance, Lifecycle.gate_of_closed hclosed]
  advance_of_drained {context m} hdrained hgo := by
    show m.advance context = _
    simp [advance, Lifecycle.gate_of_drained hdrained, hgo]
  state_of_advance h := by
    rcases exists_of_advance h with ⟨hdrained, rfl, rfl⟩ | ⟨_, _, _, _, rfl, hstate⟩
    · exact hdrained
    · exact hstate
  state_close m := rfl

/-- A request for a row that fails leaves the intersection closed. -/
theorem state_of_advance_error {m : Intersection L R} {e : CursorError}
    (h : (Cursor.advance context m).result = .error e) :
    (Cursor.advance context m).cursor.lifecycle.state = .closed := by
  by_cases hclosed : m.lifecycle.state = .closed
  · rw [followsProtocol.cursor_advance_of_closed hclosed]
    exact hclosed
  · obtain ⟨stopped, hstopped⟩ : ∃ stopped : Intersection L R,
        (Cursor.advance context m).cursor = stopped.close.1 :=
      exists_of_advance_error hclosed (congrArg (Call.mk · _ _) h)
    rw [hstopped]
    rfl

end Intersection

/-- Cursors of every shape follow the protocol. -/
theorem CursorShape.followsProtocol (shape : CursorShape) :
    Cursor.FollowsProtocol shape.Carrier := by
  cases shape with
  | rows => exact RowsCursor.followsProtocol
  | scan => exact IndexScan.followsProtocol
  | intersection left right => exact Intersection.followsProtocol

end TableGroups
