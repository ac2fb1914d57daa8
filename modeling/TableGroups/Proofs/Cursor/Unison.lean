import TableGroups.Proofs.Cursor.OuterJoin
import TableGroups.Proofs.Cursor.Protocol

/-!
# Trees open and close as one

A cursor that reads from others opens them when it is opened and closes them when it is closed.  So
between two calls on the root of a tree either all of its cursors are closed or none is
(`QueryShape.states_in_unison`), whatever calls failed before: an input that could not be opened,
an index that was dropped, rows that cannot be compared, or a query that was stopped.

A query may be stopped at any moment, also while a request of the root is being answered.  Then the
root was asked under a context that let it go on, and a cursor below it is asked under another one.
A cursor that is `Watching` looks at the query for itself in this way.

What is asked of a cursor type is `Cursor.InUnison`: one predicate says that a cursor is closed with
all that it reads from, another that none of it is, and the calls lead from the one to the other.
A leaf has only its own state.  An intersection of inputs in unison is in unison
(`Intersection.inUnison`), because whatever fails, it closes both inputs before it fails itself.
-/

namespace TableGroups

/-! ### Cursors in unison -/

/-- The calls open and close a cursor together with all that it reads from.  `AllClosed` says that
all of it is closed and `AllOpen` that none of it is. -/
structure Cursor.InUnison {γ : Type} [Cursor γ] (AllClosed AllOpen : γ → Prop) : Prop where
  state_of_allClosed {c : γ} : AllClosed c → state c = .closed
  state_of_allOpen {c : γ} : AllOpen c → state c ≠ .closed
  openOn_ok {stores : Stores} {context : QueryContext} {c opened : γ} {events : List Event} :
    AllClosed c → openOn stores context c = ⟨.ok (), opened, events⟩ → AllOpen opened
  openOn_error {stores : Stores} {context : QueryContext} {c after : γ} {e : CursorError}
    {events : List Event} :
    AllClosed c → openOn stores context c = ⟨.error e, after, events⟩ → AllClosed after
  openOn_allOpen {stores : Stores} {context : QueryContext} {c : γ} :
    AllOpen c → AllOpen (openOn stores context c).cursor
  advance_ok : AnswersKeep AllOpen
  advance_error {context : QueryContext} {c after : γ} {e : CursorError} {events : List Event} :
    AllOpen c → advance context c = ⟨.error e, after, events⟩ → AllOpen after ∨ AllClosed after
  advance_allClosed {context : QueryContext} {c : γ} :
    AllClosed c → AllClosed (advance context c).cursor
  close_allClosed (c : γ) : AllClosed (close c).1
  close_of_allClosed {c : γ} : AllClosed c → close c = (c, [])

namespace Cursor.InUnison

variable {γ : Type} [Cursor γ] {AllClosed AllOpen : γ → Prop} {c : γ}

/-- Every call leaves all closed or none. -/
theorem perform (h : InUnison AllClosed AllOpen) (stores : Stores) (context : QueryContext) (c : γ)
    (call : CursorCall) (hc : AllClosed c ∨ AllOpen c) :
    AllClosed (Cursor.perform stores context c call).cursor ∨
      AllOpen (Cursor.perform stores context c call).cursor := by
  cases call with
  | close => exact .inl (h.close_allClosed c)
  | openOn =>
    show AllClosed (Cursor.openOn stores context c).cursor ∨
      AllOpen (Cursor.openOn stores context c).cursor
    rcases hc with hclosed | hopen
    · cases hcall : Cursor.openOn stores context c with
      | mk result after events =>
        cases result with
        | ok _ => exact .inr (h.openOn_ok hclosed hcall)
        | error e => exact .inl (h.openOn_error hclosed hcall)
    · exact .inr (h.openOn_allOpen hopen)
  | advance =>
    show AllClosed (Cursor.advance context c).cursor ∨ AllOpen (Cursor.advance context c).cursor
    rcases hc with hclosed | hopen
    · exact .inl (h.advance_allClosed hclosed)
    · cases hcall : Cursor.advance context c with
      | mk result after events =>
        cases result with
        | ok _ => exact .inr (h.advance_ok hcall hopen)
        | error e => exact (h.advance_error hopen hcall).symm

/-- In every usage of a closed cursor all is closed or none. -/
theorem run (h : InUnison AllClosed AllOpen) (hclosed : AllClosed c) (stores : Stores)
    (steps : List UsageStep) :
    AllClosed ((Usage.start stores c).run steps).cursor ∨
      AllOpen ((Usage.start stores c).run steps).cursor :=
  Usage.run_of_perform (fun stores context c call hc => h.perform stores context c call hc)
    (.inl hclosed) steps

end Cursor.InUnison

/-! ### Leaves and intersections -/

/-- A cursor that reads from no other is in unison, if no failure changes its state. -/
theorem Cursor.FollowsProtocol.inUnison {γ : Type} [Cursor γ] (h : FollowsProtocol γ)
    (hopenOn : ∀ {stores : Stores} {context : QueryContext} {c after : γ} {e : CursorError}
      {events : List Event},
      state c = .closed → openOn stores context c = ⟨.error e, after, events⟩ →
        state after = .closed)
    (hadvance : ∀ {context : QueryContext} {c after : γ} {e : CursorError} {events : List Event},
      state c ≠ .closed → advance context c = ⟨.error e, after, events⟩ → state after ≠ .closed)
    (hclose : ∀ {c : γ}, state c = .closed → close c = (c, [])) :
    InUnison (fun c : γ => state c = .closed) (fun c => state c ≠ .closed) where
  state_of_allClosed hclosed := hclosed
  state_of_allOpen hopen := hopen
  openOn_ok _ hcall := by simp [h.state_of_openOn hcall]
  openOn_error := hopenOn
  openOn_allOpen hopen := by rwa [h.cursor_openOn_of_open hopen]
  advance_ok {context c after answer events} hcall _ := by
    have hafter := h.state_of_advance hcall
    cases answer <;> simp [hafter, stateAfter]
  advance_error hopen hcall := .inl (hadvance hopen hcall)
  advance_allClosed hclosed := by rwa [h.cursor_advance_of_closed hclosed]
  close_allClosed := h.state_close
  close_of_allClosed := hclose

theorem RowsCursor.inUnison :
    Cursor.InUnison (fun c : RowsCursor => c.lifecycle.state = .closed)
      (fun c => c.lifecycle.state ≠ .closed) := by
  refine followsProtocol.inUnison (fun hclosed h => ?_) (fun hopen h => ?_) (fun {c} hclosed => ?_)
  · rwa [eq_of_openOn_error h]
  · rwa [eq_of_advance_error h]
  · have hstate : c.lifecycle.state = .closed := hclosed
    show RowsCursor.close c = (c, [])
    simp [close, CursorState.isOpen, hstate]

theorem IndexScan.inUnison :
    Cursor.InUnison (fun scan : IndexScan => scan.lifecycle.state = .closed)
      (fun scan => scan.lifecycle.state ≠ .closed) := by
  refine followsProtocol.inUnison (fun hclosed h => ?_) (fun hopen h => ?_)
    (fun {scan} hclosed => ?_)
  · obtain ⟨_, rfl, hstate⟩ := exists_of_openOn_error hclosed h
    exact hstate
  · rwa [eq_of_advance_error h]
  · have hstate : scan.lifecycle.state = .closed := hclosed
    show scan.close = (scan, [])
    simp [close, CursorState.isOpen, hstate]

/-- An intersection is in unison if its inputs are. -/
theorem Intersection.inUnison {L R : Type} [Cursor L] [Cursor R] {leftClosed leftOpen : L → Prop}
    {rightClosed rightOpen : R → Prop} (hleft : Cursor.InUnison leftClosed leftOpen)
    (hright : Cursor.InUnison rightClosed rightOpen) :
    Cursor.InUnison
      (fun m : Intersection L R =>
        m.lifecycle.state = .closed ∧ leftClosed m.left.cursor ∧ rightClosed m.right.cursor)
      (fun m => m.lifecycle.state ≠ .closed ∧ leftOpen m.left.cursor ∧ rightOpen m.right.cursor) :=
  have hclose (m : Intersection L R) : m.close.1.lifecycle.state = .closed ∧
      leftClosed m.close.1.left.cursor ∧ rightClosed m.close.1.right.cursor :=
    ⟨rfl, hleft.close_allClosed _, hright.close_allClosed _⟩
  { state_of_allClosed := fun h => h.1
    state_of_allOpen := fun h => h.1
    openOn_ok := by
      rintro stores context m opened events ⟨-, hl, hr⟩ h
      obtain ⟨left, right, _, _, hopenLeft, hopenRight, rfl⟩ := exists_of_openOn h
      exact ⟨nofun, hleft.openOn_ok hl hopenLeft, hright.openOn_ok hr hopenRight⟩
    openOn_error := by
      rintro stores context m after e events ⟨hclosed, hl, hr⟩ h
      obtain ⟨hstate, ⟨_, hopenLeft, hsame⟩ | ⟨left, _, hreleased, hopenRight⟩⟩ :=
        exists_of_openOn_error hclosed h
      · -- the left input did not open, and the right one was not tried
        exact ⟨hstate, hleft.openOn_error hl hopenLeft, hsame ▸ hr⟩
      · -- the right input did not open, and the left one was closed again
        exact ⟨hstate, hreleased ▸ hleft.close_allClosed left, hright.openOn_error hr hopenRight⟩
    openOn_allOpen := by
      rintro stores context m ⟨hopen, hl, hr⟩
      rw [followsProtocol.cursor_openOn_of_open hopen]
      exact ⟨hopen, hl, hr⟩
    advance_ok := by
      rintro context m after answer events h ⟨hopen, hl, hr⟩
      rcases exists_of_advance h with ⟨-, -, rfl⟩ | ⟨-, asked, _, hasked, rfl, hstate⟩
      · exact ⟨hopen, hl, hr⟩
      · have hinputs := inputs_of_nextRow hleft.advance_ok hright.advance_ok hl hr hasked
        refine ⟨?_, hinputs⟩
        cases answer <;> simp [hstate, Cursor.stateAfter]
    advance_error := by
      rintro context m after e events ⟨hopen, -, -⟩ h
      -- whatever failed, both inputs were closed before the failure was passed on
      obtain ⟨stopped, rfl⟩ := exists_of_advance_error hopen h
      exact .inr (hclose stopped)
    advance_allClosed := by
      rintro context m ⟨hclosed, hl, hr⟩
      rw [followsProtocol.cursor_advance_of_closed hclosed]
      exact ⟨hclosed, hl, hr⟩
    close_allClosed := hclose
    close_of_allClosed := by
      rintro m ⟨hclosed, hl, hr⟩
      show m.close = (m, [])
      simp only [close, hleft.close_of_allClosed hl, hright.close_of_allClosed hr,
        Lifecycle.close_of_closed hclosed]
      simp [CursorState.isOpen, hclosed] }

/-! ### Queries that are stopped during a request -/

/-- A cursor that looks at the query for itself.  Its requests see these contexts one after the
other, and the context of their caller when there are no more. -/
structure Watching (γ : Type) where
  cursor : γ
  sights : List QueryContext

namespace Watching

variable {γ : Type} [Cursor γ]

instance : Cursor (Watching γ) where
  rowType c := Cursor.rowType c.cursor
  state c := Cursor.state c.cursor
  openOn stores context c :=
    let call := Cursor.openOn stores context c.cursor
    ⟨call.result, { c with cursor := call.cursor }, call.events⟩
  advance context c :=
    let call := Cursor.advance (c.sights.headD context) c.cursor
    ⟨call.result, ⟨call.cursor, c.sights.tail⟩, call.events⟩
  close c :=
    let (closed, events) := Cursor.close c.cursor
    ({ c with cursor := closed }, events)
  remaining c := Cursor.remaining c.cursor
  remaining_advance {context c after row events} h := by
    cases hcall : Cursor.advance (c.sights.headD context) c.cursor with
    | mk result cursor events =>
    simp only [hcall, Call.mk.injEq] at h
    obtain ⟨rfl, rfl, -⟩ := h
    exact Cursor.remaining_advance hcall

theorem exists_of_openOn {stores : Stores} {context : QueryContext} {c after : Watching γ}
    {result : Except CursorError Unit} {events : List Event}
    (h : Cursor.openOn stores context c = ⟨result, after, events⟩) :
    Cursor.openOn stores context c.cursor = ⟨result, after.cursor, events⟩ := by
  cases h
  rfl

theorem exists_of_advance {context : QueryContext} {c after : Watching γ}
    {result : Except CursorError (Option Row)} {events : List Event}
    (h : Cursor.advance context c = ⟨result, after, events⟩) :
    Cursor.advance (c.sights.headD context) c.cursor = ⟨result, after.cursor, events⟩ := by
  cases h
  rfl

/-- What a cursor sees of the query has no part in its being in unison. -/
theorem inUnison {AllClosed AllOpen : γ → Prop} (h : Cursor.InUnison AllClosed AllOpen) :
    Cursor.InUnison (fun c : Watching γ => AllClosed c.cursor) (fun c => AllOpen c.cursor) where
  state_of_allClosed hclosed := h.state_of_allClosed hclosed
  state_of_allOpen hopen := h.state_of_allOpen hopen
  openOn_ok hclosed hcall := h.openOn_ok hclosed (exists_of_openOn hcall)
  openOn_error hclosed hcall := h.openOn_error hclosed (exists_of_openOn hcall)
  openOn_allOpen hopen := h.openOn_allOpen hopen
  advance_ok hcall hopen := h.advance_ok (exists_of_advance hcall) hopen
  advance_error hopen hcall := h.advance_error hopen (exists_of_advance hcall)
  advance_allClosed hclosed := h.advance_allClosed hclosed
  close_allClosed c := h.close_allClosed c.cursor
  close_of_allClosed {c} hclosed := by
    show (({ c with cursor := (Cursor.close c.cursor).1 } : Watching γ),
      (Cursor.close c.cursor).2) = (c, [])
    rw [h.close_of_allClosed hclosed]

end Watching

/-! ### Trees -/

/-- The shape of a plan in which any cursor may look at the query for itself. -/
inductive QueryShape where
  | rows
  | scan
  | intersection (left right : QueryShape)
  | watching (input : QueryShape)

namespace QueryShape

/-- The type of the cursors of a shape. -/
def Carrier : QueryShape → Type
  | .rows => RowsCursor
  | .scan => IndexScan
  | .intersection left right => Intersection left.Carrier right.Carrier
  | .watching input => Watching input.Carrier

instance instCursor : (shape : QueryShape) → Cursor shape.Carrier
  | .rows => inferInstanceAs (Cursor RowsCursor)
  | .scan => inferInstanceAs (Cursor IndexScan)
  | .intersection left right =>
    let _ := instCursor left
    let _ := instCursor right
    inferInstanceAs (Cursor (Intersection left.Carrier right.Carrier))
  | .watching input =>
    let _ := instCursor input
    inferInstanceAs (Cursor (Watching input.Carrier))

/-- All cursors of a tree are in a state of this kind. -/
def All (P : CursorState → Prop) : (shape : QueryShape) → shape.Carrier → Prop
  | .rows, (c : RowsCursor) => P c.lifecycle.state
  | .scan, (c : IndexScan) => P c.lifecycle.state
  | .intersection left right, (m : Intersection left.Carrier right.Carrier) =>
    P m.lifecycle.state ∧ left.All P m.left.cursor ∧ right.All P m.right.cursor
  | .watching input, (c : Watching input.Carrier) => input.All P c.cursor

instance instDecidableAll (P : CursorState → Prop) [DecidablePred P] :
    (shape : QueryShape) → (c : shape.Carrier) → Decidable (shape.All P c)
  | .rows, (c : RowsCursor) => inferInstanceAs (Decidable (P c.lifecycle.state))
  | .scan, (c : IndexScan) => inferInstanceAs (Decidable (P c.lifecycle.state))
  | .intersection left right, (m : Intersection left.Carrier right.Carrier) =>
    let _ := instDecidableAll P left m.left.cursor
    let _ := instDecidableAll P right m.right.cursor
    inferInstanceAs (Decidable (P m.lifecycle.state ∧ _ ∧ _))
  | .watching input, (c : Watching input.Carrier) => instDecidableAll P input c.cursor

theorem All.imp {P Q : CursorState → Prop} (hPQ : ∀ state, P state → Q state) {shape : QueryShape}
    {c : shape.Carrier} (h : shape.All P c) : shape.All Q c := by
  induction shape with
  | rows => exact hPQ _ h
  | scan => exact hPQ _ h
  | intersection left right ihLeft ihRight => exact ⟨hPQ _ h.1, ihLeft h.2.1, ihRight h.2.2⟩
  | watching input ih => exact ih h

/-- Trees of every shape are in unison. -/
theorem inUnison (shape : QueryShape) :
    Cursor.InUnison (shape.All (· = .closed)) (shape.All (· ≠ .closed)) := by
  induction shape with
  | rows => exact RowsCursor.inUnison
  | scan => exact IndexScan.inUnison
  | intersection left right ihLeft ihRight => exact Intersection.inUnison ihLeft ihRight
  | watching input ih => exact Watching.inUnison ih

/-- **A tree opens and closes as one.**  Take a tree of any shape whose cursors are closed.  After
any calls on its root, under contexts that may be cancelled or expired at each of them or, for the
cursors that look at the query for themselves, during them, and any calls on the stores in between,
all of its cursors are closed if the root is, and all of them are open, with rows to come or
drained, if the root is.  So a closed root that fails to open and an intersection that fails to
answer a request leave no cursor open, and neither does closing. -/
theorem states_in_unison (shape : QueryShape) {c : shape.Carrier}
    (hclosed : shape.All (· = .closed) c) (stores : Stores) (steps : List UsageStep) :
    let usage := (Usage.start stores c).run steps
    (Cursor.state usage.cursor = .closed → shape.All (· = .closed) usage.cursor) ∧
      (Cursor.state usage.cursor = .active ∨ Cursor.state usage.cursor = .drained →
        shape.All (fun state => state = .active ∨ state = .drained) usage.cursor) ∧
      (∀ context after e events, Cursor.state usage.cursor = .closed →
        Cursor.openOn usage.stores context usage.cursor = ⟨.error e, after, events⟩ →
          shape.All (· = .closed) after) ∧
      (∀ context after e events, (∃ left right, shape = .intersection left right) →
        Cursor.advance context usage.cursor = ⟨.error e, after, events⟩ →
          shape.All (· = .closed) after) ∧
      shape.All (· = .closed) (Cursor.close usage.cursor).1 := by
  intro usage
  have hunison := shape.inUnison
  have hone : shape.All (· = .closed) usage.cursor ∨ shape.All (· ≠ .closed) usage.cursor :=
    hunison.run hclosed stores steps
  have hall (hstate : Cursor.state usage.cursor = .closed) :
      shape.All (· = .closed) usage.cursor :=
    hone.resolve_right fun hopen => hunison.state_of_allOpen hopen hstate
  refine ⟨hall, fun hstate => ?_,
    fun context after e events hstate hopen => hunison.openOn_error (hall hstate) hopen,
    fun context after e events hshape hadvance => ?_, hunison.close_allClosed _⟩
  · have hopen : shape.All (· ≠ .closed) usage.cursor := by
      refine hone.resolve_left fun hclosed => ?_
      rw [hunison.state_of_allClosed hclosed] at hstate
      simp at hstate
    refine hopen.imp fun state hne => ?_
    cases state <;> simp at hne ⊢
  · -- a leaf may fail and stay open, an intersection closes
    obtain ⟨left, right, rfl⟩ := hshape
    rcases hone with hclosed | hopen
    · have hsame : All (· = .closed) _ (Cursor.advance context usage.cursor).cursor :=
        hunison.advance_allClosed hclosed
      rwa [hadvance] at hsame
    · obtain ⟨stopped, rfl⟩ := Intersection.exists_of_advance_error hopen.1 hadvance
      exact hunison.close_allClosed stopped

/-- A context whose query was cancelled. -/
def cancelled : QueryContext :=
  { IntersectionRequest.unchecked with token := CancellationToken.fresh.cancel }

/-- Numbers joined with named numbers. -/
def joinedNumbers : Intersection RowsCursor RowsCursor :=
  IntersectionRequest.made IntersectionRequest.scrambled IntersectionRequest.named [.asc] .left
    .left

/-- A scan of the lines by their prices. -/
def allLines : InputRequest IndexScan :=
  ⟨⟨0, .linesByPrice, .unbounded, false, [], 0, .initial⟩, .ofIndex .linesByPrice, 0⟩

/-- The joined numbers beside the lines.  When the numbers are asked for the second time, the query
was cancelled in the meantime. -/
def numbersBesideLines : (intersection (watching (intersection rows rows)) scan).Carrier :=
  IntersectionRequest.made
    ⟨Watching.mk joinedNumbers [IntersectionRequest.unchecked, cancelled],
      .derived "number" [.int], 0⟩
    allLines [] .inner .left

/-- Two rows are asked for, and the index of the scan is dropped.  When the tree is opened anew, the
joined numbers open and the scan does not. -/
def reopening : List UsageStep :=
  [.call IntersectionRequest.unchecked .openOn, .call IntersectionRequest.unchecked .advance,
    .call IntersectionRequest.unchecked .advance, .change 0 (.drop Index.linesByPrice.name),
    .call .standard .openOn]

/-- The tree after the first of these steps. -/
def reopened (steps : Nat) :
    Usage (intersection (watching (intersection rows rows)) scan).Carrier :=
  (Usage.start (fun _ => IndexStore.run IndexScan.sampleCalls) numbersBesideLines).run
    (reopening.take steps)

/-- All five cursors are open after the first row.  The second one is not returned because the query
was cancelled, and in the end the index is not found; both times all five are closed. -/
theorem states_in_unison_reopening :
    All (· = .closed) _ numbersBesideLines ∧
      (Cursor.state (reopened 2).cursor = .active ∧
        All (fun state => state = .active ∨ state = .drained) _ (reopened 2).cursor) ∧
      ((reopened 3).replies.getLast?.map Reply.shown = some (.error .cancelled, .closed) ∧
        All (· = .closed) _ (reopened 3).cursor) ∧
      (reopened 5).replies.getLast?.map Reply.shown = some (.error .notFound, .closed) ∧
        All (· = .closed) _ (reopened 5).cursor := by
  have hclosed : All (· = .closed) _ numbersBesideLines := by decide
  have hunison (steps : Nat) := states_in_unison _ hclosed
    (fun _ => IndexStore.run IndexScan.sampleCalls) (reopening.take steps)
  have hactive : Cursor.state (reopened 2).cursor = .active := by decide +kernel
  exact ⟨hclosed, ⟨hactive, (hunison 2).2.1 (.inl hactive)⟩,
    ⟨by decide +kernel, (hunison 3).1 (by decide +kernel)⟩, by decide +kernel,
    (hunison 5).1 (by decide +kernel)⟩

end QueryShape

end TableGroups
