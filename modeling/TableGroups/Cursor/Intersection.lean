import TableGroups.Cursor

/-!
# Ordered intersections

An `Intersection` merges two cursors whose rows come in order of a common key.  It looks one row
ahead on each side, compares the keys of the two rows, and then either emits a row of its output
side or drops a row that can have no partner.  A match uses up the row of the output side only, so
every row of that side meets the other side's current row.

An inner join emits the rows of the output side that have a partner; a left or right join emits
the others too.  Rows that are not of the type declared for their side are passed over, and an
input that goes backwards is a failure if the context asks for the check.  Any failure of a call
for a row closes the intersection and its inputs.

What to do with the rows in hand is decided by `verdict` alone; `nextRow` fills, asks and obeys.
`size` bounds the rows that are still to be used up: filling does not raise it (`size_fill_le`) and
each row that is emitted or dropped lowers it (`size_take_lt`), so the merge ends.
-/

namespace TableGroups

/-- Which rows an intersection emits. -/
inductive JoinType where
  | inner
  | left
  | right
  /-- Can be asked for and is always refused. -/
  | full
  deriving DecidableEq

namespace JoinType

/-- How messages name a join. -/
def label : JoinType → String
  | .inner => "INNER"
  | .left => "LEFT_JOIN"
  | .right => "RIGHT_JOIN"
  | .full => "FULL_JOIN"

/-- Whether rows of the output side without a partner are emitted. -/
def keepsUnmatched : JoinType → Bool
  | .left => true
  | .right => true
  | _ => false

/-- Whether a join can emit the rows of a side. -/
def supports : JoinType → Side → Bool
  | .inner, _ => true
  | .left, .left => true
  | .right, .right => true
  | _, _ => false

end JoinType

/-- How messages name the side whose rows an intersection emits. -/
def Side.outputLabel : Side → String
  | .left => "OUTPUT_LEFT"
  | .right => "OUTPUT_RIGHT"

/-- An input of an intersection: its cursor and what has been seen of it. -/
structure Input (γ : Type) where
  cursor : γ
  /-- The type of the rows that count. -/
  rowType : RowType
  /-- The position of the first compared field. -/
  offset : Nat
  /-- The row in hand. -/
  lookahead : Option Row
  /-- Whether the cursor has said that there are no more rows. -/
  exhausted : Bool
  /-- The row that was used up last. -/
  last : Option Row

namespace Input

variable {γ : Type}

/-- An input of which nothing has been seen. -/
def fresh (cursor : γ) (rowType : RowType) (offset : Nat) : Input γ :=
  ⟨cursor, rowType, offset, none, false, none⟩

/-- The input with everything seen of it forgotten. -/
def reset (input : Input γ) : Input γ :=
  { input with lookahead := none, exhausted := false, last := none }

/-- Use up the row in hand. -/
def take (input : Input γ) : Input γ :=
  match input.lookahead with
  | none => input
  | some row => { input with lookahead := none, last := some row }

/-- Check that a row does not go behind the row that was used up last. -/
def checkOrder (input : Input γ) (side : Side) (comparator : KeyComparator) (row : Row) :
    Except CursorError Unit :=
  match input.last with
  | none => .ok ()
  | some previous =>
    match comparator.compareRuns previous.values input.offset row.values input.offset with
    | .error e => .error (.comparison e)
    | .ok .gt => .error (.outOfOrder side comparator.directions previous row)
    | .ok _ => .ok ()

variable [Cursor γ]

/-- How many rows of the input are still to be used up, at most. -/
def size (input : Input γ) : Nat :=
  (if input.exhausted then 0 else Cursor.remaining input.cursor) +
    (if input.lookahead.isSome then 1 else 0)

/-- Get a row in hand unless there is one or there are no more, passing over rows of other types.
The answer is the number of rows passed over. -/
def fill (context : QueryContext) (side : Side) (comparator : KeyComparator) (check : Bool)
    (input : Input γ) : Call (Input γ) Nat :=
  if input.exhausted || input.lookahead.isSome then ⟨.ok 0, input, []⟩
  else
    match _pulled : Cursor.advance context input.cursor with
    | ⟨.error e, cursor, events⟩ => ⟨.error e, { input with cursor }, events⟩
    | ⟨.ok none, cursor, events⟩ => ⟨.ok 0, { input with cursor, exhausted := true }, events⟩
    | ⟨.ok (some row), cursor, events⟩ =>
      if row.isOfType input.rowType then
        match if check then input.checkOrder side comparator row else .ok () with
        | .error e => ⟨.error e, { input with cursor }, events⟩
        | .ok () => ⟨.ok 0, { input with cursor, lookahead := some row }, events⟩
      else
        let rest := fill context side comparator check { input with cursor }
        ⟨rest.result.map (· + 1), rest.cursor, events ++ rest.events⟩
termination_by Cursor.remaining input.cursor
decreasing_by exact Cursor.remaining_advance _pulled

/-- Filling moves rows from the cursor into the hand and makes none. -/
theorem size_fill_le (context : QueryContext) (side : Side) (comparator : KeyComparator)
    (check : Bool) (input : Input γ) {passed : Nat}
    (h : (fill context side comparator check input).result = .ok passed) :
    (fill context side comparator check input).cursor.size ≤ input.size := by
  fun_induction fill context side comparator check input generalizing passed with
  | case1 input _ => exact Nat.le_refl _
  | case2 input _ e cursor events _ => simp at h
  | case3 input open? cursor events _ =>
    -- the input has run out
    simp only [Bool.or_eq_true, not_or, Bool.not_eq_true] at open?
    simp [size, open?]
  | case4 input _ row cursor events _ _ e _ => simp at h
  | case5 input open? row cursor events pulled _ _ =>
    -- a row that counts moves from the cursor into the hand
    have lower := Cursor.remaining_advance pulled
    simp only [Bool.or_eq_true, not_or, Bool.not_eq_true] at open?
    simp only [size, open?, Option.isSome_some, Bool.false_eq_true, if_true, if_false]
    omega
  | case6 input open? row cursor events pulled _ rest =>
    -- a row of another type is passed over, and the cursor is asked again
    rename_i ih
    have lower := Cursor.remaining_advance pulled
    simp only [Bool.or_eq_true, not_or, Bool.not_eq_true] at open?
    cases hr : rest.result with
    | error e => simp [hr, Except.map] at h
    | ok n =>
      have smaller : rest.cursor.size ≤ { input with cursor }.size := ih hr
      clear_value rest
      have whole : input.size = Cursor.remaining input.cursor := by simp [size, open?]
      have less : { input with cursor }.size = Cursor.remaining cursor := by simp [size, open?]
      exact Nat.le_trans smaller (by omega)

/-- Using up the row in hand leaves fewer rows. -/
theorem size_take_lt (input : Input γ) {row : Row} (h : input.lookahead = some row) :
    input.take.size < input.size := by
  simp [take, size, h]

end Input

/-- What an intersection has done since it was opened. -/
structure MergeStats where
  emitted : Nat
  matched : Nat
  unmatchedEmitted : Nat
  discarded : Nat
  deriving DecidableEq

/-- Nothing has been done yet. -/
def MergeStats.zero : MergeStats := ⟨0, 0, 0, 0⟩

/-- What to do with the rows in hand. -/
inductive Verdict where
  /-- There is nothing more to emit. -/
  | finished
  /-- Emit the row of a side, which has a partner or not. -/
  | emit (side : Side) (matched : Bool)
  /-- Drop the row of a side. -/
  | discard (side : Side)
  deriving DecidableEq

/-- A merge of two ordered cursors. -/
structure Intersection (L R : Type) where
  left : Input L
  right : Input R
  comparator : KeyComparator
  join : JoinType
  output : Side
  checkOrder : Bool
  stats : MergeStats
  lifecycle : Lifecycle

namespace Intersection

variable {L R : Type}

/-- The type of the rows that the intersection emits. -/
def rowType (m : Intersection L R) : RowType :=
  match m.output with
  | .left => m.left.rowType
  | .right => m.right.rowType

/-- The row in hand on a side. -/
def lookahead (m : Intersection L R) : Side → Option Row
  | .left => m.left.lookahead
  | .right => m.right.lookahead

/-- Use up the row in hand on a side. -/
def take (m : Intersection L R) : Side → Intersection L R
  | .left => { m with left := m.left.take }
  | .right => { m with right := m.right.take }

/-- Emit the row in hand on a side. -/
def emit (m : Intersection L R) (side : Side) (isMatch : Bool) : Intersection L R :=
  let taken := m.take side
  if isMatch then { taken with stats := { m.stats with matched := m.stats.matched + 1 } }
  else
    { taken with stats := { m.stats with unmatchedEmitted := m.stats.unmatchedEmitted + 1 } }

/-- Drop the row in hand on a side. -/
def discard (m : Intersection L R) (side : Side) : Intersection L R :=
  let taken := m.take side
  { taken with stats := { m.stats with discarded := m.stats.discarded + 1 } }

/-- What to do with the rows in hand.  Two rows are compared: equal keys are a match, and the row
with the lower key has no partner, so it is emitted if the join keeps it and dropped otherwise.
If a side has run out there are no more matches, and only a join that keeps unmatched rows goes
on with its output side. -/
def verdict (m : Intersection L R) : Except ComparisonError Verdict :=
  match m.left.lookahead, m.right.lookahead with
  | some l, some r =>
    match m.comparator.compareRuns l.values m.left.offset r.values m.right.offset with
    | .error e => .error e
    | .ok .eq => .ok (.emit m.output true)
    | .ok .lt => .ok (if m.join = .left then .emit .left false else .discard .left)
    | .ok .gt => .ok (if m.join = .right then .emit .right false else .discard .right)
  | _, _ =>
    if m.join.keepsUnmatched && (m.lookahead m.output).isSome then .ok (.emit m.output false)
    else .ok .finished

/-- Only a row in hand is ever dropped. -/
theorem lookahead_of_discard {m : Intersection L R} {side : Side}
    (h : m.verdict = .ok (.discard side)) : ∃ row, m.lookahead side = some row := by
  unfold verdict at h
  split at h
  · next l r hl hr =>
    split at h
    · simp at h
    · simp at h
    · split at h <;> simp only [Except.ok.injEq, reduceCtorEq, Verdict.discard.injEq] at h
      exact ⟨l, by rw [← h]; exact hl⟩
    · split at h <;> simp only [Except.ok.injEq, reduceCtorEq, Verdict.discard.injEq] at h
      exact ⟨r, by rw [← h]; exact hr⟩
  · split at h <;> simp at h

variable [Cursor L] [Cursor R]

/-- How many rows of the inputs are still to be used up, at most. -/
def size (m : Intersection L R) : Nat :=
  m.left.size + m.right.size

/-- Get a row in hand on each side that has one.  Rows passed over count as dropped once both
sides are filled. -/
def fill (context : QueryContext) (m : Intersection L R) : Call (Intersection L R) Unit :=
  match m.left.fill context .left m.comparator m.checkOrder with
  | ⟨.error e, left, events⟩ => ⟨.error e, { m with left }, events⟩
  | ⟨.ok passedLeft, left, events⟩ =>
    match m.right.fill context .right m.comparator m.checkOrder with
    | ⟨.error e, right, more⟩ => ⟨.error e, { m with left, right }, events ++ more⟩
    | ⟨.ok passedRight, right, more⟩ =>
      let discarded := m.stats.discarded + (passedLeft + passedRight)
      ⟨.ok (), { m with left, right, stats := { m.stats with discarded } }, events ++ more⟩

theorem size_fill_le {context : QueryContext} {m after : Intersection L R} {events : List Event}
    (h : m.fill context = ⟨.ok (), after, events⟩) : after.size ≤ m.size := by
  unfold fill at h
  split at h
  · simp at h
  · next passedLeft left _ hl =>
    split at h
    · simp at h
    · next passedRight right _ hr =>
      have first : left.size ≤ m.left.size := by
        have := @Input.size_fill_le L _ context .left m.comparator m.checkOrder m.left
          passedLeft
        rw [hl] at this
        exact this rfl
      have second : right.size ≤ m.right.size := by
        have := @Input.size_fill_le R _ context .right m.comparator m.checkOrder m.right
          passedRight
        rw [hr] at this
        exact this rfl
      simp only [Call.mk.injEq, true_and] at h
      rw [← h.1]
      simp only [size]
      omega

theorem size_take_lt (m : Intersection L R) {side : Side} {row : Row}
    (h : m.lookahead side = some row) : (m.take side).size < m.size := by
  cases side with
  | left =>
    have := m.left.size_take_lt h
    simp only [size, take]
    omega
  | right =>
    have := m.right.size_take_lt h
    simp only [size, take]
    omega

@[simp] theorem size_discard (m : Intersection L R) (side : Side) :
    (m.discard side).size = (m.take side).size := rfl

@[simp] theorem size_emit (m : Intersection L R) (side : Side) (isMatch : Bool) :
    (m.emit side isMatch).size = (m.take side).size := by
  cases isMatch <;> rfl

/-- Merge until a row is to be emitted or the merge is over. -/
def nextRow (context : QueryContext) (m : Intersection L R) :
    Call (Intersection L R) (Option Row) :=
  match _filling : m.fill context with
  | ⟨.error e, filled, events⟩ => ⟨.error e, filled, events⟩
  | ⟨.ok (), filled, events⟩ =>
    match _judged : filled.verdict with
    | .error e => ⟨.error (.comparison e), filled, events⟩
    | .ok .finished => ⟨.ok none, filled, events⟩
    | .ok (.emit side isMatch) => ⟨.ok (filled.lookahead side), filled.emit side isMatch, events⟩
    | .ok (.discard side) =>
      let rest := nextRow context (filled.discard side)
      ⟨rest.result, rest.cursor, events ++ rest.events⟩
termination_by m.size
decreasing_by
  obtain ⟨row, inHand⟩ := lookahead_of_discard _judged
  have := size_fill_le _filling
  have := filled.size_take_lt inHand
  rw [size_discard]
  omega

theorem size_nextRow_lt {context : QueryContext} {m after : Intersection L R} {row : Row}
    {events : List Event} (h : m.nextRow context = ⟨.ok (some row), after, events⟩) :
    after.size < m.size := by
  fun_induction nextRow context m generalizing events with
  | case1 => simp at h
  | case2 => simp at h
  | case3 => simp at h
  | case4 m filled _ filling side isMatch _ =>
    -- the row in hand is emitted
    simp only [Call.mk.injEq, Except.ok.injEq] at h
    have := size_fill_le filling
    have := filled.size_take_lt h.1
    rw [← h.2.1, size_emit]
    omega
  | case5 m filled _ filling side judged rest =>
    -- a row is dropped, and what comes after is smaller still
    rename_i ih
    simp only [Call.mk.injEq] at h
    obtain ⟨_, inHand⟩ := lookahead_of_discard judged
    have := size_fill_le filling
    have := filled.size_take_lt inHand
    have step : (filled.discard side).nextRow context = ⟨.ok (some row), after, rest.events⟩ := by
      rw [← h.1, ← h.2.1]
    have := ih step
    rw [size_discard] at this
    omega

/-! ### The protocol -/

/-- Open both inputs, the left one first.  If the right one fails the left one is closed again. -/
def openOn (stores : Stores) (context : QueryContext) (m : Intersection L R) :
    Call (Intersection L R) Unit :=
  match m.lifecycle.start .intersection context with
  | .error e => ⟨.error e, m, []⟩
  | .ok lifecycle =>
    let m : Intersection L R :=
      { m with
        left := m.left.reset
        right := m.right.reset
        stats := .zero
        checkOrder := context.config.checkInputOrder
        lifecycle }
    match Cursor.openOn stores context m.left.cursor with
    | ⟨.error e, left, events⟩ =>
      ⟨.error e,
        { m with left := { m.left with cursor := left }, lifecycle := lifecycle.close }, events⟩
    | ⟨.ok (), left, events⟩ =>
      match Cursor.openOn stores context m.right.cursor with
      | ⟨.error e, right, more⟩ =>
        -- the left input is open by now
        let (left, closing) := Cursor.close left
        ⟨.error e,
          { m with
            left := { m.left with cursor := left }
            right := { m.right with cursor := right }
            lifecycle := lifecycle.close },
          events ++ more ++ closing⟩
      | ⟨.ok (), right, more⟩ =>
        ⟨.ok (),
          { m with
            left := { m.left with cursor := left }
            right := { m.right with cursor := right } },
          events ++ more ++ lifecycle.report [.cursorOpened .intersection]⟩

/-- Close both inputs, the left one first, and then the intersection. -/
def close (m : Intersection L R) : Intersection L R × List Event :=
  let (left, leftEvents) := Cursor.close m.left.cursor
  let (right, rightEvents) := Cursor.close m.right.cursor
  let closed : Intersection L R :=
    { m with
      left := { m.left with cursor := left }
      right := { m.right with cursor := right }
      lifecycle := m.lifecycle.close }
  let own :=
    if m.lifecycle.state.isOpen then
      m.lifecycle.report
        [.intersectionFinished m.stats.matched m.stats.unmatchedEmitted m.stats.discarded,
          .cursorClosed .intersection m.stats.emitted]
    else []
  (closed, leftEvents ++ rightEvents ++ own)

/-- Give up: report the failure and close everything.  `events` came before. -/
def fail (m : Intersection L R) (e : CursorError) (events : List Event) :
    Call (Intersection L R) (Option Row) :=
  let (closed, closing) := m.close
  ⟨.error e, closed, events ++ m.lifecycle.report [.cursorFailed .intersection] ++ closing⟩

/-- Return the next row of the merge. -/
def advance (context : QueryContext) (m : Intersection L R) :
    Call (Intersection L R) (Option Row) :=
  match m.lifecycle.gate .intersection with
  | .error e => ⟨.error e, m, []⟩
  | .ok active =>
    match context.interruption? with
    | some reason => m.fail (.interrupted reason) context.interruptionEvents
    | none =>
      if active then
        match m.nextRow context with
        | ⟨.error e, stopped, events⟩ => stopped.fail e events
        | ⟨.ok none, ended, events⟩ =>
          ⟨.ok none, { ended with lifecycle := ended.lifecycle.drain }, events⟩
        | ⟨.ok (some row), merged, events⟩ =>
          let stats := { merged.stats with emitted := merged.stats.emitted + 1 }
          ⟨.ok (some row), { merged with stats }, events⟩
      else ⟨.ok none, m, []⟩

theorem remaining_advance {context : QueryContext} {m after : Intersection L R} {row : Row}
    {events : List Event} (h : m.advance context = ⟨.ok (some row), after, events⟩) :
    after.size < m.size := by
  unfold advance at h
  split at h
  · simp at h
  · split at h
    · simp [fail] at h
    · split at h
      · split at h
        · simp [fail] at h
        · simp at h
        · next merged _ step =>
          simp only [Call.mk.injEq, Except.ok.injEq, Option.some.injEq] at h
          rw [← h.2.1]
          have : merged.size < m.size := size_nextRow_lt step
          exact this
      · simp at h

end Intersection

instance {L R : Type} [Cursor L] [Cursor R] : Cursor (Intersection L R) where
  rowType := Intersection.rowType
  state m := m.lifecycle.state
  openOn := Intersection.openOn
  advance := Intersection.advance
  close := Intersection.close
  remaining := Intersection.size
  remaining_advance := Intersection.remaining_advance

end TableGroups
