import TableGroups.Proofs.Cursor.Merge
import TableGroups.Proofs.Cursor.Progress
import TableGroups.Proofs.Cursor.Session

/-!
# Invariants of intersections

What is to be said of an intersection on arbitrary inputs cannot go through the merge of two given
supplies: contexts may change between two requests for a row, and any call may fail.  It is said by
invariants instead.  An invariant relates the rows emitted so far to the intersection, and it has to
be kept by one request for a row (`Keeps`).  Then it holds of the rows that any session with the
opened intersection has returned, whichever requests fail and whatever comes after a failure
(`run_of_keeps`), and so of collected rows (`Session.exists_run_of_collect`).

A request fills both inputs and drops rows until a row is emitted or the merge is over
(`Requested.nextRow`).  All that it can do to a side is to use up the row in hand, so `HasUsed` says
of a side how far it has come.
-/

namespace TableGroups

/-- What belongs to a side. -/
def Side.select {α : Type} (left right : α) : Side → α
  | .left => left
  | .right => right

namespace Intersection

variable {L R : Type}

/-- The type of the rows of a side that count. -/
def inputType (m : Intersection L R) : Side → RowType
  | .left => m.left.rowType
  | .right => m.right.rowType

/-- The position of the first compared field in the rows of a side. -/
def offset (m : Intersection L R) : Side → Nat
  | .left => m.left.offset
  | .right => m.right.offset

/-- Of the rows of a side, those that count. -/
def counted (m : Intersection L R) (side : Side) (rows : List Row) : List Row :=
  rows.filter (·.isOfType (m.inputType side))

theorem offset_eq_of_rule_eq {m m' : Intersection L R} (h : m.rule = m'.rule) (side : Side) :
    m.offset side = m'.offset side := by
  cases side with
  | left => exact congrArg MergeRule.leftOffset h
  | right => exact congrArg MergeRule.rightOffset h

/-! ### Verdicts -/

section

variable {m : Intersection L R} {side : Side} {isMatch : Bool}

/-- Only a row in hand is ever emitted. -/
theorem lookahead_of_emit (h : m.verdict = .ok (.emit side isMatch)) :
    ∃ row, m.lookahead side = some row := by
  unfold verdict at h
  split at h
  · next l r hl hr =>
    have hhand : ∀ side, ∃ row, m.lookahead side = some row := by
      rintro (_ | _)
      · exact ⟨l, hl⟩
      · exact ⟨r, hr⟩
    exact hhand side
  · split at h
    · next hkept =>
      cases h
      exact Option.isSome_iff_exists.mp (Bool.and_eq_true_iff.mp hkept).2
    · cases h

/-- A join emits rows of its output side only. -/
theorem eq_output_of_emit (hsupports : m.join.supports m.output)
    (h : m.verdict = .ok (.emit side isMatch)) : side = m.output := by
  -- a join that keeps the unmatched rows of a side can have no other output
  have hkept : (m.join = .left → m.output = .left) ∧ (m.join = .right → m.output = .right) := by
    constructor <;>
    · intro hjoin
      rw [hjoin] at hsupports
      cases houtput : m.output <;> simp [houtput, JoinType.supports] at hsupports ⊢
  unfold verdict at h
  split at h
  · split at h
    · cases h
    · cases h
      rfl
    · split at h
      · next hjoin =>
        cases h
        exact (hkept.1 hjoin).symm
      · cases h
    · split at h
      · next hjoin =>
        cases h
        exact (hkept.2 hjoin).symm
      · cases h
  · split at h
    · cases h
      rfl
    · cases h

/-- An inner join emits a row only beside a partner. -/
theorem partners_of_emit (hinner : m.join = .inner) (h : m.verdict = .ok (.emit side isMatch)) :
    ∃ l r, m.left.lookahead = some l ∧ m.right.lookahead = some r ∧
      m.comparator.compareRuns l.values m.left.offset r.values m.right.offset = .ok .eq := by
  unfold verdict at h
  simp only [hinner, reduceCtorEq, if_false, JoinType.keepsUnmatched, Bool.false_and,
    Bool.false_eq_true] at h
  split at h
  · next l r hl hr =>
    split at h
    · cases h
    · next heq => exact ⟨l, r, hl, hr, heq⟩
    · cases h
    · cases h
  · cases h

/-- An outer join drops no row of its output side. -/
theorem ne_output_of_discard (hkeeps : m.join.keepsUnmatched) (hsupports : m.join.supports m.output)
    (h : m.verdict = .ok (.discard side)) : side ≠ m.output := by
  rintro rfl
  unfold verdict at h
  cases hjoin : m.join <;> cases houtput : m.output <;>
    simp only [hjoin, houtput, JoinType.keepsUnmatched, JoinType.supports, Bool.false_eq_true,
      reduceCtorEq] at hkeeps hsupports h
  -- left and right joins are left: with two rows in hand only the other side is dropped
  all_goals
    split at h
    · split at h <;> simp at h
    · split at h <;> simp at h

/-- An outer join is over only when its output side has no more rows. -/
theorem lookahead_of_finished (hkeeps : m.join.keepsUnmatched)
    (h : m.verdict = .ok .finished) : m.lookahead m.output = none := by
  unfold verdict at h
  split at h
  · split at h
    · cases h
    · cases h
    · split at h <;> cases h
    · split at h <;> cases h
  · split at h
    · cases h
    · next hkept =>
      rw [hkeeps, Bool.true_and, Bool.not_eq_true, Option.isSome_eq_false_iff,
        Option.isNone_iff_eq_none] at hkept
      exact hkept

end

/-! ### Requests for a row -/

variable [Cursor L] [Cursor R] {context : QueryContext} {m filled : Intersection L R}
  {events : List Event}

/-- Filling fills both inputs, and counts the rows that they passed over. -/
theorem exists_of_fill (h : m.fill context = ⟨.ok (), filled, events⟩) :
    ∃ (leftPassed rightPassed : Nat) (leftEvents rightEvents : List Event),
      m.left.fill context .left m.comparator m.checkOrder =
          ⟨.ok leftPassed, filled.left, leftEvents⟩ ∧
        m.right.fill context .right m.comparator m.checkOrder =
          ⟨.ok rightPassed, filled.right, rightEvents⟩ ∧
        filled =
          { m with
            left := filled.left
            right := filled.right
            stats :=
              { m.stats with discarded := m.stats.discarded + (leftPassed + rightPassed) } } := by
  unfold fill at h
  split at h
  · cases h
  · next hleft =>
    split at h
    · cases h
    · next hright =>
      cases h
      exact ⟨_, _, _, _, hleft, hright, rfl⟩

/-- Filling changes neither what is asked for nor the lifecycle. -/
theorem frame_of_fill (h : m.fill context = ⟨.ok (), filled, events⟩) :
    filled.rule = m.rule ∧ filled.checkOrder = m.checkOrder ∧ filled.lifecycle = m.lifecycle := by
  obtain ⟨_, _, _, _, hleft, hright, hfilled⟩ := exists_of_fill h
  obtain ⟨_, _, _, hl⟩ := m.left.exists_fill_eq context .left m.comparator m.checkOrder
  obtain ⟨_, _, _, hr⟩ := m.right.exists_fill_eq context .right m.comparator m.checkOrder
  rw [hleft] at hl
  rw [hright] at hr
  dsimp only at hl hr
  rw [hfilled, hl, hr]
  exact ⟨rfl, rfl, rfl⟩

/-- What a request for a row comes to, if `Q` holds of an intersection that has just been filled. -/
inductive Requested (Q : Intersection L R → Prop) (call : Call (Intersection L R) (Option Row)) :
    Prop where
  | failed {e : CursorError} (hresult : call.result = .error e)
  | finished (hlast : Q call.cursor) (hverdict : call.cursor.verdict = .ok .finished)
      (hresult : call.result = .ok none)
  | emitted {last : Intersection L R} {side : Side} {isMatch : Bool} {row : Row} (hlast : Q last)
      (hverdict : last.verdict = .ok (.emit side isMatch)) (hhand : last.lookahead side = some row)
      (hresult : call.result = .ok (some row)) (hcursor : call.cursor = last.emit side isMatch)

/-- A fact that filling makes of `P`, and that dropping a row turns into `P` again, holds when a
request comes to its end. -/
theorem Requested.nextRow {P Q : Intersection L R → Prop}
    (hfill : ∀ m filled events, P m → m.fill context = ⟨.ok (), filled, events⟩ → Q filled)
    (hdiscard : ∀ filled side, Q filled → filled.verdict = .ok (.discard side) →
      P (filled.discard side))
    (h : P m) : Requested Q (m.nextRow context) := by
  fun_induction Intersection.nextRow context m with
  | case1 m e filled events hstep => exact .failed rfl
  | case2 m filled events hstep e hverdict => exact .failed rfl
  | case3 m filled events hstep hverdict => exact .finished (hfill _ _ _ h hstep) hverdict rfl
  | case4 m filled events hstep side isMatch hverdict =>
    obtain ⟨row, hhand⟩ := lookahead_of_emit hverdict
    exact .emitted (hfill _ _ _ h hstep) hverdict hhand (congrArg Except.ok hhand) rfl
  | case5 m filled events hstep side hverdict rest ih =>
    -- a row is dropped, and the request goes on with `P`
    cases ih (hdiscard _ _ (hfill _ _ _ h hstep) hverdict) with
    | failed hresult => exact .failed hresult
    | finished hlast hfinished hresult => exact .finished hlast hfinished hresult
    | emitted hlast hemit hhand hresult hcursor =>
      exact .emitted hlast hemit hhand hresult hcursor

/-- A fact of a filled intersection that dropping and emitting a row keep holds of what a request
leaves, unless it fails. -/
theorem of_nextRow {P : Intersection L R → Prop} {answer : Option Row} {after : Intersection L R}
    (hfill : ∀ m filled events, P m → m.fill context = ⟨.ok (), filled, events⟩ → P filled)
    (hdiscard : ∀ m side, P m → P (m.discard side))
    (hemit : ∀ m side isMatch, P m → P (m.emit side isMatch)) (hstart : P m)
    (h : m.nextRow context = ⟨.ok answer, after, events⟩) : P after := by
  have hrequested : Requested P (m.nextRow context) :=
    Requested.nextRow hfill (fun last side hlast _ => hdiscard last side hlast) hstart
  rw [h] at hrequested
  cases hrequested with
  | failed hresult => cases hresult
  | finished hlast _ _ => exact hlast
  | emitted hlast _ _ _ hcursor =>
    dsimp only at hcursor
    rw [hcursor]
    exact hemit _ _ _ hlast

theorem lifecycle_fill {result : Except CursorError Unit}
    (h : m.fill context = ⟨result, filled, events⟩) : filled.lifecycle = m.lifecycle := by
  unfold fill at h
  split at h
  · cases h
    rfl
  · split at h <;>
    · cases h
      rfl

/-- A request for a row leaves the lifecycle alone, whether it is answered or fails. -/
theorem lifecycle_nextRow {result : Except CursorError (Option Row)} {after : Intersection L R}
    (h : m.nextRow context = ⟨result, after, events⟩) : after.lifecycle = m.lifecycle := by
  fun_induction Intersection.nextRow context m generalizing events with
  | case1 m e filled _ hstep =>
    cases h
    exact lifecycle_fill hstep
  | case2 m filled _ hstep e hverdict =>
    cases h
    exact lifecycle_fill hstep
  | case3 m filled _ hstep hverdict =>
    cases h
    exact lifecycle_fill hstep
  | case4 m filled _ hstep side isMatch hverdict =>
    cases h
    exact (filled.lifecycle_emit side isMatch).trans (lifecycle_fill hstep)
  | case5 m filled _ hstep side hverdict rest =>
    rename_i ih
    cases h
    calc rest.cursor.lifecycle = (filled.discard side).lifecycle := ih rfl
      _ = filled.lifecycle := filled.lifecycle_discard side
      _ = m.lifecycle := lifecycle_fill hstep

/-- What the answers of the inputs keep, a request keeps unless it fails. -/
theorem inputs_of_nextRow {P : L → Prop} {Q : R → Prop} {answer : Option Row}
    {after : Intersection L R} (hP : Cursor.AnswersKeep P) (hQ : Cursor.AnswersKeep Q)
    (hleft : P m.left.cursor) (hright : Q m.right.cursor)
    (h : m.nextRow context = ⟨.ok answer, after, events⟩) :
    P after.left.cursor ∧ Q after.right.cursor := by
  -- using up a row in hand leaves the cursors alone
  have hdiscard : ∀ (m : Intersection L R) side, P m.left.cursor ∧ Q m.right.cursor →
      P (m.discard side).left.cursor ∧ Q (m.discard side).right.cursor := by
    intro m side hm
    cases side <;> simpa [discard, take] using hm
  have hemit : ∀ (m : Intersection L R) side isMatch, P m.left.cursor ∧ Q m.right.cursor →
      P (m.emit side isMatch).left.cursor ∧ Q (m.emit side isMatch).right.cursor := by
    intro m side isMatch hm
    cases side <;> cases isMatch <;> simpa [emit, take] using hm
  refine @of_nextRow L R _ _ context m events (fun last => P last.left.cursor ∧ Q last.right.cursor)
    answer after (fun m filled events hm hfill => ?_) hdiscard hemit ⟨hleft, hright⟩ h
  obtain ⟨_, _, _, _, hl, hr, -⟩ := exists_of_fill hfill
  exact ⟨Input.cursor_of_fill hP hm.1 hl, Input.cursor_of_fill hQ hm.2 hr⟩

/-! ### Rows used up -/

/-- Of its rows that count, `rows`, the side has used up `used`. -/
def HasUsed (m : Intersection L R) (side : Side) (used rows : List Row) : Prop :=
  ∃ rest, rows = used ++ rest ∧
    match side with
    | .left => m.left.Awaits rest
    | .right => m.right.Awaits rest

section

variable {side taken : Side} {used rows : List Row} {row : Row}

/-- Filling uses up nothing, and if it gets no row in hand then there are no more. -/
theorem HasUsed.fill (h : m.HasUsed side used rows)
    (hfill : m.fill context = ⟨.ok (), filled, events⟩) :
    filled.HasUsed side used rows ∧ (filled.lookahead side = none → used = rows) := by
  obtain ⟨_, _, _, _, hleft, hright, -⟩ := exists_of_fill hfill
  obtain ⟨rest, rfl, hawaits⟩ := h
  have hsplit : ∀ hand, hand = rest.head? → hand = none → used = used ++ rest := by
    rintro _ rfl hnone
    rw [List.head?_eq_none_iff.mp hnone, List.append_nil]
  cases side with
  | left =>
    obtain ⟨hfilled, hhand⟩ := hawaits.fill hleft
    exact ⟨⟨rest, rfl, hfilled⟩, hsplit _ hhand⟩
  | right =>
    obtain ⟨hfilled, hhand⟩ := hawaits.fill hright
    exact ⟨⟨rest, rfl, hfilled⟩, hsplit _ hhand⟩

/-- The row in hand is the next one. -/
theorem HasUsed.take_self (h : m.HasUsed side used rows) (hhand : m.lookahead side = some row) :
    (m.take side).HasUsed side (used ++ [row]) rows := by
  obtain ⟨rest, rfl, hawaits⟩ := h
  cases side with
  | left =>
    obtain ⟨others, rfl, hothers⟩ := hawaits.take hhand
    exact ⟨others, List.append_cons _ _ _, hothers⟩
  | right =>
    obtain ⟨others, rfl, hothers⟩ := hawaits.take hhand
    exact ⟨others, List.append_cons _ _ _, hothers⟩

/-- Using up a row leaves the other side alone. -/
theorem HasUsed.take_of_ne (h : m.HasUsed side used rows) (hne : taken ≠ side) :
    (m.take taken).HasUsed side used rows := by
  cases side <;> cases taken <;> first | exact h | exact absurd rfl hne

/-- What a side has used up begins its rows. -/
theorem HasUsed.isPrefix (h : m.HasUsed side used rows) : used <+: rows := by
  obtain ⟨rest, rfl, -⟩ := h
  exact List.prefix_append _ _

/-- The row in hand is a row of its side. -/
theorem HasUsed.mem_of_lookahead (h : m.HasUsed side used rows)
    (hhand : m.lookahead side = some row) : row ∈ rows :=
  (h.take_self hhand).isPrefix.subset (List.mem_append_right _ (List.mem_singleton_self row))

@[simp] theorem hasUsed_emit {isMatch : Bool} :
    (m.emit taken isMatch).HasUsed side used rows ↔ (m.take taken).HasUsed side used rows := by
  cases isMatch <;> exact Iff.rfl

@[simp] theorem hasUsed_discard :
    (m.discard taken).HasUsed side used rows ↔ (m.take taken).HasUsed side used rows :=
  Iff.rfl

end

/-! ### Opening -/

/-- Once it opens, the input of the side provides these rows. -/
def Reads (stores : Stores) (context : QueryContext) (m : Intersection L R) (side : Side)
    (rows : List Row) : Prop :=
  match side with
  | .left => Cursor.ProvidesWhenOpened stores context m.left.cursor rows
  | .right => Cursor.ProvidesWhenOpened stores context m.right.cursor rows

/-- An intersection that opens has opened both inputs and has seen nothing of them. -/
theorem exists_of_openOn {stores : Stores} {opened : Intersection L R}
    (h : Cursor.openOn stores context m = ⟨.ok (), opened, events⟩) :
    ∃ left right leftEvents rightEvents,
      Cursor.openOn stores context m.left.cursor = ⟨.ok (), left, leftEvents⟩ ∧
        Cursor.openOn stores context m.right.cursor = ⟨.ok (), right, rightEvents⟩ ∧
        opened =
          { m with
            left := { m.left.reset with cursor := left }
            right := { m.right.reset with cursor := right }
            stats := .zero
            checkOrder := context.config.checkInputOrder
            lifecycle := ⟨.active, context.config.recordMetrics⟩ } := by
  have hopen : m.openOn stores context = ⟨.ok (), opened, events⟩ := h
  unfold openOn at hopen
  split at hopen
  · cases hopen
  · next lifecycle hstart =>
    obtain ⟨-, rfl⟩ := Lifecycle.start_eq_ok_iff.mp hstart
    dsimp only [Input.reset] at hopen
    split at hopen
    · cases hopen
    · next left leftEvents hleft =>
      split at hopen
      · cases hopen
      · next right rightEvents hright =>
        cases hopen
        exact ⟨left, right, leftEvents, rightEvents, hleft, hright, rfl⟩

theorem rule_of_openOn {stores : Stores} {opened : Intersection L R}
    (h : Cursor.openOn stores context m = ⟨.ok (), opened, events⟩) : opened.rule = m.rule := by
  obtain ⟨_, _, _, _, _, _, rfl⟩ := exists_of_openOn h
  rfl

/-- At its opening a side has used up nothing of the rows that its input provides. -/
theorem hasUsed_of_openOn {stores : Stores} {opened : Intersection L R} {side : Side}
    {rows : List Row} (hreads : m.Reads stores context side rows)
    (h : Cursor.openOn stores context m = ⟨.ok (), opened, events⟩) :
    opened.HasUsed side [] (m.counted side rows) := by
  obtain ⟨left, right, leftEvents, rightEvents, hleft, hright, rfl⟩ := exists_of_openOn h
  cases side with
  | left => exact ⟨_, rfl, .coming rfl (hreads left leftEvents hleft)⟩
  | right => exact ⟨_, rfl, .coming rfl (hreads right rightEvents hright)⟩

/-! ### Sessions -/

/-- A request for a row keeps the invariant `I` between the rows emitted so far and the
intersection, and the rows are `E` once it answers that there are no more. -/
structure Keeps (I : List Row → Intersection L R → Prop) (E : List Row → Prop) : Prop where
  stats {rows : List Row} {m : Intersection L R} (stats : MergeStats) :
    I rows m → I rows { m with stats }
  row {context : QueryContext} {rows : List Row} {m after : Intersection L R} {row : Row}
    {events : List Event} :
    I rows m → m.nextRow context = ⟨.ok (some row), after, events⟩ → I (rows ++ [row]) after
  ended {context : QueryContext} {rows : List Row} {m after : Intersection L R}
    {events : List Event} :
    I rows m → m.nextRow context = ⟨.ok none, after, events⟩ → E rows

/-- The invariant holds of the rows returned so far, and with the open intersection unless the merge
is over. -/
inductive Follows (I : List Row → Intersection L R → Prop) (E : List Row → Prop)
    (session : Session (Intersection L R)) : Prop where
  | active (hactive : session.cursor.lifecycle.state = .active)
      (hkept : I session.rows session.cursor) (hmore : ¬ session.Ended)
  | halted (hhalted : session.cursor.lifecycle.state ≠ .active) (hkept : ∃ m, I session.rows m)
      (hended : session.Ended ∨ session.cursor.lifecycle.state = .drained → E session.rows)

variable {I : List Row → Intersection L R → Prop} {E : List Row → Prop}
  {session : Session (Intersection L R)}

omit [Cursor L] [Cursor R] in
/-- Nothing is active after its last row. -/
theorem state_drain_ne_active (lifecycle : Lifecycle) : lifecycle.drain.state ≠ .active := by
  unfold Lifecycle.drain
  cases hstate : lifecycle.state <;> simp [CursorState.isActive, hstate]

/-- An intersection that is not active returns no row and stays so, and says that there are no more
rows only if it has said so before. -/
theorem advance_of_not_active (context : QueryContext) (hhalted : m.lifecycle.state ≠ .active) :
    (Cursor.advance context m).result.toOption.join = none ∧
      (Cursor.advance context m).cursor.lifecycle.state ≠ .active ∧
      ((Cursor.advance context m).result = .ok none ∨
        (Cursor.advance context m).cursor.lifecycle.state = .drained →
          m.lifecycle.state = .drained) := by
  show (m.advance context).result.toOption.join = none ∧
    (m.advance context).cursor.lifecycle.state ≠ .active ∧
    ((m.advance context).result = .ok none ∨
      (m.advance context).cursor.lifecycle.state = .drained → m.lifecycle.state = .drained)
  unfold advance Lifecycle.gate
  cases hstate : m.lifecycle.state with
  | active => exact absurd hstate hhalted
  | closed => simp [hstate, Except.toOption]
  | drained =>
    cases context.interruption? with
    | none => simp [hstate, Except.toOption]
    | some reason => simp [fail, close, Lifecycle.close, Except.toOption]

/-- An open intersection of a query that must not go on gives up. -/
theorem advance_of_interrupted {reason : Interruption} (hopen : m.lifecycle.state ≠ .closed)
    (hstop : context.interruption? = some reason) :
    Cursor.advance context m = m.fail (.interrupted reason) context.interruptionEvents := by
  show m.advance context = _
  unfold advance Lifecycle.gate
  rw [hstop]
  cases hstate : m.lifecycle.state with
  | closed => exact absurd hstate hopen
  | active => rfl
  | drained => rfl

/-- A failure closes the intersection. -/
theorem state_fail (m : Intersection L R) (e : CursorError) (events : List Event) :
    (m.fail e events).cursor.lifecycle.state = .closed := rfl

/-- A request that fails ends the merge, and what was emitted before stays. -/
theorem Follows.of_fail {stopped : Intersection L R} {e : CursorError}
    (hkept : I session.rows session.cursor) (hmore : ¬ session.Ended)
    (hadvance : Cursor.advance context session.cursor = stopped.fail e events) :
    Follows I E (session.step (.advance context)) := by
  have hresult : (Cursor.advance context session.cursor).result = .error e := by
    rw [hadvance]
    rfl
  have hstate : (Cursor.advance context session.cursor).cursor.lifecycle.state = .closed := by
    rw [hadvance, state_fail]
  have hrows : (session.step (.advance context)).rows = session.rows := by
    simp [hresult, Except.toOption]
  refine .halted (by simp [hstate]) ⟨session.cursor, by rwa [hrows]⟩ fun hended => ?_
  simp [Session.ended_step_advance, hresult, hmore, hstate] at hended

/-- Requests after the end of the merge change nothing. -/
theorem Follows.of_halted (hhalted : session.cursor.lifecycle.state ≠ .active)
    (hkept : ∃ m, I session.rows m)
    (hended : session.Ended ∨ session.cursor.lifecycle.state = .drained → E session.rows)
    (context : QueryContext) : Follows I E (session.step (.advance context)) := by
  obtain ⟨hrow, hstate, hdrained⟩ := advance_of_not_active context hhalted
  have hrows : (session.step (.advance context)).rows = session.rows := by
    rw [Session.rows_step_advance, hrow, Option.toList_none, List.append_nil]
  refine .halted hstate (by rwa [hrows]) fun hlast => ?_
  rw [Session.ended_step_advance, or_assoc] at hlast
  rw [hrows]
  exact hended (hlast.imp_right hdrained)

/-- A request that nothing interrupts returns the next row of the merge, ends it or fails. -/
theorem Follows.of_active (hkeeps : Keeps I E)
    (hactive : session.cursor.lifecycle.state = .active) (hkept : I session.rows session.cursor)
    (hmore : ¬ session.Ended) (hgo : context.interruption? = none) :
    Follows I E (session.step (.advance context)) := by
  have hadvance := advance_of_active hactive hgo
  cases hcall : session.cursor.nextRow context with
  | mk result after events =>
  rw [hcall] at hadvance
  cases result with
  | error e => exact .of_fail hkept hmore hadvance
  | ok answer =>
    cases answer with
    | none =>
      have hrows : (session.step (.advance context)).rows = session.rows := by
        simp [hadvance, Except.toOption]
      refine .halted ?_ ⟨session.cursor, by rwa [hrows]⟩ fun _ => ?_
      · rw [Session.cursor_step_advance, hadvance]
        exact state_drain_ne_active _
      · rw [hrows]
        exact hkeeps.ended hkept hcall
    | some row =>
      have hrows : (session.step (.advance context)).rows = session.rows ++ [row] := by
        simp [hadvance, Except.toOption]
      refine .active ?_ ?_ ?_
      · rw [Session.cursor_step_advance, hadvance]
        exact (congrArg Lifecycle.state (lifecycle_nextRow hcall)).trans hactive
      · rw [hrows, Session.cursor_step_advance, hadvance]
        exact hkeeps.stats _ (hkeeps.row hkept hcall)
      · simp [Session.ended_step_advance, hadvance, hmore]

theorem Follows.step (hkeeps : Keeps I E) (h : Follows I E session) (step : SessionStep) :
    Follows I E (session.step step) := by
  cases step with
  | change store call =>
    -- the inputs do not look at the stores again
    cases h with
    | active hactive hkept hmore => exact .active hactive hkept hmore
    | halted hhalted hkept hended => exact .halted hhalted hkept hended
  | advance context =>
    cases h with
    | halted hhalted hkept hended => exact .of_halted hhalted hkept hended context
    | active hactive hkept hmore =>
      cases hstop : context.interruption? with
      | some reason =>
        have hopen : session.cursor.lifecycle.state ≠ .closed := by simp [hactive]
        exact .of_fail hkept hmore (advance_of_interrupted hopen hstop)
      | none => exact .of_active hkeeps hactive hkept hmore hstop

theorem Follows.run (hkeeps : Keeps I E) (h : Follows I E session) (steps : List SessionStep) :
    Follows I E (session.run steps) := by
  induction steps generalizing session with
  | nil => exact h
  | cons step rest ih => exact ih (h.step hkeeps step)

/-- **Invariants of sessions.**  An invariant that requests for rows keep, and that holds of an
intersection when it is opened, holds of what it has returned at any point of any session. -/
theorem run_of_keeps (hkeeps : Keeps I E) {stores : Stores} {opened : Intersection L R}
    (h : Cursor.openOn stores context m = ⟨.ok (), opened, events⟩) (hstart : I [] opened)
    (steps : List SessionStep) :
    (∃ m, I (Session.run ⟨stores, opened, []⟩ steps).rows m) ∧
      ((Session.run ⟨stores, opened, []⟩ steps).Ended →
        E (Session.run ⟨stores, opened, []⟩ steps).rows) := by
  have hactive : opened.lifecycle.state = .active := by
    obtain ⟨_, _, _, _, _, _, rfl⟩ := exists_of_openOn h
    rfl
  have hopened : Follows I E ⟨stores, opened, []⟩ :=
    .active hactive hstart (by simp [Session.Ended])
  cases hopened.run hkeeps steps with
  | active _ hkept hmore => exact ⟨⟨_, hkept⟩, fun hended => absurd hended hmore⟩
  | halted _ hkept hended => exact ⟨hkept, fun h => hended (.inl h)⟩

end Intersection

end TableGroups
