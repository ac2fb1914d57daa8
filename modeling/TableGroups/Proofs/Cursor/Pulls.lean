import TableGroups.Proofs.Cursor.Failures
import TableGroups.Proofs.Cursor.Semijoin

/-!
# How often an intersection asks its inputs

Neither of the two loops of an intersection counts anything.  An input asks its cursor until a row
counts, and a request drops rows until one is to be emitted; a turn that used up no row would be
made again and again.  `Input.fillWithin` and `Intersection.nextRowWithin` are the same loops with a
limit on their turns, and no answer if the limit is reached.  With as many turns as there are rows,
and one, they come to what the loops without a limit come to
(`Intersection.advance_within_linear_pulls`).  So every request is answered, and this does not rest
on the bound that cursors have on their rows.

What decreases is the number of rows that are left (`Input.Leaves`): each turn of the one loop takes
a row from the cursor, and each turn of the other uses up a row in hand.  How many requests the
inputs get over a whole session is read off their logs, which are those of `Intersection.Traced`: an
answer that is no row is the last one, and no input has more rows than its stream.
-/

namespace TableGroups

/-! ### Inputs -/

namespace Input

variable {γ : Type} [Cursor γ]

/-- Fill the input as `Input.fill` does, in at most so many turns. -/
def fillWithin (context : QueryContext) (side : Side) (comparator : KeyComparator) (check : Bool) :
    Nat → Input γ → Option (Call (Input γ) Nat)
  | 0, _ => none
  | turns + 1, input =>
    if input.exhausted || input.lookahead.isSome then some ⟨.ok 0, input, []⟩
    else
      match Cursor.advance context input.cursor with
      | ⟨.error e, cursor, events⟩ => some ⟨.error e, { input with cursor }, events⟩
      | ⟨.ok none, cursor, events⟩ =>
        some ⟨.ok 0, { input with cursor, exhausted := true }, events⟩
      | ⟨.ok (some row), cursor, events⟩ =>
        if row.isOfType input.rowType then
          match if check then input.checkOrder side comparator row else .ok () with
          | .error e => some ⟨.error e, { input with cursor }, events⟩
          | .ok () => some ⟨.ok 0, { input with cursor, lookahead := some row }, events⟩
        else
          (fillWithin context side comparator check turns { input with cursor }).map fun rest =>
            ⟨rest.result.map (· + 1), rest.cursor, events ++ rest.events⟩

/-- At most so many rows are left: those that the cursor provides and the row in hand. -/
def Leaves (input : Input γ) (bound : Nat) : Prop :=
  ∃ rest, (input.exhausted = false → Cursor.Provides input.cursor rest) ∧
    rest.length + input.lookahead.toList.length ≤ bound

variable {context : QueryContext} {side : Side} {comparator : KeyComparator} {check : Bool}
  {input filled : Input γ} {bound turns : Nat}

/-- A row from the cursor is one of those that are left. -/
theorem Leaves.of_asked {cursor : γ} {row : Row} {events : List Event} (h : input.Leaves bound)
    (hasked : ¬(input.exhausted || input.lookahead.isSome) = true)
    (hstep : Cursor.advance context input.cursor = ⟨.ok (some row), cursor, events⟩) :
    ∃ others, Cursor.Provides cursor others ∧ others.length + 1 ≤ bound := by
  obtain ⟨rest, hrest, hbound⟩ := h
  obtain ⟨others, rfl, hothers⟩ := (hrest (exhausted_of_asked hasked)).of_some hstep
  exact ⟨others, hothers, (Nat.le_add_right _ _).trans hbound⟩

/-- After a row of another type fewer rows are left. -/
theorem Leaves.of_foreign {cursor : γ} {row : Row} {events : List Event} (h : input.Leaves bound)
    (hasked : ¬(input.exhausted || input.lookahead.isSome) = true)
    (hstep : Cursor.advance context input.cursor = ⟨.ok (some row), cursor, events⟩) :
    ∃ fewer, fewer < bound ∧ Leaves { input with cursor } fewer := by
  obtain ⟨others, hothers, hbound⟩ := h.of_asked hasked hstep
  refine ⟨others.length, hbound, others, fun _ => hothers, ?_⟩
  show others.length + input.lookahead.toList.length ≤ others.length
  rw [lookahead_of_asked hasked]
  exact Nat.le_refl _

/-- Filling takes one turn for each row passed over, and one. -/
theorem Leaves.fillWithin_succ (h : input.Leaves bound) (hturns : bound ≤ turns) :
    input.fillWithin context side comparator check (turns + 1) =
      some (input.fill context side comparator check) := by
  fun_induction Input.fill context side comparator check input generalizing bound turns with
  | case1 input hdone => rw [Input.fillWithin, if_pos hdone]
  | case2 input hasked e cursor events hstep => rw [Input.fillWithin, if_neg hasked, hstep]
  | case3 input hasked cursor events hstep => rw [Input.fillWithin, if_neg hasked, hstep]
  | case4 input hasked row cursor events hstep htype e hrefused =>
    have hrefused : (if check then input.checkOrder side comparator row else .ok ()) =
        .error e := hrefused
    rw [Input.fillWithin, if_neg hasked, hstep]
    simp only [if_pos htype, hrefused]
  | case5 input hasked row cursor events hstep htype haccept =>
    have haccept : (if check then input.checkOrder side comparator row else .ok ()) =
        .ok () := haccept
    rw [Input.fillWithin, if_neg hasked, hstep]
    simp only [if_pos htype, haccept]
  | case6 input hasked row cursor events hstep htype rest =>
    rename_i ih
    -- the turn has used up a row, so the other turns are enough for the others
    obtain ⟨fewer, hfewer, hleaves⟩ := h.of_foreign hasked hstep
    obtain ⟨others, rfl⟩ := Nat.exists_eq_add_of_lt (hfewer.trans_le hturns)
    have hrest := ih hleaves (Nat.le_add_right fewer others)
    rw [Input.fillWithin, if_neg hasked, hstep]
    simp only [if_neg htype, hrest, Option.map_some]
    rfl

/-- **Filling ends** after as many turns as there are rows left, and one. -/
theorem Leaves.fillWithin (h : input.Leaves bound) (hturns : bound < turns) :
    input.fillWithin context side comparator check turns =
      some (input.fill context side comparator check) := by
  obtain ⟨others, rfl⟩ := Nat.exists_eq_add_of_lt hturns
  exact h.fillWithin_succ (Nat.le_add_right bound others)

/-- Filling leaves no more rows than there were. -/
theorem Leaves.fill {passed : Nat} {events : List Event} (h : input.Leaves bound)
    (hfill : input.fill context side comparator check = ⟨.ok passed, filled, events⟩) :
    filled.Leaves bound := by
  fun_induction Input.fill context side comparator check input generalizing passed events bound with
  | case1 input _ =>
    cases hfill
    exact h
  | case2 input _ e cursor events _ => cases hfill
  | case3 input hasked cursor events hstep =>
    -- what an exhausted input leaves is not asked of its cursor
    cases hfill
    refine ⟨[], fun hmore => Bool.noConfusion hmore, ?_⟩
    show 0 + input.lookahead.toList.length ≤ bound
    rw [lookahead_of_asked hasked]
    exact Nat.zero_le _
  | case4 input _ row cursor events _ _ e _ => cases hfill
  | case5 input hasked row cursor events hstep _ _ =>
    obtain ⟨others, hothers, hbound⟩ := h.of_asked hasked hstep
    cases hfill
    exact ⟨others, fun _ => hothers, hbound⟩
  | case6 input hasked row cursor events hstep htype next =>
    rename_i ih
    obtain ⟨fewer, hfewer, hleaves⟩ := h.of_foreign hasked hstep
    simp only [Call.mk.injEq] at hfill
    obtain ⟨hresult, rfl, -⟩ := hfill
    cases hnext : next.result with
    | error e => simp [hnext, Except.map] at hresult
    | ok n =>
      obtain ⟨rest, hrest, hlength⟩ := ih hleaves (by rw [← hnext])
      exact ⟨rest, hrest, hlength.trans hfewer.le⟩

/-- Using up the row in hand leaves fewer. -/
theorem Leaves.take {row : Row} (h : input.Leaves bound) (hhand : input.lookahead = some row) :
    ∃ fewer, fewer < bound ∧ input.take.Leaves fewer := by
  obtain ⟨rest, hrest, hbound⟩ := h
  rw [hhand] at hbound
  rw [Input.take, hhand]
  exact ⟨rest.length, hbound, rest, hrest, Nat.le_refl _⟩

/-- An input on its way through a stream leaves no more rows than the stream has. -/
theorem Draws.leaves {input : Input (Logged γ)} {stream : List Row} (h : input.Draws stream) :
    (input.map Logged.cursor).Leaves stream.length := by
  -- the row in hand has been returned
  have hhand : input.lookahead.toList.length ≤ input.cursor.log.rows.length := by
    obtain ⟨used, hdeclared, -⟩ := h.seen
    calc input.lookahead.toList.length ≤ input.declared.length := by
          rw [hdeclared, List.length_append]
          exact Nat.le_add_left _ _
      _ ≤ input.cursor.log.rows.length := List.length_filter_le ..
  cases hexhausted : input.exhausted with
  | true =>
    obtain ⟨_, -, hbegins⟩ := h.orderly
    refine ⟨[], fun hmore => ?_, ?_⟩
    · exact Bool.noConfusion (hexhausted.symm.trans hmore)
    · show 0 + input.lookahead.toList.length ≤ stream.length
      rw [Nat.zero_add]
      exact hhand.trans hbegins.length_le
  | false =>
    obtain ⟨rest, rfl, hrest⟩ := (h.returns hexhausted).coming
    refine ⟨rest, fun _ => hrest, ?_⟩
    rw [List.length_append, Nat.add_comm]
    exact Nat.add_le_add_right hhand _

end Input

/-! ### Intersections -/

namespace Intersection

variable {L R : Type} [Cursor L] [Cursor R]

/-- Fill both inputs as `Intersection.fill` does, each in at most so many turns. -/
def fillWithin (context : QueryContext) (turns : Nat) (m : Intersection L R) :
    Option (Call (Intersection L R) Unit) :=
  match m.left.fillWithin context .left m.comparator m.checkOrder turns with
  | none => none
  | some ⟨.error e, left, events⟩ => some ⟨.error e, { m with left }, events⟩
  | some ⟨.ok passedLeft, left, events⟩ =>
    match m.right.fillWithin context .right m.comparator m.checkOrder turns with
    | none => none
    | some ⟨.error e, right, more⟩ => some ⟨.error e, { m with left, right }, events ++ more⟩
    | some ⟨.ok passedRight, right, more⟩ =>
      let discarded := m.stats.discarded + (passedLeft + passedRight)
      some ⟨.ok (), { m with left, right, stats := { m.stats with discarded } }, events ++ more⟩

/-- Merge as `Intersection.nextRow` does, in at most so many rounds of filling and judging. -/
def nextRowWithin (context : QueryContext) (turns : Nat) :
    Nat → Intersection L R → Option (Call (Intersection L R) (Option Row))
  | 0, _ => none
  | rounds + 1, m =>
    match m.fillWithin context turns with
    | none => none
    | some ⟨.error e, filled, events⟩ => some ⟨.error e, filled, events⟩
    | some ⟨.ok (), filled, events⟩ =>
      match filled.verdict with
      | .error e => some ⟨.error (.comparison e), filled, events⟩
      | .ok .finished => some ⟨.ok none, filled, events⟩
      | .ok (.emit side isMatch) =>
        some ⟨.ok (filled.lookahead side), filled.emit side isMatch, events⟩
      | .ok (.discard side) =>
        (nextRowWithin context turns rounds (filled.discard side)).map fun rest =>
          ⟨rest.result, rest.cursor, events ++ rest.events⟩

/-- Return the next row as `Intersection.advance` does, with limits on both loops. -/
def advanceWithin (context : QueryContext) (turns rounds : Nat) (m : Intersection L R) :
    Option (Call (Intersection L R) (Option Row)) :=
  match m.lifecycle.gate .intersection with
  | .error e => some ⟨.error e, m, []⟩
  | .ok active =>
    match context.interruption? with
    | some reason => some (m.fail (.interrupted reason) context.interruptionEvents)
    | none =>
      if active then
        match m.nextRowWithin context turns rounds with
        | none => none
        | some ⟨.error e, stopped, events⟩ => some (stopped.fail e events)
        | some ⟨.ok none, ended, events⟩ =>
          some ⟨.ok none, { ended with lifecycle := ended.lifecycle.drain }, events⟩
        | some ⟨.ok (some row), merged, events⟩ =>
          let stats := { merged.stats with emitted := merged.stats.emitted + 1 }
          some ⟨.ok (some row), { merged with stats }, events⟩
      else some ⟨.ok none, m, []⟩

/-- At most so many rows are left on either side. -/
structure Leaves (m : Intersection L R) (left right : Nat) : Prop where
  left : m.left.Leaves left
  right : m.right.Leaves right

variable {context : QueryContext} {m filled : Intersection L R} {left right turns rounds : Nat}

theorem Leaves.fillWithin (h : m.Leaves left right) (hleft : left < turns)
    (hright : right < turns) : m.fillWithin context turns = some (m.fill context) := by
  unfold Intersection.fillWithin fill
  rw [h.left.fillWithin hleft, h.right.fillWithin hright]
  cases m.left.fill context .left m.comparator m.checkOrder with
  | mk leftResult filledLeft leftEvents =>
  cases m.right.fill context .right m.comparator m.checkOrder with
  | mk rightResult filledRight rightEvents =>
  cases leftResult with
  | error e => rfl
  | ok passedLeft => cases rightResult <;> rfl

theorem Leaves.fill {events : List Event} (h : m.Leaves left right)
    (hfill : m.fill context = ⟨.ok (), filled, events⟩) : filled.Leaves left right := by
  obtain ⟨_, _, _, _, hleft, hright, -⟩ := exists_of_fill hfill
  exact ⟨h.left.fill hleft, h.right.fill hright⟩

/-- A round that drops a row leaves fewer. -/
theorem Leaves.discard {side : Side} {row : Row} (h : m.Leaves left right)
    (hhand : m.lookahead side = some row) :
    ∃ left' right', left' ≤ left ∧ right' ≤ right ∧ left' + right' < left + right ∧
      (m.discard side).Leaves left' right' := by
  cases side with
  | left =>
    obtain ⟨fewer, hfewer, htaken⟩ := h.left.take hhand
    exact ⟨fewer, right, hfewer.le, Nat.le_refl _, Nat.add_lt_add_right hfewer _, htaken, h.right⟩
  | right =>
    obtain ⟨fewer, hfewer, htaken⟩ := h.right.take hhand
    exact ⟨left, fewer, Nat.le_refl _, hfewer.le, Nat.add_lt_add_left hfewer _, h.left, htaken⟩

/-- A request takes one round for each row dropped, and one. -/
theorem Leaves.nextRowWithin_succ (h : m.Leaves left right) (hleft : left < turns)
    (hright : right < turns) (hrounds : left + right ≤ rounds) :
    m.nextRowWithin context turns (rounds + 1) = some (m.nextRow context) := by
  have hfilling : m.fillWithin context turns = some (m.fill context) :=
    h.fillWithin hleft hright
  fun_induction Intersection.nextRow context m generalizing left right rounds with
  | case1 m e filled events hfill => rw [Intersection.nextRowWithin, hfilling, hfill]
  | case2 m filled events hfill e hverdict =>
    rw [Intersection.nextRowWithin, hfilling, hfill]
    simp only [hverdict]
  | case3 m filled events hfill hverdict =>
    rw [Intersection.nextRowWithin, hfilling, hfill]
    simp only [hverdict]
  | case4 m filled events hfill side isMatch hverdict =>
    rw [Intersection.nextRowWithin, hfilling, hfill]
    simp only [hverdict]
  | case5 m filled events hfill side hverdict rest =>
    rename_i ih
    -- the round has used up a row in hand, so the other rounds are enough
    obtain ⟨row, hhand⟩ := lookahead_of_discard hverdict
    obtain ⟨left', right', hleft', hright', hfewer, hleaves⟩ := (h.fill hfill).discard hhand
    have hturnsLeft : left' < turns := hleft'.trans_lt hleft
    have hturnsRight : right' < turns := hright'.trans_lt hright
    obtain ⟨others, rfl⟩ := Nat.exists_eq_add_of_lt (hfewer.trans_le hrounds)
    have hrest := ih hleaves hturnsLeft hturnsRight (Nat.le_add_right (left' + right') others)
      (hleaves.fillWithin hturnsLeft hturnsRight)
    rw [Intersection.nextRowWithin, hfilling, hfill]
    simp only [hverdict, hrest, Option.map_some]
    rfl

/-- **A request for the next row ends** after as many rounds as there are rows left, and one. -/
theorem Leaves.nextRowWithin (h : m.Leaves left right) (hleft : left < turns)
    (hright : right < turns) (hrounds : left + right < rounds) :
    m.nextRowWithin context turns rounds = some (m.nextRow context) := by
  obtain ⟨others, rfl⟩ := Nat.exists_eq_add_of_lt hrounds
  exact h.nextRowWithin_succ hleft hright (Nat.le_add_right (left + right) others)

/-- Only an open merge comes to its loops. -/
theorem advanceWithin_eq (h : m.lifecycle.state = .active → m.Leaves left right)
    (hleft : left < turns) (hright : right < turns) (hrounds : left + right < rounds) :
    m.advanceWithin context turns rounds = some (m.advance context) := by
  unfold advanceWithin advance
  cases hgate : m.lifecycle.gate .intersection with
  | error e => rfl
  | ok active =>
    cases context.interruption? with
    | some reason => rfl
    | none =>
      cases active with
      | false => rfl
      | true =>
        have hleaves := h (Lifecycle.gate_eq_ok_true_iff.mp hgate)
        simp only [if_true, hleaves.nextRowWithin hleft hright hrounds]
        cases m.nextRow context with
        | mk result after events =>
        cases result with
        | error e => rfl
        | ok answer => cases answer <;> rfl

/-- **The merge terminates within linear pulls.**  Take an intersection whose inputs provide finite
streams of rows, of any types and in any order.  In every session with it each request for a row
comes to its answer, also if both of its loops are limited: the one that asks an input to more turns
than the input has rows, and the one that drops rows to more rounds than both inputs have.  Each
input is asked at most once more than it has rows, and not again after it has said that there are no
more or has failed. -/
theorem advance_within_linear_pulls {m opened : Intersection L R} {stores : Stores}
    {opening : QueryContext} {stream : Side → List Row} {events : List Event}
    (hreads : ∀ side, m.Reads stores opening side (stream side))
    (hopen : Cursor.openOn stores opening m = ⟨.ok (), opened, events⟩)
    (steps : List SessionStep) :
    let session := Session.run ⟨stores, opened, []⟩ steps
    let answers := opened.inputAnswers stores steps
    (∀ context turns rounds, (∀ side, (stream side).length < turns) →
        (stream .left).length + (stream .right).length < rounds →
          session.cursor.advanceWithin context turns rounds =
            some (Cursor.advance context session.cursor)) ∧
      ∀ side, (answers side).length ≤ (stream side).length + 1 ∧
        (∀ answer ∈ (answers side).dropLast, ∃ row, answer = .ok (some row)) ∧
          (answers side).rows <+: stream side := by
  intro session answers
  have htraced := traced_of_openOn hreads hopen steps
  constructor
  · intro context turns rounds hturns hrounds
    refine advanceWithin_eq (fun hactive => ?_) (hturns .left) (hturns .right) hrounds
    -- with logs on the inputs the session is the same
    have hstate : (Session.run ⟨stores, opened.withLogs, []⟩ steps).cursor.lifecycle.state ≠
        .closed := by
      rw [← opened.state_run_withLogs]
      intro hclosed
      exact CursorState.noConfusion (hclosed.symm.trans hactive)
    have hsession : session = _ := opened.run_withLogs stores steps
    rw [hsession]
    have hdraws := htraced.draws hstate
    exact ⟨hdraws.left.leaves, hdraws.right.leaves⟩
  · intro side
    have horderly : (answers side).Orderly (stream side) := htraced.orderly side
    obtain ⟨_, -, hbegins⟩ := id horderly
    exact ⟨horderly.length_le, horderly.exists_row_of_mem, hbegins⟩

/-- Rows that are named on the left and numbers on the right, joined and with all left rows kept. -/
def sampleJoin : Intersection RowsCursor RowsCursor :=
  IntersectionRequest.made IntersectionRequest.sampleLeft IntersectionRequest.sampleRight [.desc]
    .left .left

/-- The fourth request drops all three rows of the right input, in no more rounds than there are
rows.  When the merge is over both inputs have been asked once more than they have rows. -/
theorem advance_within_linear_pulls_sampleJoin :
    ∃ opened events, Cursor.openOn (fun _ => .empty) .standard sampleJoin =
        ⟨.ok (), opened, events⟩ ∧
      let session := Session.run ⟨fun _ => .empty, opened, []⟩
        (List.replicate 3 (.advance .standard))
      let answers := opened.inputAnswers (fun _ => .empty) (List.replicate 5 (.advance .standard))
      session.cursor.advanceWithin .standard 6 9 = some (Cursor.advance .standard session.cursor) ∧
        (answers .left).length = 6 ∧ (answers .left).length ≤ 5 + 1 ∧
        (answers .right).length = 4 ∧ (answers .right).length ≤ 3 + 1 := by
  have hreads : ∀ side, sampleJoin.Reads (fun _ => .empty) .standard side
      (side.select sampleJoin.left.cursor.rows sampleJoin.right.cursor.rows) := by
    intro side
    cases side with
    | left => exact RowsCursor.provides_of_openOn _ _ sampleJoin.left.cursor
    | right => exact RowsCursor.provides_of_openOn _ _ sampleJoin.right.cursor
  have hturns : ∀ side : Side,
      (side.select sampleJoin.left.cursor.rows sampleJoin.right.cursor.rows).length < 6 := by
    intro side
    cases side <;> decide
  have hending := (advance_within_linear_pulls hreads rfl
    (List.replicate 3 (.advance .standard))).1 .standard 6 9 hturns (by decide)
  have hasked := (advance_within_linear_pulls hreads rfl
    (List.replicate 5 (.advance .standard))).2
  exact ⟨_, _, rfl, hending, by decide +kernel, (hasked .left).1, by decide +kernel,
    (hasked .right).1⟩

end Intersection

end TableGroups
