import TableGroups.Proofs.Cursor.Pulls

/-!
# No row goes missing in a merge

Every row that an input returns to an intersection has one of three ways to go.  It is emitted, with
a partner or without, or it is dropped, because it is of another type or because it can have no
partner, or it is still in hand.  The counters of the intersection tell how many went which way, so
together with the rows in hand they account for all rows that the inputs have returned
(`Intersection.accounts_for_rows`).

The invariant is `Intersection.Accounted`.  Filling an input takes rows from its cursor, and of them
one may come into hand and all others are counted (`Input.returned_fill`).  Dropping a row and
emitting one take it out of the hand and count it.  How many rows an input has returned is read off
its log.
-/

namespace TableGroups

variable {context : QueryContext} {events : List Event}

/-- An answer adds its row to the rows in the log. -/
theorem Logged.length_rows_of_advance {γ : Type} [Cursor γ] {c after : Logged γ}
    {answer : Option Row} (h : Cursor.advance context c = ⟨.ok answer, after, events⟩) :
    after.log.rows.length = c.log.rows.length + answer.toList.length := by
  obtain ⟨-, hlog⟩ := log_of_advance h
  rw [hlog, Answers.rows_append, List.length_append]
  cases answer <;> rfl

/-! ### Inputs -/

namespace Input

variable {γ : Type}

/-- How many rows are in hand: one or none. -/
def held (input : Input γ) : Nat :=
  input.lookahead.toList.length

/-- How many rows the cursor has returned. -/
def returned (input : Input (Logged γ)) : Nat :=
  input.cursor.log.rows.length

/-- A row that is used up is no longer in hand. -/
theorem held_take {input : Input γ} {row : Row} (hhand : input.lookahead = some row) :
    input.held = input.take.held + 1 := by
  have htaken : input.take.lookahead = none := by rw [take, hhand]
  rw [held, held, hhand, htaken]
  rfl

@[simp] theorem returned_take (input : Input (Logged γ)) :
    input.take.returned = input.returned := by
  rw [returned, returned, cursor_take]

variable [Cursor γ] {side : Side} {comparator : KeyComparator} {check : Bool}
  {input filled : Input (Logged γ)} {passed : Nat}

/-- **Filling loses no row**: those that the cursor returns on the way are passed over, up to the
one that is in hand afterwards. -/
theorem returned_fill
    (h : input.fill context side comparator check = ⟨.ok passed, filled, events⟩) :
    filled.returned + input.held = input.returned + passed + filled.held := by
  fun_induction Input.fill context side comparator check input generalizing passed events with
  | case1 input _ =>
    -- nothing is asked
    cases h
    rfl
  | case2 input _ e cursor events _ => cases h
  | case3 input _ cursor events hstep =>
    have hreturned : cursor.log.rows.length = input.returned + 0 :=
      Logged.length_rows_of_advance hstep
    cases h
    show cursor.log.rows.length + input.held = input.returned + 0 + input.held
    rw [hreturned]
  | case4 input _ row cursor events _ _ e _ => cases h
  | case5 input hasked row cursor events hstep _ _ =>
    -- the row comes into a hand that was empty
    have hreturned : cursor.log.rows.length = input.returned + 1 :=
      Logged.length_rows_of_advance hstep
    have hempty : input.held = 0 := by rw [held, lookahead_of_asked hasked]; rfl
    cases h
    show cursor.log.rows.length + input.held = input.returned + 0 + 1
    rw [hreturned, hempty]
  | case6 input _ row cursor events hstep _ rest =>
    rename_i ih
    have hreturned : cursor.log.rows.length = input.returned + 1 :=
      Logged.length_rows_of_advance hstep
    simp only [Call.mk.injEq] at h
    obtain ⟨hresult, rfl, -⟩ := h
    cases hrest : rest.result with
    | error e => simp [hrest, Except.map] at hresult
    | ok others =>
      have hpassed : others + 1 = passed := by simpa [hrest, Except.map] using hresult
      have hothers : rest.cursor.returned + input.held =
          cursor.log.rows.length + others + rest.cursor.held := ih (by rw [← hrest])
      omega

end Input

/-! ### Intersections -/

namespace Intersection

variable {L R : Type}

/-- How many sides have a row in hand. -/
def held (m : Intersection L R) : Nat :=
  m.left.held + m.right.held

/-- How many rows the inputs have returned. -/
def returned (m : Intersection (Logged L) (Logged R)) : Nat :=
  m.left.returned + m.right.returned

theorem held_take {m : Intersection L R} {side : Side} {row : Row}
    (hhand : m.lookahead side = some row) : m.held = (m.take side).held + 1 := by
  cases side with
  | left =>
    have hleft : m.left.held = m.left.take.held + 1 := Input.held_take hhand
    show m.left.held + m.right.held = m.left.take.held + m.right.held + 1
    omega
  | right =>
    have hright : m.right.held = m.right.take.held + 1 := Input.held_take hhand
    show m.left.held + m.right.held = m.left.held + m.right.take.held + 1
    omega

@[simp] theorem returned_take (m : Intersection (Logged L) (Logged R)) (side : Side) :
    (m.take side).returned = m.returned := by
  cases side <;> simp [returned, take]

@[simp] theorem held_emit (m : Intersection L R) (side : Side) (isMatch : Bool) :
    (m.emit side isMatch).held = (m.take side).held := by
  cases isMatch <;> rfl

@[simp] theorem returned_emit (m : Intersection (Logged L) (Logged R)) (side : Side)
    (isMatch : Bool) : (m.emit side isMatch).returned = m.returned := by
  have htaken : (m.emit side isMatch).returned = (m.take side).returned := by cases isMatch <;> rfl
  rw [htaken, returned_take]

/-- An emitted row counts as a match or as one without a partner, and as nothing else. -/
theorem stats_emit (m : Intersection L R) (side : Side) (isMatch : Bool) :
    (m.emit side isMatch).stats.matched + (m.emit side isMatch).stats.unmatchedEmitted =
        m.stats.matched + m.stats.unmatchedEmitted + 1 ∧
      (m.emit side isMatch).stats.discarded = m.stats.discarded ∧
      (m.emit side isMatch).stats.emitted = m.stats.emitted := by
  cases isMatch with
  | true => exact ⟨Nat.succ_add _ _, rfl, rfl⟩
  | false => exact ⟨rfl, rfl, rfl⟩

/-- The counters account for all rows that the inputs have returned, of which so many were
emitted. -/
structure Accounted (m : Intersection (Logged L) (Logged R)) (rows : Nat) : Prop where
  returned : m.returned = rows + m.stats.discarded + m.held
  kinds : m.stats.matched + m.stats.unmatchedEmitted = rows
  emitted : m.stats.emitted = rows

variable {m filled after : Intersection (Logged L) (Logged R)} {side : Side} {row : Row}
  {isMatch : Bool} {rows : Nat}

/-- A dropped row goes from the hand to the dropped ones. -/
theorem Accounted.discard (h : m.Accounted rows) (hhand : m.lookahead side = some row) :
    (m.discard side).Accounted rows := by
  refine ⟨?_, h.kinds, h.emitted⟩
  have hheld : m.held = (m.take side).held + 1 := held_take hhand
  show (m.take side).returned = rows + (m.stats.discarded + 1) + (m.take side).held
  rw [returned_take, h.returned]
  omega

/-- An emitted row goes from the hand to the emitted ones, once it is counted. -/
theorem Accounted.emit (h : m.Accounted rows) (hhand : m.lookahead side = some row)
    (lifecycle : Lifecycle) :
    Accounted
      { m.emit side isMatch with
        stats :=
          { (m.emit side isMatch).stats with
            emitted := (m.emit side isMatch).stats.emitted + 1 }
        lifecycle }
      (rows + 1) := by
  obtain ⟨hkinds, hdiscarded, hemitted⟩ := m.stats_emit side isMatch
  refine ⟨?_, ?_, ?_⟩
  · have hheld : m.held = (m.take side).held + 1 := held_take hhand
    show (m.emit side isMatch).returned =
      rows + 1 + (m.emit side isMatch).stats.discarded + (m.emit side isMatch).held
    rw [returned_emit, held_emit, hdiscarded, h.returned]
    omega
  · exact hkinds.trans (congrArg (· + 1) h.kinds)
  · exact congrArg (· + 1) (hemitted.trans h.emitted)

variable [Cursor L] [Cursor R]

/-- Filling counts what it passes over. -/
theorem Accounted.fill (h : m.Accounted rows)
    (hfill : m.fill context = ⟨.ok (), filled, events⟩) : filled.Accounted rows := by
  obtain ⟨leftPassed, rightPassed, _, _, hleft, hright, hfilled⟩ := exists_of_fill hfill
  have hstats : filled.stats =
      { m.stats with discarded := m.stats.discarded + (leftPassed + rightPassed) } :=
    congrArg stats hfilled
  refine ⟨?_, hstats ▸ h.kinds, hstats ▸ h.emitted⟩
  have hreturned : m.left.returned + m.right.returned =
      rows + m.stats.discarded + (m.left.held + m.right.held) := h.returned
  have hleftReturned : filled.left.returned + m.left.held =
      m.left.returned + leftPassed + filled.left.held := Input.returned_fill hleft
  have hrightReturned : filled.right.returned + m.right.held =
      m.right.returned + rightPassed + filled.right.held := Input.returned_fill hright
  have hdiscarded : filled.stats.discarded =
      m.stats.discarded + (leftPassed + rightPassed) := congrArg MergeStats.discarded hstats
  show filled.left.returned + filled.right.returned =
    rows + filled.stats.discarded + (filled.left.held + filled.right.held)
  omega

/-- A request that is answered accounts for its row as well. -/
theorem Accounted.advance {answer : Option Row} (h : m.Accounted rows)
    (hadvance : Cursor.advance context m = ⟨.ok answer, after, events⟩) :
    after.Accounted (rows + answer.toList.length) := by
  rcases exists_of_advance hadvance with ⟨-, rfl, rfl⟩ | ⟨-, asked, lifecycle, hasked, rfl, -⟩
  · exact h
  · have hrequested : Requested (Accounted · rows) (m.nextRow context) := by
      refine Requested.nextRow (P := (Accounted · rows)) (fun _ _ _ hm => hm.fill)
        (fun last side hlast hverdict => ?_) h
      obtain ⟨row, hhand⟩ := lookahead_of_discard hverdict
      exact hlast.discard hhand
    rw [hasked] at hrequested
    cases hrequested with
    | failed hresult => cases hresult
    | finished hlast _ hresult =>
      cases hresult
      exact ⟨hlast.returned, hlast.kinds, hlast.emitted⟩
    | emitted hlast _ hhand hresult hcursor =>
      cases hresult
      dsimp only at hcursor
      rw [hcursor]
      exact hlast.emit hhand lifecycle

/-! ### Sessions -/

/-- An intersection that has just been opened accounts for no rows. -/
theorem accounted_of_openOn {m opened : Intersection L R} {stores : Stores}
    (h : Cursor.openOn stores context m = ⟨.ok (), opened, events⟩) :
    opened.withLogs.Accounted 0 := by
  obtain ⟨_, _, _, _, _, _, rfl⟩ := exists_of_openOn h
  exact ⟨rfl, rfl, rfl⟩

/-- As long as requests are answered, the rows are accounted for. -/
theorem Accounted.run {stores : Stores} (h : m.Accounted 0) (steps : List SessionStep)
    (hanswered : ∀ answer ∈ (Session.run ⟨stores, m, []⟩ steps).answers,
      ∃ row?, answer = .ok row?) :
    (Session.run ⟨stores, m, []⟩ steps).cursor.Accounted
      (Session.run ⟨stores, m, []⟩ steps).rows.length := by
  induction steps using List.reverseRecOn with
  | nil => exact h
  | append_singleton steps step ih =>
    rw [Session.run_concat] at hanswered ⊢
    cases step with
    | change store call => exact ih hanswered
    | advance context =>
      have hbefore := ih fun answer hanswer =>
        hanswered answer (List.mem_append_left _ hanswer)
      obtain ⟨row?, hrow⟩ := hanswered _ (List.mem_append_right _ (List.mem_singleton_self _))
      rw [Session.rows_step_advance, Session.cursor_step_advance, List.length_append, hrow]
      exact hbefore.advance (congrArg (Call.mk · _ _) hrow)

/-- **A merge conserves rows.**  Open an intersection and ask it for rows, whatever its inputs are
and whatever happens to the stores meanwhile.  As long as every request is answered, the rows that
the two inputs have returned since the opening, those of other types included, are as many as the
rows that were emitted, the rows that were dropped and the rows in hand together.  Of the emitted
rows each was counted once, with a partner or without. -/
theorem accounts_for_rows {m opened : Intersection L R} {stores : Stores} {opening : QueryContext}
    (hopen : Cursor.openOn stores opening m = ⟨.ok (), opened, events⟩) (steps : List SessionStep)
    (hanswered : ∀ answer ∈ (Session.run ⟨stores, opened, []⟩ steps).answers,
      ∃ row?, answer = .ok row?) :
    let session := Session.run ⟨stores, opened, []⟩ steps
    let returned := fun side => (opened.inputAnswers stores steps side).rows.length
    let stats := session.cursor.stats
    returned .left + returned .right =
        session.rows.length + stats.discarded + session.cursor.held ∧
      session.rows.length = stats.matched + stats.unmatchedEmitted ∧
      session.rows.length = stats.emitted := by
  -- with logs on the inputs the session is the same
  rw [opened.run_withLogs] at hanswered ⊢
  intro session returned stats
  have haccounted := (accounted_of_openOn hopen).run steps hanswered
  exact ⟨haccounted.returned, haccounted.kinds.symm, haccounted.emitted.symm⟩

/-- When three rows of the sample were emitted, two of them with a partner, the left input has
returned a row of another type besides, and the right input the row that is in hand. -/
theorem accounts_for_rows_sampleJoin :
    ∃ opened events, Cursor.openOn (fun _ => .empty) .standard sampleJoin =
        ⟨.ok (), opened, events⟩ ∧
      let steps := List.replicate 3 (.advance .standard)
      let session := Session.run ⟨fun _ => .empty, opened, []⟩ steps
      let returned := fun side => (opened.inputAnswers (fun _ => .empty) steps side).rows.length
      let stats := session.cursor.stats
      returned .left + returned .right =
          session.rows.length + stats.discarded + session.cursor.held ∧
        session.rows.length = stats.matched + stats.unmatchedEmitted ∧
        returned .left = 4 ∧ returned .right = 1 ∧ session.rows.length = 3 ∧
        session.cursor.held = 1 ∧ stats = ⟨3, 2, 1, 1⟩ := by
  let opened := (Cursor.openOn (fun _ => .empty) .standard sampleJoin).cursor
  have hopen : Cursor.openOn (fun _ => .empty) .standard sampleJoin = ⟨.ok (), opened, _⟩ := rfl
  have hanswered : ∀ answer ∈ (Session.run ⟨fun _ => .empty, opened, []⟩
      (List.replicate 3 (.advance .standard))).answers, ∃ row?, answer = .ok row? := by
    have hrows : (Session.run ⟨fun _ => .empty, opened, []⟩
        (List.replicate 3 (.advance .standard))).answers.all (·.toBool) := by decide +kernel
    intro answer hanswer
    cases answer with
    | error e => exact absurd (List.all_eq_true.mp hrows _ hanswer) Bool.false_ne_true
    | ok row? => exact ⟨row?, rfl⟩
  obtain ⟨hreturned, hkinds, -⟩ := accounts_for_rows hopen _ hanswered
  exact ⟨opened, _, hopen, hreturned, hkinds, by decide +kernel⟩

end Intersection

end TableGroups
