import TableGroups.Proofs.Cursor.Invariant
import TableGroups.Proofs.Cursor.Mirror

/-!
# What the inputs of an intersection were asked

A log on a cursor keeps all its answers to requests for rows, in their order.  It takes no part in
the calls (`Logged.mirrors`), so an intersection answers alike whether or not its inputs have logs
(`Intersection.run_withLogs`), and what the logs of its inputs hold after a session is what the
inputs were asked in it (`Intersection.inputAnswers`).

Of one input the following is kept as long as no call fails (`Input.Draws`).  Its cursor has
returned rows of its stream one after the other, and if it has said that there are no more then
this was its last answer.  The rows that count were used up in their order, up to the row in hand,
and the one before it was used up last.  Filling keeps this (`Input.Draws.fill`), or it ends in one
of three failures (`Input.Stopped`): the cursor has failed, or the row that it returned last cannot
be compared with the row that counts before it, or goes behind it.
-/

namespace TableGroups

/-- Answers to requests for rows, the first answer first. -/
abbrev Answers := List (Except CursorError (Option Row))

namespace Answers

/-- The rows that were returned. -/
def rows (answers : Answers) : List Row :=
  answers.filterMap fun answer => answer.toOption.join

/-- All answers but the last are rows, and the rows begin the stream. -/
def Orderly (answers : Answers) (stream : List Row) : Prop :=
  ∃ last : Option (Except CursorError (Option Row)),
    answers = answers.rows.map (.ok <| some ·) ++ last.toList ∧ answers.rows <+: stream

@[simp] theorem rows_append (answers more : Answers) :
    (answers ++ more : Answers).rows = answers.rows ++ more.rows :=
  List.filterMap_append

variable {answers : Answers} {stream : List Row}

/-- No more requests were made than there are rows, and one. -/
theorem Orderly.length_le (h : answers.Orderly stream) : answers.length ≤ stream.length + 1 := by
  obtain ⟨last, heq, hrows⟩ := h
  have hlast : last.toList.length ≤ 1 := by cases last <;> simp
  calc answers.length = answers.rows.length + last.toList.length := by
        rw [congrArg List.length heq, List.length_append, List.length_map]
    _ ≤ stream.length + 1 := Nat.add_le_add hrows.length_le hlast

/-- An answer that is no row is the last one. -/
theorem Orderly.exists_row_of_mem (h : answers.Orderly stream) :
    ∀ answer ∈ answers.dropLast, ∃ row, answer = .ok (some row) := by
  obtain ⟨last, heq, -⟩ := h
  intro answer hanswer
  have hrow : answer ∈ answers.rows.map (.ok <| some ·) := by
    cases last with
    | none =>
      rw [Option.toList_none, List.append_nil] at heq
      rw [← heq]
      exact (List.dropLast_subset _) hanswer
    | some last =>
      rw [heq, Option.toList_some, List.dropLast_concat] at hanswer
      exact hanswer
  obtain ⟨row, -, rfl⟩ := List.mem_map.mp hrow
  exact ⟨row, rfl⟩

end Answers

/-! ### Cursors with a log -/

/-- A cursor with a log. -/
structure Logged (γ : Type) where
  cursor : γ
  /-- What the cursor has answered to requests for rows. -/
  log : Answers

namespace Logged

variable {γ : Type} [Cursor γ]

/-- A cursor with a new log. -/
def fit (c : γ) : Logged γ :=
  ⟨c, []⟩

/-- Open the cursor. -/
def openOn (stores : Stores) (context : QueryContext) (c : Logged γ) : Call (Logged γ) Unit :=
  (Cursor.openOn stores context c.cursor).map (Logged.mk · c.log)

/-- Ask the cursor for a row and put its answer in the log. -/
def advance (context : QueryContext) (c : Logged γ) : Call (Logged γ) (Option Row) :=
  let call := Cursor.advance context c.cursor
  call.map (Logged.mk · (c.log ++ [call.result]))

/-- Close the cursor. -/
def close (c : Logged γ) : Logged γ × List Event :=
  (⟨(Cursor.close c.cursor).1, c.log⟩, (Cursor.close c.cursor).2)

/-- A request is answered by the cursor below, and adds the answer to the log. -/
theorem log_of_advance {context : QueryContext} {c after : Logged γ}
    {result : Except CursorError (Option Row)} {events : List Event}
    (h : c.advance context = ⟨result, after, events⟩) :
    Cursor.advance context c.cursor = ⟨result, after.cursor, events⟩ ∧
      after.log = c.log ++ [result] := by
  cases h
  exact ⟨rfl, rfl⟩

instance : Cursor (Logged γ) where
  rowType c := Cursor.rowType c.cursor
  state c := Cursor.state c.cursor
  openOn := openOn
  advance := advance
  close := close
  remaining c := Cursor.remaining c.cursor
  remaining_advance h := Cursor.remaining_advance (log_of_advance h).1

/-- A log takes no part in the calls. -/
theorem mirrors : Cursor.Mirrors (cursor : Logged γ → γ) where
  state _ := rfl
  openOn _ _ _ := rfl
  advance _ _ := rfl
  close _ := rfl

/-! ### Rows of a stream -/

variable {context : QueryContext} {c after : Logged γ} {stream : List Row} {events : List Event}

/-- The cursor has returned rows of the stream and nothing else, and the others are to come. -/
structure Returns (c : Logged γ) (stream : List Row) : Prop where
  log : c.log = c.log.rows.map (.ok <| some ·)
  coming : ∃ rest, stream = c.log.rows ++ rest ∧ Cursor.Provides c.cursor rest

omit [Cursor γ] in
/-- After rows of a stream any answer may be the last one. -/
theorem orderly_of_log {before : Logged γ} {answer : Except CursorError (Option Row)}
    (hbefore : before.log = before.log.rows.map (.ok <| some ·))
    (hrows : before.log.rows <+: stream) (hanswer : answer.toOption.join = none)
    (hlog : c.log = before.log ++ [answer]) :
    c.log.rows = before.log.rows ∧ c.log.Orderly stream := by
  have hsame : c.log.rows = before.log.rows := by
    rw [hlog, Answers.rows_append]
    simp [Answers.rows, hanswer]
  refine ⟨hsame, some answer, ?_, hsame ▸ hrows⟩
  rw [hsame, ← hbefore, hlog, Option.toList_some]

theorem Returns.isPrefix (h : c.Returns stream) : c.log.rows <+: stream := by
  obtain ⟨rest, rfl, -⟩ := h.coming
  exact List.prefix_append _ _

theorem Returns.orderly (h : c.Returns stream) : c.log.Orderly stream :=
  ⟨none, by rw [Option.toList_none, List.append_nil]; exact h.log, h.isPrefix⟩

/-- The next row is the next one of the stream. -/
theorem Returns.of_some {row : Row} (h : c.Returns stream)
    (hstep : Cursor.advance context c = ⟨.ok (some row), after, events⟩) :
    after.log.rows = c.log.rows ++ [row] ∧ after.Returns stream := by
  obtain ⟨hcall, hlog⟩ := log_of_advance hstep
  obtain ⟨rest, rfl, hrest⟩ := h.coming
  obtain ⟨others, rfl, hothers⟩ := hrest.of_some hcall
  have hrows : after.log.rows = c.log.rows ++ [row] := by
    rw [hlog, Answers.rows_append]
    rfl
  refine ⟨hrows, ?_, others, by rw [hrows, List.append_assoc, List.singleton_append], hothers⟩
  rw [hrows, List.map_append, ← h.log, hlog]
  rfl

/-- The cursor says that there are no more rows, or fails. -/
theorem Returns.of_last {answer : Except CursorError (Option Row)} (h : c.Returns stream)
    (hanswer : answer.toOption.join = none)
    (hstep : Cursor.advance context c = ⟨answer, after, events⟩) :
    after.log.rows = c.log.rows ∧ after.log.Orderly stream :=
  orderly_of_log h.log h.isPrefix hanswer (log_of_advance hstep).2

end Logged

/-! ### Sessions with logs -/

/-- The session with its cursor mapped. -/
def Session.map {γ δ : Type} (f : γ → δ) (session : Session γ) : Session δ :=
  ⟨session.stores, f session.cursor, session.answers⟩

namespace Cursor.Mirrors

variable {γ δ : Type} [Cursor γ] [Cursor δ] {f : γ → δ}

theorem step (h : Mirrors f) (session : Session γ) (step : SessionStep) :
    (session.map f).step step = (session.step step).map f := by
  cases step with
  | change store call => rfl
  | advance context =>
    have hcall := h.advance context session.cursor
    simp only [Session.step, Session.map, hcall]
    rfl

/-- A session with a mirrored cursor is the session with the cursor, mirrored. -/
theorem run (h : Mirrors f) (session : Session γ) (steps : List SessionStep) :
    (session.map f).run steps = (session.run steps).map f := by
  induction steps generalizing session with
  | nil => rfl
  | cons step rest ih =>
    show ((session.map f).step step).run rest = _
    rw [h.step, ih]
    rfl

end Cursor.Mirrors

namespace Intersection

variable {L R : Type}

/-- The intersection with new logs on its inputs. -/
def withLogs (m : Intersection L R) : Intersection (Logged L) (Logged R) :=
  m.map Logged.fit Logged.fit

/-- The intersection without the logs on its inputs. -/
def withoutLogs (m : Intersection (Logged L) (Logged R)) : Intersection L R :=
  m.map Logged.cursor Logged.cursor

/-- What the input of a side has answered. -/
def log (m : Intersection (Logged L) (Logged R)) : Side → Answers
  | .left => m.left.cursor.log
  | .right => m.right.cursor.log

variable [Cursor L] [Cursor R]

/-- What the input of a side answers to requests for rows in a session with the intersection. -/
def inputAnswers (opened : Intersection L R) (stores : Stores) (steps : List SessionStep)
    (side : Side) : Answers :=
  (Session.run ⟨stores, opened.withLogs, []⟩ steps).cursor.log side

/-- Sessions are alike with logs on the inputs and without. -/
theorem run_withLogs (opened : Intersection L R) (stores : Stores) (steps : List SessionStep) :
    Session.run ⟨stores, opened, []⟩ steps =
      (Session.run ⟨stores, opened.withLogs, []⟩ steps).map withoutLogs :=
  (mirrors Logged.mirrors Logged.mirrors).run ⟨stores, opened.withLogs, []⟩ steps

theorem state_run_withLogs (opened : Intersection L R) (stores : Stores)
    (steps : List SessionStep) :
    Cursor.state (Session.run ⟨stores, opened, []⟩ steps).cursor =
      (Session.run ⟨stores, opened.withLogs, []⟩ steps).cursor.lifecycle.state := by
  rw [run_withLogs]
  rfl

theorem result_advance_withLogs (opened : Intersection L R) (stores : Stores)
    (steps : List SessionStep) (context : QueryContext) :
    (Cursor.advance context (Session.run ⟨stores, opened, []⟩ steps).cursor).result =
      (Cursor.advance context (Session.run ⟨stores, opened.withLogs, []⟩ steps).cursor).result := by
  rw [run_withLogs]
  exact congrArg Call.result ((mirrors Logged.mirrors Logged.mirrors).advance context
    (Session.run ⟨stores, opened.withLogs, []⟩ steps).cursor)

theorem inputAnswers_concat (opened : Intersection L R) (stores : Stores)
    (steps : List SessionStep) (context : QueryContext) :
    opened.inputAnswers stores (steps ++ [.advance context]) =
      (Cursor.advance context
        (Session.run ⟨stores, opened.withLogs, []⟩ steps).cursor).cursor.log := by
  funext side
  unfold inputAnswers
  rw [Session.run_concat, Session.cursor_step_advance]

end Intersection

/-! ### Inputs -/

namespace Input

variable {γ : Type} {input : Input (Logged γ)} {stream : List Row}

/-- The rows that count among those that the cursor of the input has returned. -/
def declared (input : Input (Logged γ)) : List Row :=
  input.cursor.log.rows.filter (·.isOfType input.rowType)

variable [Cursor γ]

/-- Nothing has failed on the way of the input through its stream. -/
structure Draws (input : Input (Logged γ)) (stream : List Row) : Prop where
  orderly : input.cursor.log.Orderly stream
  returns : input.exhausted = false → input.cursor.Returns stream
  seen : ∃ used, input.declared = used ++ input.lookahead.toList ∧ input.last = used.getLast?

/-- Why an input cannot be filled, by what it is like afterwards. -/
inductive Stopped (side : Side) (comparator : KeyComparator) (check : Bool)
    (input : Input (Logged γ)) : CursorError → Prop where
  /-- The cursor has failed. -/
  | failed {e : CursorError} (hlast : input.cursor.log.getLast? = some (.error e)) :
      Stopped side comparator check input e
  /-- The last two rows that count cannot be compared. -/
  | incomparable {e : ComparisonError} {before : List Row} {previous current : Row}
      (hcheck : check = true) (hseen : input.declared = before ++ [previous, current])
      (hcompare : comparator.compareRuns previous.values input.offset current.values input.offset =
        .error e) :
      Stopped side comparator check input (.comparison e)
  /-- The last two rows that count go backwards. -/
  | backwards {before : List Row} {previous current : Row} (hcheck : check = true)
      (hseen : input.declared = before ++ [previous, current])
      (hcompare : comparator.compareRuns previous.values input.offset current.values input.offset =
        .ok .gt) :
      Stopped side comparator check input
        (.outOfOrder side comparator.directions previous current)

/-- What filling an input comes to. -/
inductive Drawn (side : Side) (comparator : KeyComparator) (check : Bool) (stream : List Row)
    (call : Call (Input (Logged γ)) Nat) : Prop where
  | filled {passed : Nat} (hresult : call.result = .ok passed) (hdraws : call.cursor.Draws stream)
  | stopped {e : CursorError} (hresult : call.result = .error e)
      (horderly : call.cursor.cursor.log.Orderly stream)
      (hreason : Stopped side comparator check call.cursor e)

omit [Cursor γ] in
/-- The check refuses a row because of the row that was used up last. -/
theorem exists_of_checkOrder_error {δ : Type} {input : Input δ} {side : Side}
    {comparator : KeyComparator} {row : Row} {e : CursorError}
    (h : input.checkOrder side comparator row = .error e) :
    ∃ previous, input.last = some previous ∧
      ((∃ c,
          comparator.compareRuns previous.values input.offset row.values input.offset = .error c ∧
            e = .comparison c) ∨
        comparator.compareRuns previous.values input.offset row.values input.offset = .ok .gt ∧
          e = .outOfOrder side comparator.directions previous row) := by
  unfold checkOrder at h
  split at h
  · cases h
  · next previous hlast =>
    refine ⟨previous, hlast, ?_⟩
    split at h
    · next c hcompare =>
      cases h
      exact .inl ⟨c, hcompare, rfl⟩
    · next hcompare =>
      cases h
      exact .inr ⟨hcompare, rfl⟩
    · cases h

variable {context : QueryContext} {side : Side} {comparator : KeyComparator} {check : Bool}

omit [Cursor γ] in
/-- An input that is asked for a row may have more. -/
theorem exhausted_of_asked {δ : Type} {input : Input δ}
    (hasked : ¬(input.exhausted || input.lookahead.isSome) = true) : input.exhausted = false := by
  rw [Bool.or_eq_true, not_or, Bool.not_eq_true] at hasked
  exact hasked.1

/-- An input that is asked for a row has used up all that count. -/
theorem Draws.last_of_asked (h : input.Draws stream)
    (hasked : ¬(input.exhausted || input.lookahead.isSome) = true) :
    input.last = input.declared.getLast? := by
  obtain ⟨used, hdeclared, hlast⟩ := h.seen
  rw [lookahead_of_asked hasked, Option.toList_none, List.append_nil] at hdeclared
  rw [hdeclared, hlast]

omit [Cursor γ] in
/-- Another row from the cursor is declared if it counts. -/
theorem declared_of_rows {cursor : Logged γ} {row : Row}
    (hrows : cursor.log.rows = input.cursor.log.rows ++ [row]) :
    declared { input with cursor } =
      input.declared ++ if row.isOfType input.rowType then [row] else [] := by
  show cursor.log.rows.filter (·.isOfType input.rowType) = _
  rw [hrows, List.filter_append, List.filter_singleton, Bool.cond_eq_ite]
  rfl

/-- A row that counts and is refused is the last one after the row used up last. -/
theorem Draws.of_refused {cursor : Logged γ} {row : Row} {e : CursorError} {events : List Event}
    (h : input.Draws stream) (hasked : ¬(input.exhausted || input.lookahead.isSome) = true)
    (hstep : Cursor.advance context input.cursor = ⟨.ok (some row), cursor, events⟩)
    (htype : row.isOfType input.rowType)
    (hrefused : (if check then input.checkOrder side comparator row else .ok ()) = .error e) :
    Drawn side comparator check stream ⟨.error e, { input with cursor }, events⟩ := by
  obtain ⟨hrows, hreturns⟩ := (h.returns (exhausted_of_asked hasked)).of_some hstep
  cases check with
  | false => cases hrefused
  | true =>
    -- the row used up last is the last one that counts, so the refused one comes right after it
    obtain ⟨previous, hlast, hreason⟩ := exists_of_checkOrder_error hrefused
    obtain ⟨before, hbefore⟩ : ∃ before, input.declared = before ++ [previous] :=
      List.getLast?_eq_some_iff.mp ((h.last_of_asked hasked).symm.trans hlast)
    have hseen : declared { input with cursor } = before ++ [previous, row] := by
      rw [declared_of_rows hrows, if_pos htype, hbefore, List.append_assoc]
      rfl
    rcases hreason with ⟨c, hcompare, rfl⟩ | ⟨hcompare, rfl⟩
    · exact .stopped rfl hreturns.orderly (.incomparable rfl hseen hcompare)
    · exact .stopped rfl hreturns.orderly (.backwards rfl hseen hcompare)

/-- A row that counts and is accepted is the row in hand. -/
theorem Draws.of_accepted {cursor : Logged γ} {row : Row} {events : List Event}
    (h : input.Draws stream) (hasked : ¬(input.exhausted || input.lookahead.isSome) = true)
    (hstep : Cursor.advance context input.cursor = ⟨.ok (some row), cursor, events⟩)
    (htype : row.isOfType input.rowType) :
    Draws { input with cursor, lookahead := some row } stream := by
  obtain ⟨hrows, hreturns⟩ := (h.returns (exhausted_of_asked hasked)).of_some hstep
  have hdeclared := declared_of_rows hrows
  rw [if_pos htype] at hdeclared
  exact ⟨hreturns.orderly, fun _ => hreturns, input.declared, hdeclared, h.last_of_asked hasked⟩

/-- A row that does not count leaves everything else as it was. -/
theorem Draws.of_foreign {cursor : Logged γ} {row : Row} {events : List Event}
    (h : input.Draws stream) (hasked : ¬(input.exhausted || input.lookahead.isSome) = true)
    (hstep : Cursor.advance context input.cursor = ⟨.ok (some row), cursor, events⟩)
    (htype : ¬ row.isOfType input.rowType) : Draws { input with cursor } stream := by
  obtain ⟨hrows, hreturns⟩ := (h.returns (exhausted_of_asked hasked)).of_some hstep
  obtain ⟨used, hdeclared, hlast⟩ := h.seen
  refine ⟨hreturns.orderly, fun _ => hreturns, used, ?_, hlast⟩
  rw [declared_of_rows hrows, if_neg htype, List.append_nil]
  exact hdeclared

/-- Once there are no more rows the cursor is not asked again. -/
theorem Draws.of_none {cursor : Logged γ} {events : List Event} (h : input.Draws stream)
    (hasked : ¬(input.exhausted || input.lookahead.isSome) = true)
    (hstep : Cursor.advance context input.cursor = ⟨.ok none, cursor, events⟩) :
    Draws { input with cursor, exhausted := true } stream := by
  obtain ⟨hrows, horderly⟩ := (h.returns (exhausted_of_asked hasked)).of_last rfl hstep
  obtain ⟨used, hdeclared, hlast⟩ := h.seen
  refine ⟨horderly, fun hmore => (Bool.noConfusion hmore), used, ?_, hlast⟩
  show cursor.log.rows.filter (·.isOfType input.rowType) = _
  rw [hrows]
  exact hdeclared

/-- **Filling an input** keeps it on its way through the stream, or fails because of what the cursor
answered last. -/
theorem Draws.fill (h : input.Draws stream) :
    Drawn side comparator check stream (input.fill context side comparator check) := by
  fun_induction Input.fill context side comparator check input with
  | case1 input hdone => exact .filled rfl h
  | case2 input hasked e cursor events hstep =>
    obtain ⟨-, horderly⟩ := (h.returns (exhausted_of_asked hasked)).of_last rfl hstep
    have hlast : cursor.log.getLast? = some (.error e) := by
      rw [(Logged.log_of_advance hstep).2, List.getLast?_concat]
    exact .stopped rfl horderly (.failed hlast)
  | case3 input hasked cursor events hstep => exact .filled rfl (h.of_none hasked hstep)
  | case4 input hasked row cursor events hstep htype e hrefused =>
    exact h.of_refused hasked hstep htype hrefused
  | case5 input hasked row cursor events hstep htype haccept =>
    exact .filled rfl (h.of_accepted hasked hstep htype)
  | case6 input hasked row cursor events hstep htype rest ih =>
    -- a row is passed over, and whatever comes next is what filling comes to
    cases ih (h.of_foreign hasked hstep htype) with
    | filled hresult hdraws => exact .filled (congrArg (Except.map (· + 1)) hresult) hdraws
    | stopped hresult horderly hreason =>
      exact .stopped (congrArg (Except.map (· + 1)) hresult) horderly hreason

/-- Using up the row in hand asks nothing of the cursor. -/
theorem Draws.take (h : input.Draws stream) : input.take.Draws stream := by
  obtain ⟨used, hdeclared, hlast⟩ := h.seen
  cases hhand : input.lookahead with
  | none =>
    have hsame : input.take = input := by rw [Input.take, hhand]
    rwa [hsame]
  | some row =>
    rw [hhand] at hdeclared
    have htake : input.take = { input with lookahead := none, last := some row } := by
      rw [Input.take, hhand]
    rw [htake]
    refine ⟨h.orderly, h.returns, used ++ [row], ?_, ?_⟩
    · rw [Option.toList_none, List.append_nil]
      exact hdeclared
    · exact List.getLast?_concat.symm

/-- The row in hand is the last one that counts. -/
theorem Draws.getLast?_declared {row : Row} (h : input.Draws stream)
    (hhand : input.lookahead = some row) : input.declared.getLast? = some row := by
  obtain ⟨used, hdeclared, -⟩ := h.seen
  rw [hdeclared, hhand]
  exact List.getLast?_concat

end Input

end TableGroups
