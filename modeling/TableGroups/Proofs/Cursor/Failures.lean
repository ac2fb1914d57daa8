import TableGroups.Proofs.Cursor.Conformance
import TableGroups.Proofs.Cursor.Logged
import TableGroups.Proofs.Cursor.OuterJoin
import TableGroups.Proofs.Cursor.Protocol

/-!
# Why an intersection fails

A request for a row may find two values that cannot be compared, an input that goes backwards, or a
field that lies outside its row, and it may fail because an input or the query does.  None of the
first three is a false alarm (`IntersectionRequest.explains_of_advance_error`): the failure names
values and rows that the inputs have really returned, the last two that were compared, and no field
lies outside a row, as long as the rows have the fields of their types.

What the inputs have returned is read off their logs, and `MergeTerms.Explains` says for each
failure what the logs have to hold.  The invariant is that both inputs are on their way through
their streams (`Intersection.Draws`).  Filling, judging and dropping a row keep it or fail for a
reason (`Draws.nextRow`), and so does a whole request (`Draws.advance`).  From there sessions keep
it until a failure closes the intersection, and after that the inputs are not asked any more
(`Traced.run`).
-/

namespace TableGroups

/-! ### Explanations -/

/-- What an intersection goes by when it compares rows. -/
structure MergeTerms where
  comparator : KeyComparator
  /-- The position of the first compared field in the rows of a side. -/
  offset : Side → Nat
  /-- The type of the rows of a side that count. -/
  rowType : Side → RowType
  /-- Whether the order of the inputs is checked. -/
  check : Bool

namespace MergeTerms

/-- Rows of the declared types have all the fields that are compared. -/
def Covers (terms : MergeTerms) : Prop :=
  ∀ side, terms.offset side + terms.comparator.width ≤ (terms.rowType side).fields.length

/-- Of the rows that the input of a side has returned, those that count. -/
def declared (terms : MergeTerms) (answers : Side → Answers) (side : Side) : List Row :=
  (answers side).rows.filter (·.isOfType (terms.rowType side))

/-- Runs of fields that are compared once the inputs have given these answers. -/
inductive Compared (terms : MergeTerms) (answers : Side → Answers) :
    List Value → Nat → List Value → Nat → Prop where
  /-- The last rows of both sides are compared to merge them. -/
  | sides {l r : Row} (hleft : (terms.declared answers .left).getLast? = some l)
      (hright : (terms.declared answers .right).getLast? = some r) :
      Compared terms answers l.values (terms.offset .left) r.values (terms.offset .right)
  /-- The last two rows of a side are compared to check their order. -/
  | order {side : Side} {before : List Row} {previous current : Row} (hcheck : terms.check = true)
      (hseen : terms.declared answers side = before ++ [previous, current]) :
      Compared terms answers previous.values (terms.offset side) current.values (terms.offset side)

/-- The reasons for which a request for a row may fail once the inputs have given these answers. -/
inductive Explains (terms : MergeTerms) (context : QueryContext) (answers : Side → Answers) :
    CursorError → Prop where
  /-- The query was cancelled or has timed out. -/
  | interrupted {reason : Interruption} (hstop : context.interruption? = some reason) :
      Explains terms context answers (.interrupted reason)
  /-- An input has failed. -/
  | input {side : Side} {e : CursorError} (hlast : (answers side).getLast? = some (.error e)) :
      Explains terms context answers e
  /-- Two values met that have no common order. -/
  | incomparable {l r : List Value} {i j : Nat} {a b : Value}
      (hcompared : terms.Compared answers l i r j) (hclash : terms.comparator.Clash l i r j a b) :
      Explains terms context answers (.comparison (.incomparable a b))
  /-- The order is checked, and the last two rows of the side that count go backwards. -/
  | outOfOrder {side : Side} {before : List Row} {previous current : Row}
      (hcheck : terms.check = true)
      (hseen : terms.declared answers side = before ++ [previous, current])
      (hbackwards : terms.comparator.compareRuns previous.values (terms.offset side)
        current.values (terms.offset side) = .ok .gt) :
      Explains terms context answers
        (.outOfOrder side terms.comparator.directions previous current)

variable {terms : MergeTerms} {answers : Side → Answers} {context : QueryContext}

/-- A row that conforms and counts has all the fields that are compared. -/
theorem Covers.le_length {side : Side} {row : Row} (h : terms.Covers)
    (hconforms : ∀ row ∈ (answers side).rows, row.Conforms)
    (hrow : row ∈ terms.declared answers side) :
    terms.offset side + terms.comparator.width ≤ row.values.length := by
  obtain ⟨hmem, htype⟩ := List.mem_filter.mp hrow
  have hlength : row.type.fields.length = row.values.length := (hconforms row hmem).length_eq
  rw [← hlength, beq_iff_eq.mp htype]
  exact h side

/-- A comparison that fails is explained by the values on which it fails. -/
theorem Compared.explains {l r : List Value} {i j : Nat} {e : ComparisonError}
    (h : terms.Compared answers l i r j) (hcovers : terms.Covers)
    (hconforms : ∀ side, ∀ row ∈ (answers side).rows, row.Conforms)
    (hcompare : terms.comparator.compareRuns l i r j = .error e) :
    terms.Explains context answers (.comparison e) := by
  have hcovered : i + terms.comparator.width ≤ l.length ∧
      j + terms.comparator.width ≤ r.length := by
    cases h with
    | sides hleft hright =>
      exact ⟨hcovers.le_length (hconforms .left) (List.mem_of_getLast? hleft),
        hcovers.le_length (hconforms .right) (List.mem_of_getLast? hright)⟩
    | @order side before previous current hcheck hseen =>
      have hprevious : previous ∈ terms.declared answers side := by simp [hseen]
      have hcurrent : current ∈ terms.declared answers side := by simp [hseen]
      exact ⟨hcovers.le_length (hconforms side) hprevious,
        hcovers.le_length (hconforms side) hcurrent⟩
  obtain ⟨a, b, rfl, hclash⟩ :=
    KeyComparator.exists_clash_of_compareRuns hcovered.1 hcovered.2 hcompare
  exact .incomparable h hclash

/-- A field outside a row is not among the reasons. -/
theorem Explains.of_outsideRow {field : Nat}
    (h : terms.Explains context answers (.comparison (.outsideRow field))) :
    ∃ side, (answers side).getLast? = some (.error (.comparison (.outsideRow field))) := by
  cases h with
  | input hlast => exact ⟨_, hlast⟩

end MergeTerms

/-! ### Inputs -/

namespace Input

variable {γ : Type} [Cursor γ] {input : Input (Logged γ)} {stream : List Row} {side : Side}
  {comparator : KeyComparator} {check : Bool} {call : Call (Input (Logged γ)) Nat}

theorem Drawn.orderly (h : Drawn side comparator check stream call) :
    call.cursor.cursor.log.Orderly stream := by
  cases h with
  | filled _ hdraws => exact hdraws.orderly
  | stopped _ horderly _ => exact horderly

theorem Drawn.draws {passed : Nat} (h : Drawn side comparator check stream call)
    (hresult : call.result = .ok passed) : call.cursor.Draws stream := by
  cases h with
  | filled _ hdraws => exact hdraws
  | stopped hstopped _ _ =>
    rw [hresult] at hstopped
    cases hstopped

theorem Drawn.reason {e : CursorError} (h : Drawn side comparator check stream call)
    (hresult : call.result = .error e) : Stopped side comparator check call.cursor e := by
  cases h with
  | filled hfilled _ =>
    rw [hresult] at hfilled
    cases hfilled
  | stopped hstopped _ hreason =>
    rw [hresult] at hstopped
    cases hstopped
    exact hreason

omit [Cursor γ] in
/-- An input that cannot be filled has a reason among those of the intersection. -/
theorem Stopped.explains {terms : MergeTerms} {answers : Side → Answers} {context : QueryContext}
    {e : CursorError} (h : Stopped side terms.comparator terms.check input e)
    (hoffset : input.offset = terms.offset side)
    (hdeclared : input.declared = terms.declared answers side)
    (hanswers : input.cursor.log = answers side) (hcovers : terms.Covers)
    (hconforms : ∀ side, ∀ row ∈ (answers side).rows, row.Conforms) :
    terms.Explains context answers e := by
  cases h with
  | failed hlast => exact .input (hanswers ▸ hlast)
  | incomparable hcheck hseen hcompare =>
    rw [hoffset] at hcompare
    exact (MergeTerms.Compared.order hcheck (hdeclared ▸ hseen)).explains hcovers hconforms hcompare
  | backwards hcheck hseen hcompare =>
    rw [hoffset] at hcompare
    exact .outOfOrder hcheck (hdeclared ▸ hseen) hcompare

/-- Filling changes neither where the compared fields begin nor which rows count. -/
theorem frame_fill {δ : Type} [Cursor δ] (context : QueryContext) (side : Side)
    (comparator : KeyComparator) (check : Bool) (input : Input δ) :
    (input.fill context side comparator check).cursor.offset = input.offset ∧
      (input.fill context side comparator check).cursor.rowType = input.rowType := by
  obtain ⟨_, _, _, heq⟩ := input.exists_fill_eq context side comparator check
  rw [heq]
  exact ⟨rfl, rfl⟩

end Input

/-! ### Intersections -/

namespace Intersection

/-- What the intersection goes by. -/
def terms {L R : Type} (m : Intersection L R) : MergeTerms :=
  ⟨m.comparator, m.offset, m.inputType, m.checkOrder⟩

section

variable {L R : Type} {m m' : Intersection L R}

theorem terms_eq_of_inputs (hcomparator : m'.comparator = m.comparator)
    (hcheck : m'.checkOrder = m.checkOrder)
    (hleft : m'.left.offset = m.left.offset ∧ m'.left.rowType = m.left.rowType)
    (hright : m'.right.offset = m.right.offset ∧ m'.right.rowType = m.right.rowType) :
    m'.terms = m.terms := by
  have hoffset : m'.offset = m.offset := by
    funext side
    cases side with
    | left => exact hleft.1
    | right => exact hright.1
  have htype : m'.inputType = m.inputType := by
    funext side
    cases side with
    | left => exact hleft.2
    | right => exact hright.2
  unfold terms
  rw [hcomparator, hoffset, htype, hcheck]

theorem terms_take (m : Intersection L R) (side : Side) : (m.take side).terms = m.terms := by
  cases side with
  | left => exact terms_eq_of_inputs rfl rfl ⟨m.left.offset_take, m.left.rowType_take⟩ ⟨rfl, rfl⟩
  | right =>
    exact terms_eq_of_inputs rfl rfl ⟨rfl, rfl⟩ ⟨m.right.offset_take, m.right.rowType_take⟩

variable [Cursor L] [Cursor R] {context : QueryContext} {events : List Event}

theorem terms_of_fill {result : Except CursorError Unit}
    (h : m.fill context = ⟨result, m', events⟩) : m'.terms = m.terms := by
  have hleft := m.left.frame_fill context .left m.comparator m.checkOrder
  have hright := m.right.frame_fill context .right m.comparator m.checkOrder
  unfold fill at h
  split at h
  · next hl =>
    rw [hl] at hleft
    cases h
    exact terms_eq_of_inputs rfl rfl hleft ⟨rfl, rfl⟩
  · next hl =>
    rw [hl] at hleft
    split at h <;>
    · next hr =>
      rw [hr] at hright
      cases h
      exact terms_eq_of_inputs rfl rfl hleft hright

/-- If an input cannot be filled then the left one was filled first. -/
theorem exists_of_fill_error {e : CursorError} (h : m.fill context = ⟨.error e, m', events⟩) :
    (∃ leftEvents, m.left.fill context .left m.comparator m.checkOrder =
        ⟨.error e, m'.left, leftEvents⟩ ∧ m'.right = m.right) ∨
      ∃ passed leftEvents rightEvents,
        m.left.fill context .left m.comparator m.checkOrder =
            ⟨.ok passed, m'.left, leftEvents⟩ ∧
          m.right.fill context .right m.comparator m.checkOrder =
            ⟨.error e, m'.right, rightEvents⟩ := by
  unfold fill at h
  split at h
  · next hleft =>
    cases h
    exact .inl ⟨_, hleft, rfl⟩
  · next hleft =>
    split at h
    · next hright =>
      cases h
      exact .inr ⟨_, _, _, hleft, hright⟩
    · cases h

end

/-! ### The way through the streams -/

variable {L R : Type}

theorem declared_left_eq (m : Intersection (Logged L) (Logged R)) :
    m.left.declared = m.terms.declared m.log .left := rfl

theorem declared_right_eq (m : Intersection (Logged L) (Logged R)) :
    m.right.declared = m.terms.declared m.log .right := rfl

variable [Cursor L] [Cursor R]

/-- Both inputs are on their way through their streams. -/
structure Draws (m : Intersection (Logged L) (Logged R)) (terms : MergeTerms)
    (stream : Side → List Row) : Prop where
  terms_eq : m.terms = terms
  left : m.left.Draws (stream .left)
  right : m.right.Draws (stream .right)

omit [Cursor L] [Cursor R] in
/-- The inputs have begun their streams, and their answers explain the failure. -/
structure Fails (m : Intersection (Logged L) (Logged R)) (terms : MergeTerms)
    (stream : Side → List Row) (context : QueryContext) (e : CursorError) : Prop where
  orderly : ∀ side, (m.log side).Orderly (stream side)
  explains : terms.Covers → (∀ side, ∀ row ∈ stream side, row.Conforms) →
    terms.Explains context m.log e

/-- What a request for a row comes to. -/
inductive Drawn (terms : MergeTerms) (stream : Side → List Row) (context : QueryContext)
    (call : Call (Intersection (Logged L) (Logged R)) (Option Row)) : Prop where
  | answered {answer : Option Row} (hresult : call.result = .ok answer)
      (hdraws : call.cursor.Draws terms stream)
  | failed {e : CursorError} (hresult : call.result = .error e)
      (hfails : call.cursor.Fails terms stream context e)

variable {m filled : Intersection (Logged L) (Logged R)} {terms : MergeTerms}
  {stream : Side → List Row} {context : QueryContext} {events : List Event}

theorem Draws.orderly (h : m.Draws terms stream) (side : Side) :
    (m.log side).Orderly (stream side) := by
  cases side with
  | left => exact h.left.orderly
  | right => exact h.right.orderly

theorem Draws.take (h : m.Draws terms stream) (side : Side) : (m.take side).Draws terms stream := by
  have hterms := (m.terms_take side).trans h.terms_eq
  cases side with
  | left => exact ⟨hterms, h.left.take, h.right⟩
  | right => exact ⟨hterms, h.left, h.right.take⟩

theorem Draws.emit (h : m.Draws terms stream) (side : Side) (isMatch : Bool) :
    (m.emit side isMatch).Draws terms stream := by
  have htaken := h.take side
  cases isMatch <;> exact ⟨htaken.terms_eq, htaken.left, htaken.right⟩

theorem Draws.discard (h : m.Draws terms stream) (side : Side) :
    (m.discard side).Draws terms stream := by
  have htaken := h.take side
  exact ⟨htaken.terms_eq, htaken.left, htaken.right⟩

omit [Cursor L] [Cursor R] in
/-- A failure with a reason, of inputs that have begun streams of rows that conform. -/
theorem Fails.of_explains {e : CursorError} (horderly : ∀ side, (m.log side).Orderly (stream side))
    (hexplains : terms.Covers → (∀ side, ∀ row ∈ (m.log side).rows, row.Conforms) →
      terms.Explains context m.log e) : m.Fails terms stream context e := by
  refine ⟨horderly, fun hcovers hconforms => hexplains hcovers fun side row hrow => ?_⟩
  obtain ⟨_, -, hbegins⟩ := horderly side
  exact hconforms side row (hbegins.subset hrow)

/-! ### Requests for a row -/

/-- Inputs that are filled go on with their streams. -/
theorem Draws.fill (h : m.Draws terms stream)
    (hfill : m.fill context = ⟨.ok (), filled, events⟩) : filled.Draws terms stream := by
  obtain ⟨_, _, _, _, hleft, hright, -⟩ := exists_of_fill hfill
  have hdrawnLeft : Input.Drawn .left m.comparator m.checkOrder (stream .left)
      (m.left.fill context .left m.comparator m.checkOrder) := h.left.fill
  have hdrawnRight : Input.Drawn .right m.comparator m.checkOrder (stream .right)
      (m.right.fill context .right m.comparator m.checkOrder) := h.right.fill
  rw [hleft] at hdrawnLeft
  rw [hright] at hdrawnRight
  exact ⟨(terms_of_fill hfill).trans h.terms_eq, hdrawnLeft.draws rfl, hdrawnRight.draws rfl⟩

/-- If an input cannot be filled then its last answer is the reason. -/
theorem Draws.fails_of_fill {e : CursorError} (h : m.Draws terms stream)
    (hfill : m.fill context = ⟨.error e, filled, events⟩) :
    filled.Fails terms stream context e := by
  obtain ⟨rfl, hleft, hright⟩ := h
  have hterms : filled.terms = m.terms := terms_of_fill hfill
  have hdrawnLeft : Input.Drawn .left m.terms.comparator m.terms.check (stream .left)
      (m.left.fill context .left m.comparator m.checkOrder) := hleft.fill
  have hdrawnRight : Input.Drawn .right m.terms.comparator m.terms.check (stream .right)
      (m.right.fill context .right m.comparator m.checkOrder) := hright.fill
  rcases exists_of_fill_error hfill with ⟨_, hl, hsame⟩ | ⟨_, _, _, hl, hr⟩
  · -- the right input was not asked
    rw [hl] at hdrawnLeft
    have hoffset : filled.left.offset = m.terms.offset .left :=
      congrArg (MergeTerms.offset · .left) hterms
    have hdeclared : filled.left.declared = m.terms.declared filled.log .left :=
      hterms ▸ filled.declared_left_eq
    refine .of_explains (fun side => ?_) fun hcovers hconforms =>
      (hdrawnLeft.reason rfl).explains hoffset hdeclared rfl hcovers hconforms
    cases side with
    | left => exact hdrawnLeft.orderly
    | right =>
      show filled.right.cursor.log.Orderly _
      rw [hsame]
      exact hright.orderly
  · rw [hl] at hdrawnLeft
    rw [hr] at hdrawnRight
    have hoffset : filled.right.offset = m.terms.offset .right :=
      congrArg (MergeTerms.offset · .right) hterms
    have hdeclared : filled.right.declared = m.terms.declared filled.log .right :=
      hterms ▸ filled.declared_right_eq
    refine .of_explains (fun side => ?_) fun hcovers hconforms =>
      (hdrawnRight.reason rfl).explains hoffset hdeclared rfl hcovers hconforms
    cases side with
    | left => exact hdrawnLeft.orderly
    | right => exact hdrawnRight.orderly

/-- If two rows in hand cannot be compared then two of their values clash. -/
theorem Draws.fails_of_verdict {e : ComparisonError} (h : m.Draws terms stream)
    (hverdict : m.verdict = .error e) : m.Fails terms stream context (.comparison e) := by
  obtain ⟨rfl, hleft, hright⟩ := id h
  refine .of_explains h.orderly fun hcovers hconforms => ?_
  unfold verdict at hverdict
  split at hverdict
  · next l r hl hr =>
    split at hverdict
    · next hcompare =>
      cases hverdict
      -- a row in hand is the last one of its side that counts
      have hcompared : m.terms.Compared m.log l.values m.left.offset r.values m.right.offset :=
        .sides (hleft.getLast?_declared hl) (hright.getLast?_declared hr)
      exact hcompared.explains hcovers hconforms hcompare
    · cases hverdict
    · cases hverdict
    · cases hverdict
  · split at hverdict <;> cases hverdict

/-- **A request for the next row** leaves both inputs on their way, or fails for a reason. -/
theorem Draws.nextRow (h : m.Draws terms stream) :
    Drawn terms stream context (m.nextRow context) := by
  fun_induction Intersection.nextRow context m with
  | case1 m e filled events hfill => exact .failed rfl (h.fails_of_fill hfill)
  | case2 m filled events hfill e hverdict =>
    exact .failed rfl ((h.fill hfill).fails_of_verdict hverdict)
  | case3 m filled events hfill hverdict => exact .answered rfl (h.fill hfill)
  | case4 m filled events hfill side isMatch hverdict =>
    exact .answered rfl ((h.fill hfill).emit side isMatch)
  | case5 m filled events hfill side hverdict rest ih =>
    -- a row is dropped, and the request goes on
    cases ih ((h.fill hfill).discard side) with
    | answered hresult hdraws => exact .answered hresult hdraws
    | failed hresult hfails => exact .failed hresult hfails

/-- Giving up closes the inputs and asks them nothing. -/
theorem log_fail (m : Intersection (Logged L) (Logged R)) (e : CursorError) (events : List Event) :
    (m.fail e events).cursor.log = m.log := by
  funext side
  cases side <;> rfl

theorem Fails.fail {e : CursorError} (h : m.Fails terms stream context e) (e' : CursorError)
    (events : List Event) : (m.fail e' events).cursor.Fails terms stream context e := by
  obtain ⟨horderly, hexplains⟩ := h
  rw [← m.log_fail e' events] at horderly hexplains
  exact ⟨horderly, hexplains⟩

/-- An open intersection that is asked for a row leaves both inputs on their way, or fails for a
reason. -/
theorem Draws.advance (h : m.Draws terms stream) (hopen : m.lifecycle.state ≠ .closed) :
    Drawn terms stream context (Cursor.advance context m) := by
  cases hstop : context.interruption? with
  | some reason =>
    rw [advance_of_interrupted hopen hstop]
    have hfails : m.Fails terms stream context (.interrupted reason) :=
      .of_explains h.orderly fun _ _ => .interrupted hstop
    exact .failed rfl (hfails.fail _ _)
  | none =>
    cases hstate : m.lifecycle.state with
    | closed => exact absurd hstate hopen
    | drained =>
      -- the end of the rows is said again, and the inputs are not asked
      rw [followsProtocol.advance_of_drained hstate hstop]
      exact .answered rfl h
    | active =>
      rw [advance_of_active hstate hstop]
      have hdrawn : Drawn terms stream context (m.nextRow context) := h.nextRow
      cases hcall : m.nextRow context with
      | mk result after events =>
      rw [hcall] at hdrawn
      cases hdrawn with
      | failed hresult hfails =>
        cases hresult
        exact .failed rfl (hfails.fail _ _)
      | @answered answer hresult hdraws =>
        cases hresult
        cases answer with
        | none => exact .answered rfl ⟨hdraws.terms_eq, hdraws.left, hdraws.right⟩
        | some row => exact .answered rfl ⟨hdraws.terms_eq, hdraws.left, hdraws.right⟩

/-! ### Sessions -/

/-- Both inputs are on their way, or the intersection is closed and they are not asked any more. -/
inductive Traced (terms : MergeTerms) (stream : Side → List Row)
    (m : Intersection (Logged L) (Logged R)) : Prop where
  | going (hopen : m.lifecycle.state ≠ .closed) (hdraws : m.Draws terms stream)
  | stopped (hclosed : m.lifecycle.state = .closed)
      (horderly : ∀ side, (m.log side).Orderly (stream side))

theorem Traced.orderly (h : Traced terms stream m) (side : Side) :
    (m.log side).Orderly (stream side) := by
  cases h with
  | going _ hdraws => exact hdraws.orderly side
  | stopped _ horderly => exact horderly side

theorem Traced.draws (h : Traced terms stream m) (hopen : m.lifecycle.state ≠ .closed) :
    m.Draws terms stream := by
  cases h with
  | going _ hdraws => exact hdraws
  | stopped hclosed _ => exact absurd hclosed hopen

theorem Traced.advance (h : Traced terms stream m) (context : QueryContext) :
    Traced terms stream (Cursor.advance context m).cursor := by
  cases h with
  | stopped hclosed horderly =>
    rw [followsProtocol.cursor_advance_of_closed hclosed]
    exact .stopped hclosed horderly
  | going hopen hdraws =>
    have hdrawn : Drawn terms stream context (Cursor.advance context m) := hdraws.advance hopen
    cases hdrawn with
    | failed hresult hfails => exact .stopped (state_of_advance_error hresult) hfails.orderly
    | @answered answer hresult hdraws =>
      -- an answer never leaves the intersection closed
      have hcall : Cursor.advance context m = ⟨.ok answer, _, _⟩ :=
        congrArg (Call.mk · _ _) hresult
      have hstate := followsProtocol.state_of_advance hcall
      refine .going (fun hclosed => ?_) hdraws
      have hafter : Cursor.stateAfter answer = .closed := hstate.symm.trans hclosed
      cases answer <;> cases hafter

/-- Whatever happens in a session, no input is asked more than it should. -/
theorem Traced.run {session : Session (Intersection (Logged L) (Logged R))}
    (h : Traced terms stream session.cursor) (steps : List SessionStep) :
    Traced terms stream (session.run steps).cursor := by
  induction steps generalizing session with
  | nil => exact h
  | cons step rest ih =>
    have hstep : Traced terms stream (session.step step).cursor := by
      cases step with
      | change store call => exact h
      | advance context => exact h.advance context
    exact ih hstep

variable {m opened : Intersection L R} {stores : Stores}

/-- At its opening both inputs have their streams before them. -/
theorem draws_of_openOn (hreads : ∀ side, m.Reads stores context side (stream side))
    (hopen : Cursor.openOn stores context m = ⟨.ok (), opened, events⟩) :
    opened.withLogs.Draws { m.terms with check := context.config.checkInputOrder } stream := by
  obtain ⟨left, right, leftEvents, rightEvents, hl, hr, rfl⟩ := exists_of_openOn hopen
  have hleft : (Logged.fit left).Returns (stream .left) :=
    ⟨rfl, stream .left, rfl, hreads .left left leftEvents hl⟩
  have hright : (Logged.fit right).Returns (stream .right) :=
    ⟨rfl, stream .right, rfl, hreads .right right rightEvents hr⟩
  exact ⟨rfl, ⟨hleft.orderly, fun _ => hleft, [], rfl, rfl⟩,
    ⟨hright.orderly, fun _ => hright, [], rfl, rfl⟩⟩

/-- In every session with the intersection the inputs are on their way until a failure closes
it. -/
theorem traced_of_openOn (hreads : ∀ side, m.Reads stores context side (stream side))
    (hopen : Cursor.openOn stores context m = ⟨.ok (), opened, events⟩)
    (steps : List SessionStep) :
    Traced { m.terms with check := context.config.checkInputOrder } stream
      (Session.run ⟨stores, opened.withLogs, []⟩ steps).cursor := by
  have hactive : opened.lifecycle.state = .active := followsProtocol.state_of_openOn hopen
  have hstart : opened.withLogs.lifecycle.state ≠ .closed := by
    show opened.lifecycle.state ≠ .closed
    rw [hactive]
    exact CursorState.noConfusion
  exact Traced.run (.going hstart (draws_of_openOn hreads hopen)) steps

end Intersection

/-- The rows of an input have as many fields from its first compared one on as it is ordered on. -/
theorem InputRequest.keyStart_add_le {γ : Type} (input : InputRequest γ) {fields : Nat}
    (hwide : input.orderingFields ≤ input.rowType.fields.length)
    (hfields : fields ≤ input.orderingFields) :
    input.keyStart + fields ≤ input.rowType.fields.length := by
  unfold keyStart
  omega

namespace IntersectionRequest

variable {L R : Type}

/-- The rows of an accepted intersection have all the fields that it compares. -/
theorem covers_of_build {request : IntersectionRequest L R} {m : Intersection L R}
    (hbuild : request.build = .ok m) (check : Bool) : { m.terms with check }.Covers := by
  obtain ⟨_ | left, _ | right, fields, directions, _ | ⟨join, output⟩⟩ := request
  case some.some.some =>
    obtain ⟨hleft, hright, hcount, hordered, -, -, rfl⟩ := build_eq_ok_iff.mp hbuild
    have hwidth : directions.length ≤ min left.orderingFields right.orderingFields :=
      hcount.trans_le hordered
    intro side
    cases side with
    | left => exact left.keyStart_add_le hleft (hwidth.trans (Nat.min_le_left _ _))
    | right => exact right.keyStart_add_le hright (hwidth.trans (Nat.min_le_right _ _))
  all_goals cases hbuild

/-- **Merge errors are precise.**  Take an accepted intersection whose inputs yield rows that
conform to their types.  If it is open and fails to answer a request for a row, then the query was
cancelled or has timed out, or an input has failed, or two values clash that were compared at the
same place, or the order is checked and the named input has returned the two named rows, one after
the other among the rows of its declared type, and the second goes behind the first.  That a field
lies outside its row is never found, unless by an input. -/
theorem explains_of_advance_error [Cursor L] [Cursor R] {request : IntersectionRequest L R}
    {m opened : Intersection L R} {stores : Stores} {opening context : QueryContext}
    {stream : Side → List Row} {events : List Event} {e : CursorError}
    (hbuild : request.build = .ok m)
    (hreads : ∀ side, m.Reads stores opening side (stream side))
    (hconforms : ∀ side, ∀ row ∈ stream side, row.Conforms)
    (hopen : Cursor.openOn stores opening m = ⟨.ok (), opened, events⟩) (steps : List SessionStep)
    (hstate : Cursor.state (Session.run ⟨stores, opened, []⟩ steps).cursor ≠ .closed)
    (hfails : (Cursor.advance context (Session.run ⟨stores, opened, []⟩ steps).cursor).result =
      .error e) :
    let answers := opened.inputAnswers stores (steps ++ [.advance context])
    { m.terms with check := opening.config.checkInputOrder }.Explains context answers e ∧
      ∀ field, e = .comparison (.outsideRow field) →
        ∃ side, (answers side).getLast? = some (.error e) := by
  intro answers
  have hexplains :
      { m.terms with check := opening.config.checkInputOrder }.Explains context answers e := by
    -- with logs on the inputs the session is the same, and the request fails in the same way
    have htraced := Intersection.traced_of_openOn hreads hopen steps
    have hanswers := opened.inputAnswers_concat stores steps context
    rw [opened.state_run_withLogs] at hstate
    rw [opened.result_advance_withLogs] at hfails
    show MergeTerms.Explains _ context (opened.inputAnswers stores (steps ++ [.advance context])) e
    rw [hanswers]
    generalize (Session.run ⟨stores, opened.withLogs, []⟩ steps).cursor = logged at *
    have hdrawn : Intersection.Drawn { m.terms with check := opening.config.checkInputOrder } stream
        context (Cursor.advance context logged) := (htraced.draws hstate).advance hstate
    cases hdrawn with
    | answered hanswered _ =>
      rw [hfails] at hanswered
      cases hanswered
    | failed hfailed hreason =>
      rw [hfails] at hfailed
      cases hfailed
      exact hreason.explains (covers_of_build hbuild _) hconforms
  refine ⟨hexplains, ?_⟩
  rintro field rfl
  exact hexplains.of_outsideRow

/-- The second number is lower than the first, and the left input has really returned them one after
the other. -/
theorem explains_of_advance_error_scrambled :
    ∃ opened events,
      Cursor.openOn (fun _ => .empty) .standard (made scrambled named [.asc] .left .left) =
          ⟨.ok (), opened, events⟩ ∧
        (Cursor.advance .standard
            (Session.run ⟨fun _ => .empty, opened, []⟩ [.advance .standard]).cursor).result =
          .error (.outOfOrder .left [.asc] ⟨.derived "number" [.int], [.int 7]⟩
            ⟨.derived "number" [.int], [.int 3]⟩) ∧
        let answers := opened.inputAnswers (fun _ => .empty)
          [.advance .standard, .advance .standard]
        (made scrambled named [.asc] .left .left).terms.declared answers .left =
            [⟨.derived "number" [.int], [.int 7]⟩, ⟨.derived "number" [.int], [.int 3]⟩] ∧
          (made scrambled named [.asc] .left .left).terms.Explains .standard answers
            (.outOfOrder .left [.asc] ⟨.derived "number" [.int], [.int 7]⟩
              ⟨.derived "number" [.int], [.int 3]⟩) := by
  have hbuild : build ⟨some scrambled, some named, 1, [.asc], some (.left, .left)⟩ =
      .ok (made scrambled named [.asc] .left .left) := rfl
  have hreads : ∀ side, (made scrambled named [.asc] .left .left).Reads (fun _ => .empty) .standard
      side (side.select scrambled.cursor.rows named.cursor.rows) := by
    intro side
    cases side with
    | left => exact RowsCursor.provides_of_openOn _ _ scrambled.cursor
    | right => exact RowsCursor.provides_of_openOn _ _ named.cursor
  have hconforms : ∀ side : Side, ∀ row ∈ side.select scrambled.cursor.rows named.cursor.rows,
      row.Conforms := by
    intro side
    cases side <;> decide
  refine ⟨_, _, rfl, by decide +kernel, by decide +kernel, ?_⟩
  exact (explains_of_advance_error hbuild hreads hconforms rfl [.advance .standard]
    (by decide +kernel) (by decide +kernel)).1

end IntersectionRequest

end TableGroups
