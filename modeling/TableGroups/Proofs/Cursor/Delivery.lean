import Mathlib.Logic.Basic
import TableGroups.Cursor.Rows

/-!
# What a cursor delivers

`Delivers context c rows stop` says that a cursor, asked for rows under a context again and again,
returns `rows` and then stops, by saying that there are no more or by a failure.  It is the meaning
of a cursor as a finite stream, and all that a merge has to know about its inputs.

A cursor over a list of rows delivers the list (`RowsCursor.streams`).

`pullAll` returns what the cursor delivers (`Delivers.rows_pullAll`), because its limit exceeds the
number of rows, and so does `collect` on a cursor that opens (`Streams.collect`).
-/

namespace TableGroups

/-- What is closed can be opened, and is active then. -/
theorem Lifecycle.start_eq_ok_iff {lifecycle started : Lifecycle} {kind : CursorKind}
    {context : QueryContext} :
    lifecycle.start kind context = .ok started ↔
      lifecycle.state = .closed ∧ started = ⟨.active, context.config.recordMetrics⟩ := by
  unfold Lifecycle.start
  rw [eq_comm (a := started)]
  cases lifecycle.state <;> simp [CursorState.isOpen]

namespace Cursor

variable {γ : Type} [Cursor γ] {context : QueryContext} {c : γ} {rows : List Row}
  {stop : Option CursorError}

/-- Asked for rows under the context, the cursor returns these rows one after the other and then
stops, with the failure if there is one. -/
inductive Delivers (context : QueryContext) : γ → List Row → Option CursorError → Prop where
  | ended {c after : γ} {events : List Event} :
      advance context c = ⟨.ok none, after, events⟩ → Delivers context c [] none
  | failed {c after : γ} {e : CursorError} {events : List Event} :
      advance context c = ⟨.error e, after, events⟩ → Delivers context c [] (some e)
  | returned {c after : γ} {row : Row} {events : List Event} {rows : List Row}
      {stop : Option CursorError} :
      advance context c = ⟨.ok (some row), after, events⟩ → Delivers context after rows stop →
        Delivers context c (row :: rows) stop

section

variable {after : γ} {events : List Event}

theorem Delivers.of_error {e : CursorError} (h : Delivers context c rows stop)
    (hstep : advance context c = ⟨.error e, after, events⟩) : rows = [] ∧ stop = some e := by
  cases h with
  | ended hstep' => simp [hstep] at hstep'
  | returned hstep' _ => simp [hstep] at hstep'
  | failed hstep' =>
    simp only [hstep, Call.mk.injEq, Except.error.injEq] at hstep'
    rw [hstep'.1]
    exact ⟨rfl, rfl⟩

theorem Delivers.of_none (h : Delivers context c rows stop)
    (hstep : advance context c = ⟨.ok none, after, events⟩) : rows = [] ∧ stop = none := by
  cases h with
  | ended _ => exact ⟨rfl, rfl⟩
  | returned hstep' _ => simp [hstep] at hstep'
  | failed hstep' => simp [hstep] at hstep'

theorem Delivers.of_some {row : Row} (h : Delivers context c rows stop)
    (hstep : advance context c = ⟨.ok (some row), after, events⟩) :
    ∃ rest, rows = row :: rest ∧ Delivers context after rest stop := by
  cases h with
  | ended hstep' => simp [hstep] at hstep'
  | failed hstep' => simp [hstep] at hstep'
  | returned hstep' hrest =>
    simp only [hstep, Call.mk.injEq, Except.ok.injEq, Option.some.injEq] at hstep'
    obtain ⟨rfl, rfl, -⟩ := hstep'
    exact ⟨_, rfl, hrest⟩

end

/-- No more rows are delivered than the cursor has left. -/
theorem Delivers.length_le (h : Delivers context c rows stop) : rows.length ≤ remaining c := by
  induction h with
  | ended _ => exact Nat.zero_le _
  | failed _ => exact Nat.zero_le _
  | returned hstep _ ih =>
    have hlt := remaining_advance hstep
    rw [List.length_cons]
    omega

/-- Pulling with a limit beyond the number of rows returns what the cursor delivers. -/
theorem Delivers.pull (h : Delivers context c rows stop) {limit : Nat}
    (hlimit : rows.length < limit) :
    (pull context limit c).rows = rows ∧ (pull context limit c).failure = stop := by
  induction h generalizing limit with
  | ended hstep =>
    obtain ⟨n, rfl⟩ := Nat.exists_eq_succ_of_ne_zero (Nat.ne_zero_of_lt hlimit)
    simp [Cursor.pull, hstep]
  | failed hstep =>
    obtain ⟨n, rfl⟩ := Nat.exists_eq_succ_of_ne_zero (Nat.ne_zero_of_lt hlimit)
    simp [Cursor.pull, hstep]
  | returned hstep _ ih =>
    obtain ⟨n, rfl⟩ := Nat.exists_eq_succ_of_ne_zero (Nat.ne_zero_of_lt hlimit)
    rw [List.length_cons] at hlimit
    obtain ⟨hrows, hfailure⟩ := ih (Nat.lt_of_succ_lt_succ hlimit)
    simp [Cursor.pull, hstep, hrows, hfailure]

theorem Delivers.rows_pullAll (h : Delivers context c rows stop) :
    (pullAll context c).rows = rows ∧ (pullAll context c).failure = stop :=
  h.pull (Nat.lt_succ_of_le h.length_le)

/-- If pulling comes neither to its limit nor to a failure, then what was pulled is delivered. -/
theorem delivers_of_pull {limit : Nat} (hfailure : (Cursor.pull context limit c).failure = none)
    (hlimit : (Cursor.pull context limit c).rows.length < limit) :
    Delivers context c (Cursor.pull context limit c).rows none := by
  induction limit generalizing c with
  | zero => exact absurd hlimit (Nat.not_lt_zero _)
  | succ limit ih =>
    cases hstep : advance context c with
    | mk result after events =>
    cases result with
    | error e => simp [Cursor.pull, hstep] at hfailure
    | ok answer =>
      cases answer with
      | none =>
        simp only [Cursor.pull, hstep]
        exact .ended hstep
      | some row =>
        simp only [Cursor.pull, hstep, List.length_cons] at hfailure hlimit ⊢
        exact .returned hstep (ih hfailure (Nat.lt_of_succ_lt_succ hlimit))

/-- The cursor opens under the context, and then returns these rows and stops. -/
def Streams (stores : Stores) (context : QueryContext) (c : γ) (rows : List Row)
    (stop : Option CursorError) : Prop :=
  ∃ opened events, openOn stores context c = ⟨.ok (), opened, events⟩ ∧
    Delivers context opened rows stop

/-- Collecting a stream that does not fail gives its rows. -/
theorem Streams.collect {stores : Stores} (h : Streams stores context c rows none) :
    (collect stores context c).result = .ok rows := by
  obtain ⟨opened, events, hopen, hrows⟩ := h
  obtain ⟨hpulled, hfailure⟩ := hrows.rows_pullAll
  simp [Cursor.collect, hopen, hpulled, hfailure]

/-- Collected rows are a stream that does not fail. -/
theorem streams_of_collect {stores : Stores}
    (h : (Cursor.collect stores context c).result = .ok rows) :
    Streams stores context c rows none := by
  unfold Cursor.collect at h
  split at h
  · cases h
  · next opened events hopen =>
    refine ⟨opened, events, hopen, ?_⟩
    cases hfailure : (pullAll context opened).failure with
    | some e => simp [hfailure] at h
    | none =>
      simp only [hfailure, Except.ok.injEq] at h
      rw [← h]
      exact delivers_of_pull hfailure (Nat.lt_succ_of_le (length_rows_pull_le _ _ opened))

end Cursor

/-! ### Given rows -/

namespace RowsCursor

variable {context : QueryContext} {c : RowsCursor}

theorem advance_of_active (hactive : c.lifecycle.state = .active)
    (hcontext : context.interruption? = none) :
    Cursor.advance context c =
      match c.rows[c.position]? with
      | some row => ⟨.ok (some row), { c with position := c.position + 1 }, []⟩
      | none => ⟨.ok none, { c with lifecycle := c.lifecycle.drain }, []⟩ := by
  show RowsCursor.advance context c = _
  unfold RowsCursor.advance Lifecycle.gate
  rw [hactive, hcontext]
  rfl

/-- An active cursor delivers the rows behind its position. -/
theorem delivers (hactive : c.lifecycle.state = .active) (hcontext : context.interruption? = none) :
    Cursor.Delivers context c (c.rows.drop c.position) none := by
  generalize hrows : c.rows.drop c.position = rows
  induction rows generalizing c with
  | nil =>
    have hadvance := advance_of_active hactive hcontext
    rw [List.getElem?_eq_none (List.drop_eq_nil_iff.mp hrows)] at hadvance
    exact .ended hadvance
  | cons row rows ih =>
    have hadvance := advance_of_active hactive hcontext
    have hrow : c.rows[c.position]? = some row := by
      rw [← List.head?_drop, hrows, List.head?_cons]
    have hrest : c.rows.drop (c.position + 1) = rows := by
      rw [← List.tail_drop, hrows, List.tail_cons]
    rw [hrow] at hadvance
    exact .returned hadvance (ih hactive hrest)

/-- A closed cursor over given rows opens at the first one. -/
theorem openOn_closed (stores : Stores) (context : QueryContext)
    (hclosed : c.lifecycle.state = .closed) :
    ∃ events, Cursor.openOn stores context c =
      ⟨.ok (), { c with position := 0, lifecycle := ⟨.active, context.config.recordMetrics⟩ },
        events⟩ := by
  refine ⟨Lifecycle.report ⟨.active, context.config.recordMetrics⟩ [.cursorOpened .rows], ?_⟩
  show RowsCursor.openOn context c = _
  rw [RowsCursor.openOn, Lifecycle.start_eq_ok_iff.mpr ⟨hclosed, rfl⟩]

/-- A closed cursor over given rows is the stream of these rows. -/
theorem streams (stores : Stores) (hclosed : c.lifecycle.state = .closed)
    (hcontext : context.interruption? = none) : Cursor.Streams stores context c c.rows none := by
  obtain ⟨events, hopen⟩ := openOn_closed stores context hclosed
  exact ⟨_, events, hopen, delivers rfl hcontext⟩

end RowsCursor

end TableGroups
