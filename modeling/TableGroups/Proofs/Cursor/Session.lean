import Mathlib.Logic.Basic
import TableGroups.Cursor
import TableGroups.Proofs.Store.Run

/-!
# Sessions

A cursor is not alone with its stores: between two requests for a row, others may register and drop
indexes and insert rows.  A `Session` is an open cursor, the stores as they are now, and what the
cursor has answered so far; `Session.run` lets requests and changes happen in any order.
-/

namespace TableGroups

/-- What may happen while a cursor is open. -/
inductive SessionStep where
  /-- A call on one of the stores. -/
  | change (store : StoreId) (call : StoreCall)
  /-- A request for the next row. -/
  | advance (context : QueryContext)

/-- Whether the step is a request for a row that nothing stops. -/
def SessionStep.isRequest : SessionStep → Bool
  | .change _ _ => false
  | .advance context => context.interruption?.isNone

/-- An open cursor among stores that change. -/
structure Session (γ : Type) where
  stores : Stores
  cursor : γ
  /-- What the cursor answered to requests for rows, the first answer first. -/
  answers : List (Except CursorError (Option Row))

namespace Session

variable {γ : Type} [Cursor γ]

/-- The session after one step. -/
def step (session : Session γ) : SessionStep → Session γ
  | .change store call =>
    { session with
      stores := fun other =>
        if other = store then (session.stores other).perform call else session.stores other }
  | .advance context =>
    let answer := Cursor.advance context session.cursor
    { session with cursor := answer.cursor, answers := session.answers ++ [answer.result] }

/-- The session after steps made one after the other. -/
def run (session : Session γ) (steps : List SessionStep) : Session γ :=
  steps.foldl step session

/-- The rows that were returned. -/
def rows (session : Session γ) : List Row :=
  session.answers.filterMap fun answer => answer.toOption.join

/-- Whether the cursor has said that there are no more rows. -/
def Ended (session : Session γ) : Prop :=
  .ok none ∈ session.answers

variable (session : Session γ)

theorem run_concat (steps : List SessionStep) (step : SessionStep) :
    session.run (steps ++ [step]) = (session.run steps).step step :=
  List.foldl_concat ..

@[simp] theorem cursor_step_advance (context : QueryContext) :
    (session.step (.advance context)).cursor =
      (Cursor.advance context session.cursor).cursor := rfl

/-- A request for a row adds the row that it is answered with, if it is. -/
@[simp] theorem rows_step_advance (context : QueryContext) :
    (session.step (.advance context)).rows =
      session.rows ++ (Cursor.advance context session.cursor).result.toOption.join.toList := by
  simp only [rows, step, List.filterMap_append, List.filterMap_cons, List.filterMap_nil]
  cases (Cursor.advance context session.cursor).result.toOption.join <;> rfl

/-- A cursor has said that there are no more rows once it answers so. -/
theorem ended_step_advance (context : QueryContext) :
    (session.step (.advance context)).Ended ↔
      session.Ended ∨ (Cursor.advance context session.cursor).result = .ok none := by
  simp only [Ended, step, List.mem_append, List.mem_singleton]
  exact or_congr_right eq_comm

/-- Pulling rows is a session of requests, and if it has not come to its limit or to a failure then
the cursor has said that there are no more rows. -/
theorem exists_run_of_pull (context : QueryContext) (limit : Nat) :
    ∃ steps, (session.run steps).rows =
        session.rows ++ (Cursor.pull context limit session.cursor).rows ∧
      ((Cursor.pull context limit session.cursor).failure = none →
        (Cursor.pull context limit session.cursor).rows.length < limit →
          (session.run steps).Ended) := by
  induction limit generalizing session with
  | zero => exact ⟨[], by simp [run, Cursor.pull]⟩
  | succ limit ih =>
    cases hcall : Cursor.advance context session.cursor with
    | mk result after events =>
    cases result with
    | error e => exact ⟨[], by simp [run, Cursor.pull, hcall]⟩
    | ok answer =>
      cases answer with
      | none =>
        refine ⟨[.advance context], ?_, fun _ _ => ?_⟩
        · show (session.step (.advance context)).rows = _
          simp [Cursor.pull, hcall, Except.toOption]
        · exact (ended_step_advance _ _).mpr (.inr (by rw [hcall]))
      | some row =>
        obtain ⟨steps, hrows, hended⟩ := ih (session.step (.advance context))
        rw [cursor_step_advance, hcall] at hrows hended
        rw [rows_step_advance, hcall] at hrows
        refine ⟨.advance context :: steps, ?_, fun hfailure hlimit => ?_⟩
        · show ((session.step (.advance context)).run steps).rows = _
          simp [hrows, Cursor.pull, hcall, Except.toOption]
        · simp only [Cursor.pull, hcall, List.length_cons] at hfailure hlimit
          exact hended hfailure (Nat.lt_of_succ_lt_succ hlimit)

/-- Collected rows are what a session returned that has come to its end. -/
theorem exists_run_of_collect {stores : Stores} {context : QueryContext} {c : γ}
    {collected : List Row} (h : (Cursor.collect stores context c).result = .ok collected) :
    ∃ opened events, Cursor.openOn stores context c = ⟨.ok (), opened, events⟩ ∧
      ∃ steps, (run ⟨stores, opened, []⟩ steps).rows = collected ∧
        (run ⟨stores, opened, []⟩ steps).Ended := by
  unfold Cursor.collect at h
  split at h
  · cases h
  · next opened events hopen =>
    refine ⟨opened, events, hopen, ?_⟩
    have hlimit := Cursor.length_rows_pull_le context (Cursor.remaining opened + 1) opened
    obtain ⟨steps, hrows, hended⟩ := exists_run_of_pull ⟨stores, opened, []⟩ context
      (Cursor.remaining opened + 1)
    cases hfailure : (Cursor.pullAll context opened).failure with
    | some e => simp [hfailure] at h
    | none =>
      simp only [hfailure, Except.ok.injEq] at h
      refine ⟨steps, ?_, hended hfailure (Nat.lt_succ_of_le hlimit)⟩
      rw [hrows, ← h]
      rfl

end Session

/-- The cursor opens, and in every session afterwards it returns these rows: what it has returned
begins them, once it says that there are no more it has returned them all, and it says so at the
latest when it was asked once more than there are rows. -/
def Cursor.Serves {γ : Type} [Cursor γ] (stores : Stores) (context : QueryContext) (c : γ)
    (rows : List Row) : Prop :=
  ∃ opened events, Cursor.openOn stores context c = ⟨.ok (), opened, events⟩ ∧
    ∀ steps : List SessionStep,
      let session := Session.run ⟨stores, opened, []⟩ steps
      session.rows <+: rows ∧ (session.Ended → session.rows = rows) ∧
        (rows.length < steps.countP (·.isRequest) → session.Ended)

end TableGroups
