import TableGroups.Proofs.Cursor.Delivery
import TableGroups.Proofs.Cursor.Supply

/-!
# How far an input has come

Calls for rows may be made under changing contexts, and any of them may fail.  `Cursor.Provides c
rows` says what can be relied on nevertheless: the rows that the cursor returns are `rows`, one
after the other, and it does not say that there are no more before they are out.  Nothing is said
of their types, their order or their values.  A cursor over given rows provides them
(`RowsCursor.provides_of_openOn`).

Two facts about an input of a merge are kept apart.  `Input.Awaits` says which rows that count are
still to be used up, whatever their order is.  `Input.Ordered` says that the rows used up ascend; it
rests on the check alone, which compares each row with the one used up before it.  Both are kept by
filling the input and by using up the row in hand.
-/

namespace TableGroups

namespace Cursor

variable {γ : Type} [Cursor γ]

/-- Under whatever contexts the cursor is asked, and as long as no call fails, it returns these rows
one after the other and then none. -/
inductive Provides : γ → List Row → Prop where
  | nothing {c : γ}
      (hrow : ∀ context row after events, advance context c ≠ ⟨.ok (some row), after, events⟩) :
      Provides c []
  | more {c : γ} {row : Row} {rows : List Row}
      (hnone : ∀ context after events, advance context c ≠ ⟨.ok none, after, events⟩)
      (hrow : ∀ context next after events,
        advance context c = ⟨.ok (some next), after, events⟩ → next = row)
      (hrest : ∀ context next after events,
        advance context c = ⟨.ok (some next), after, events⟩ → Provides after rows) :
      Provides c (row :: rows)

variable {c after : γ} {context : QueryContext} {rows : List Row} {events : List Event}

theorem Provides.of_none (h : Provides c rows)
    (hstep : advance context c = ⟨.ok none, after, events⟩) : rows = [] := by
  cases h with
  | nothing _ => rfl
  | more hnone _ _ => exact absurd hstep (hnone context after events)

theorem Provides.of_some {row : Row} (h : Provides c rows)
    (hstep : advance context c = ⟨.ok (some row), after, events⟩) :
    ∃ rest, rows = row :: rest ∧ Provides after rest := by
  cases h with
  | nothing hrow => exact absurd hstep (hrow context row after events)
  | more _ hrow hrest =>
    obtain rfl := hrow context row after events hstep
    exact ⟨_, rfl, hrest context row after events hstep⟩

/-- If the cursor opens, then it provides these rows. -/
def ProvidesWhenOpened (stores : Stores) (context : QueryContext) (c : γ) (rows : List Row) :
    Prop :=
  ∀ opened events, openOn stores context c = ⟨.ok (), opened, events⟩ → Provides opened rows

/-- Answers to requests for rows keep the property. -/
def AnswersKeep (P : γ → Prop) : Prop :=
  ∀ {context : QueryContext} {c after : γ} {answer : Option Row} {events : List Event},
    advance context c = ⟨.ok answer, after, events⟩ → P c → P after

end Cursor

namespace RowsCursor

variable {c : RowsCursor}

theorem advance_of_interrupted {context : QueryContext} {reason : Interruption}
    (hactive : c.lifecycle.state = .active) (hstop : context.interruption? = some reason) :
    Cursor.advance context c = ⟨.error (.interrupted reason), c, context.interruptionEvents⟩ := by
  show RowsCursor.advance context c = _
  unfold RowsCursor.advance Lifecycle.gate
  rw [hactive, hstop]

/-- An active cursor provides the rows behind its position. -/
theorem provides (hactive : c.lifecycle.state = .active) :
    Cursor.Provides c (c.rows.drop c.position) := by
  generalize hrows : c.rows.drop c.position = rows
  induction rows generalizing c with
  | nil =>
    refine .nothing fun context row after events hstep => ?_
    cases hstop : context.interruption? with
    | some reason => simp [advance_of_interrupted hactive hstop] at hstep
    | none =>
      rw [advance_of_active hactive hstop,
        List.getElem?_eq_none (List.drop_eq_nil_iff.mp hrows)] at hstep
      simp at hstep
  | cons row rows ih =>
    have hrow : c.rows[c.position]? = some row := by
      rw [← List.head?_drop, hrows, List.head?_cons]
    have hrest : c.rows.drop (c.position + 1) = rows := by
      rw [← List.tail_drop, hrows, List.tail_cons]
    -- a call fails or returns the row at the position
    have hadvance : ∀ context outcome after events,
        Cursor.advance context c = ⟨.ok outcome, after, events⟩ →
          outcome = some row ∧ after = { c with position := c.position + 1 } := by
      intro context outcome after events hstep
      cases hstop : context.interruption? with
      | some reason => simp [advance_of_interrupted hactive hstop] at hstep
      | none =>
        rw [advance_of_active hactive hstop, hrow] at hstep
        simp only [Call.mk.injEq, Except.ok.injEq] at hstep
        exact ⟨hstep.1.symm, hstep.2.1.symm⟩
    refine .more (fun context after events hstep => ?_) (fun context next after events hstep => ?_)
      (fun context next after events hstep => ?_)
    · cases (hadvance _ _ _ _ hstep).1
    · exact Option.some.inj (hadvance _ _ _ _ hstep).1
    · rw [(hadvance _ _ _ _ hstep).2]
      exact ih hactive hrest

/-- A cursor over given rows provides them whenever it is opened. -/
theorem provides_of_openOn (stores : Stores) (context : QueryContext) (c : RowsCursor) :
    Cursor.ProvidesWhenOpened stores context c c.rows := by
  intro opened events hopen
  have hopen : RowsCursor.openOn context c = ⟨.ok (), opened, events⟩ := hopen
  unfold RowsCursor.openOn at hopen
  split at hopen
  · cases hopen
  · next lifecycle hstart =>
    obtain ⟨-, rfl⟩ := Lifecycle.start_eq_ok_iff.mp hstart
    cases hopen
    exact provides rfl

end RowsCursor

namespace Input

variable {γ : Type} [Cursor γ] {context : QueryContext} {side : Side} {comparator : KeyComparator}
  {check : Bool} {input filled : Input γ} {passed : Nat} {events : List Event}

/-- Filling an input moves its cursor on and may get a row in hand; the rest is as it was. -/
theorem exists_fill_eq (context : QueryContext) (side : Side) (comparator : KeyComparator)
    (check : Bool) (input : Input γ) :
    ∃ cursor lookahead exhausted, (input.fill context side comparator check).cursor =
      { input with cursor, lookahead, exhausted } := by
  fun_induction Input.fill context side comparator check input with
  | case1 input _ => exact ⟨_, _, _, rfl⟩
  | case2 input _ e cursor events _ => exact ⟨_, _, _, rfl⟩
  | case3 input _ cursor events _ => exact ⟨_, _, _, rfl⟩
  | case4 input _ row cursor events _ _ e _ => exact ⟨_, _, _, rfl⟩
  | case5 input _ row cursor events _ _ _ => exact ⟨_, _, _, rfl⟩
  | case6 input _ row cursor events _ _ rest ih => exact ih

omit [Cursor γ] in
/-- An input that is asked for a row has none in hand. -/
theorem lookahead_of_asked (hasked : ¬(input.exhausted || input.lookahead.isSome) = true) :
    input.lookahead = none := by
  rw [Bool.or_eq_true, not_or, Bool.not_eq_true, Bool.not_eq_true, Option.isSome_eq_false_iff,
    Option.isNone_iff_eq_none] at hasked
  exact hasked.2

omit [Cursor γ] in
@[simp] theorem cursor_take : input.take.cursor = input.cursor := by
  unfold Input.take
  split <;> rfl

/-- What the answers of a cursor keep, filling an input keeps unless it fails. -/
theorem cursor_of_fill {P : γ → Prop} (hP : Cursor.AnswersKeep P) (h : P input.cursor)
    (hfill : input.fill context side comparator check = ⟨.ok passed, filled, events⟩) :
    P filled.cursor := by
  fun_induction Input.fill context side comparator check input generalizing passed events with
  | case1 input _ =>
    cases hfill
    exact h
  | case2 input _ e cursor events _ => cases hfill
  | case3 input _ cursor events hstep =>
    cases hfill
    exact hP hstep h
  | case4 input _ row cursor events _ _ e _ => cases hfill
  | case5 input _ row cursor events hstep _ _ =>
    cases hfill
    exact hP hstep h
  | case6 input _ row cursor events hstep _ next =>
    rename_i ih
    simp only [Call.mk.injEq] at hfill
    obtain ⟨hresult, rfl, -⟩ := hfill
    cases hnext : next.result with
    | error e => simp [hnext, Except.map] at hresult
    | ok n => exact ih (hP hstep h) (by rw [← hnext])

/-! ### Rows to come -/

/-- The rows that count and are still to be used up are the row in hand and those of the type that
the cursor provides. -/
inductive Awaits (input : Input γ) : List Row → Prop where
  | coming {rows : List Row} (hopen : input.exhausted = false)
      (hrows : Cursor.Provides input.cursor rows) :
      Awaits input (input.lookahead.toList ++ rows.filter (·.isOfType input.rowType))
  | spent (hhand : input.lookahead = none) (hspent : input.exhausted = true) : Awaits input []

variable {rest : List Row}

/-- An input that is asked for a row awaits what its cursor provides. -/
theorem Awaits.of_asked (h : input.Awaits rest)
    (hasked : ¬(input.exhausted || input.lookahead.isSome) = true) :
    input.exhausted = false ∧ ∃ rows, Cursor.Provides input.cursor rows ∧
      rest = rows.filter (·.isOfType input.rowType) := by
  cases h with
  | spent hhand hspent => simp [hspent] at hasked
  | coming hopen hrows =>
    refine ⟨hopen, _, hrows, ?_⟩
    rw [lookahead_of_asked hasked, Option.toList_none, List.nil_append]

/-- Filling takes no row away, and gets the first one in hand if there is one. -/
theorem Awaits.fill (h : input.Awaits rest)
    (hfill : input.fill context side comparator check = ⟨.ok passed, filled, events⟩) :
    filled.Awaits rest ∧ filled.lookahead = rest.head? := by
  fun_induction Input.fill context side comparator check input generalizing passed events rest with
  | case1 input hidle =>
    -- nothing is asked of the cursor
    cases hfill
    refine ⟨h, ?_⟩
    cases h with
    | spent hhand _ => exact hhand
    | coming hopen _ =>
      rw [hopen, Bool.false_or, Option.isSome_iff_exists] at hidle
      obtain ⟨row, hrow⟩ := hidle
      rw [hrow]
      rfl
  | case2 input hasked e cursor events hstep => cases hfill
  | case3 input hasked cursor events hstep =>
    obtain ⟨-, rows, hrows, rfl⟩ := h.of_asked hasked
    obtain rfl := hrows.of_none hstep
    have hhand := lookahead_of_asked hasked
    cases hfill
    exact ⟨.spent hhand rfl, hhand⟩
  | case4 input hasked row cursor events hstep htype e haccept => cases hfill
  | case5 input hasked row cursor events hstep htype haccept =>
    obtain ⟨hopen, rows, hrows, rfl⟩ := h.of_asked hasked
    obtain ⟨others, rfl, hothers⟩ := hrows.of_some hstep
    cases hfill
    rw [List.filter_cons_of_pos (by exact htype)]
    exact ⟨.coming hopen hothers, rfl⟩
  | case6 input hasked row cursor events hstep htype next =>
    rename_i ih
    obtain ⟨hopen, rows, hrows, rfl⟩ := h.of_asked hasked
    obtain ⟨others, rfl, hothers⟩ := hrows.of_some hstep
    have hawaits : Awaits { input with cursor } (others.filter (·.isOfType input.rowType)) := by
      have hcoming : Awaits { input with cursor }
          (input.lookahead.toList ++ others.filter (·.isOfType input.rowType)) :=
        .coming hopen hothers
      have hlist : input.lookahead.toList = [] := by rw [lookahead_of_asked hasked]; rfl
      rwa [hlist, List.nil_append] at hcoming
    rw [List.filter_cons_of_neg (by exact htype)]
    simp only [Call.mk.injEq] at hfill
    obtain ⟨hresult, rfl, -⟩ := hfill
    cases hnext : next.result with
    | error e => simp [hnext, Except.map] at hresult
    | ok n => exact ih hawaits (by rw [← hnext])

/-- Using up the row in hand leaves the others. -/
theorem Awaits.take {row : Row} (h : input.Awaits rest) (hhand : input.lookahead = some row) :
    ∃ others, rest = row :: others ∧ input.take.Awaits others := by
  cases h with
  | spent hnone _ => simp [hnone] at hhand
  | coming hopen hrows =>
    rw [hhand, Input.take, hhand]
    exact ⟨_, rfl, .coming (by exact hopen) (by exact hrows)⟩

/-! ### Rows used up -/

/-- These rows were used up, and they ascend, also with the row in hand. -/
structure Ordered (comparator : KeyComparator) (input : Input γ) (used : List Row) : Prop where
  last : input.last = used.getLast?
  ascending : comparator.Ascending input.offset (used ++ input.lookahead.toList)

variable {used : List Row}

omit [Cursor γ] in
/-- A row that passes the check does not go behind the row used up last. -/
theorem notAfter_of_checkOrder {row previous : Row}
    (h : input.checkOrder side comparator row = .ok ()) (hlast : input.last = some previous) :
    comparator.NotAfter previous.values input.offset row.values input.offset := by
  rw [checkOrder, hlast] at h
  cases hcompare : comparator.compareRuns previous.values input.offset row.values input.offset with
  | error e => simp [hcompare] at h
  | ok o =>
    cases o with
    | lt => exact ⟨_, hcompare, rfl⟩
    | eq => exact ⟨_, hcompare, rfl⟩
    | gt => simp [hcompare] at h

/-- With the check, filling gets a row in hand that continues the order. -/
theorem Ordered.fill (h : input.Ordered comparator used)
    (hfill : input.fill context side comparator true = ⟨.ok passed, filled, events⟩) :
    filled.Ordered comparator used := by
  generalize hcheck : true = check at hfill
  fun_induction Input.fill context side comparator check input generalizing passed events with
  | case1 input _ =>
    cases hfill
    exact h
  | case2 input _ e cursor events _ => cases hfill
  | case3 input _ cursor events _ =>
    cases hfill
    exact ⟨h.last, h.ascending⟩
  | case4 input _ row cursor events _ _ e _ => cases hfill
  | case5 input hasked row cursor events _ _ haccept =>
    cases hfill
    have hused : comparator.Ascending input.offset used := by
      simpa [lookahead_of_asked hasked] using h.ascending
    refine ⟨h.last, List.isChain_append.mpr ⟨hused, List.isChain_singleton row, ?_⟩⟩
    rintro previous hprevious next ⟨⟩
    rw [← hcheck] at haccept
    exact notAfter_of_checkOrder haccept (h.last.trans hprevious)
  | case6 input _ row cursor events _ _ next =>
    rename_i ih
    simp only [Call.mk.injEq] at hfill
    obtain ⟨hresult, rfl, -⟩ := hfill
    cases hnext : next.result with
    | error e => simp [hnext, Except.map] at hresult
    | ok n => exact ih ⟨h.last, h.ascending⟩ (by rw [← hnext])

omit [Cursor γ] in
/-- The row in hand is the next one used up. -/
theorem Ordered.take {row : Row} (h : input.Ordered comparator used)
    (hhand : input.lookahead = some row) : input.take.Ordered comparator (used ++ [row]) := by
  have hascending := h.ascending
  rw [hhand] at hascending
  rw [Input.take, hhand]
  refine ⟨by rw [List.getLast?_append, List.getLast?_singleton]; rfl, ?_⟩
  rw [Option.toList_none, List.append_nil]
  exact hascending

end Input

end TableGroups
