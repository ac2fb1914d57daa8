import Mathlib.Data.List.Forall2
import TableGroups.Proofs.Cursor.Unison

/-!
# Two runs side by side

Two runs of cursors that get the same calls, each under contexts of its own, go side by side as long
as what the contexts differ in makes no difference.  A `Leeway` says in what they may differ: the
contexts, the flags that cursors take from them, and what is reported.  The first run may besides
have to check the order of inputs where the second one need not; then it may fail where the second
one goes on.

What is asked of a relation between two cursor types is `Cursor.Simulates`: related cursors are in
one state, and related calls on them agree and leave related cursors, unless a check has stopped the
first run.  Leaves are related when they differ in their lifecycles at most, and an intersection is
simulated by another one if its inputs are (`Intersection.simulates`).  The loops of the merge carry
the relation through: `Input.Alike.fill` one row in hand further, `Intersection.Alike.nextRow` one
row of the merge further.  Usages go side by side from there (`Cursor.Simulates.run`).
-/

namespace TableGroups

/-! ### Leeway -/

/-- In what two runs may differ, the first run on the left. -/
structure Leeway where
  /-- The contexts that two calls are made under. -/
  contexts : QueryContext → QueryContext → Prop
  /-- Whether two open cursors report what they do. -/
  records : Bool → Bool → Prop
  /-- Whether two closed cursors did when they were open. -/
  recorded : Bool → Bool → Prop
  /-- What is reported. -/
  reports : List Event → List Event → Prop
  /-- The first run may check the order of an input where the second one does not. -/
  lenient : Prop
  interruption_eq {context context' : QueryContext} :
    contexts context context' → context'.interruption? = context.interruption?
  records_of_contexts {context context' : QueryContext} :
    contexts context context' → records context.config.recordMetrics context'.config.recordMetrics
  checks_of_contexts {context context' : QueryContext} :
    contexts context context' →
      context'.config.checkInputOrder = context.config.checkInputOrder ∨
        lenient ∧ context'.config.checkInputOrder = false
  recorded_of_records {b b' : Bool} : records b b' → recorded b b'
  reports_nil : reports [] []
  reports_append {before before' after after' : List Event} :
    reports before before' → reports after after' → reports (before ++ after) (before' ++ after')
  reports_if {b b' : Bool} (events : List Event) :
    records b b' → reports (if b then events else []) (if b' then events else [])

namespace Leeway

variable {leeway : Leeway}

/-- Whether two intersections check the order of their inputs. -/
def Checks (leeway : Leeway) (check check' : Bool) : Prop :=
  check' = check ∨ leeway.lenient ∧ check' = false

/-- The lifecycles of two cursors in one state. -/
structure Lifecycles (leeway : Leeway) (lifecycle lifecycle' : Lifecycle) : Prop where
  state_eq : lifecycle'.state = lifecycle.state
  records : lifecycle.state ≠ .closed →
    leeway.records lifecycle.recordMetrics lifecycle'.recordMetrics
  recorded : leeway.recorded lifecycle.recordMetrics lifecycle'.recordMetrics

/-- Two calls that agree: one result, related cursors, and reports within the leeway. -/
structure Agree {γ δ α : Type} (leeway : Leeway) (R : γ → δ → Prop) (call : Call γ α)
    (call' : Call δ α) : Prop where
  result_eq : call'.result = call.result
  cursor : R call.cursor call'.cursor
  reports : leeway.reports call.events call'.events

/-- Two calls that agree, unless the first one has failed where the second one may go on. -/
def Abreast {γ δ α : Type} (leeway : Leeway) (R : γ → δ → Prop) (call : Call γ α)
    (call' : Call δ α) : Prop :=
  (leeway.lenient ∧ ∃ e, call.result = .error e) ∨ leeway.Agree R call call'

section

variable {context context' : QueryContext} {lifecycle lifecycle' : Lifecycle}

theorem reports_interruptionEvents (h : leeway.contexts context context') :
    leeway.reports context.interruptionEvents context'.interruptionEvents := by
  unfold QueryContext.interruptionEvents
  rw [leeway.interruption_eq h]
  cases context.interruption? with
  | none => exact leeway.reports_nil
  | some reason => exact leeway.reports_if _ (leeway.records_of_contexts h)

theorem Lifecycles.refl (hrecords : ∀ b, leeway.records b b) : leeway.Lifecycles lifecycle lifecycle
    where
  state_eq := rfl
  records _ := hrecords _
  recorded := leeway.recorded_of_records (hrecords _)

theorem Lifecycles.close (h : leeway.Lifecycles lifecycle lifecycle') :
    leeway.Lifecycles lifecycle.close lifecycle'.close where
  state_eq := rfl
  records hopen := absurd rfl hopen
  recorded := h.recorded

theorem Lifecycles.drain (h : leeway.Lifecycles lifecycle lifecycle') :
    leeway.Lifecycles lifecycle.drain lifecycle'.drain := by
  unfold Lifecycle.drain
  rw [h.state_eq]
  split
  · next hactive =>
    have hopen : lifecycle.state ≠ .closed := by
      intro hclosed
      simp [hclosed, CursorState.isActive] at hactive
    exact ⟨rfl, fun _ => h.records hopen, h.recorded⟩
  · exact h

/-- Both cursors are open already, or both open now and take their flags from the contexts. -/
theorem Lifecycles.start (h : leeway.Lifecycles lifecycle lifecycle')
    (hcontexts : leeway.contexts context context') (kind : CursorKind) :
    (lifecycle.start kind context = .error (.alreadyOpen kind) ∧
        lifecycle'.start kind context' = .error (.alreadyOpen kind)) ∨
      ∃ started started', lifecycle.start kind context = .ok started ∧
        lifecycle'.start kind context' = .ok started' ∧ leeway.Lifecycles started started' ∧
          started.state ≠ .closed := by
  unfold Lifecycle.start
  rw [h.state_eq]
  split
  · exact .inl ⟨rfl, rfl⟩
  · have hrecords := leeway.records_of_contexts hcontexts
    exact .inr ⟨_, _, rfl, rfl, ⟨rfl, fun _ => hrecords, leeway.recorded_of_records hrecords⟩,
      nofun⟩

theorem Lifecycles.gate_eq (h : leeway.Lifecycles lifecycle lifecycle') (kind : CursorKind) :
    lifecycle'.gate kind = lifecycle.gate kind := by
  unfold Lifecycle.gate
  rw [h.state_eq]

/-- What open cursors report is within the leeway. -/
theorem Lifecycles.report (h : leeway.Lifecycles lifecycle lifecycle')
    (hopen : lifecycle.state ≠ .closed) (events : List Event) :
    leeway.reports (lifecycle.report events) (lifecycle'.report events) :=
  leeway.reports_if events (h.records hopen)

end

section

variable {γ δ α : Type} {R : γ → δ → Prop} {call : Call γ α} {call' : Call δ α} {after : γ}
  {events : List Event}

/-- A call that agrees with a given one is known but for its cursor and its events. -/
theorem Agree.exists_eq {result : Except CursorError α} (h : leeway.Agree R call call')
    (hcall : call = ⟨result, after, events⟩) :
    ∃ after' events', call' = ⟨result, after', events'⟩ ∧ R after after' ∧
      leeway.reports events events' := by
  obtain ⟨result', after', events'⟩ := call'
  obtain ⟨hresult, hafter, hreports⟩ := h
  subst hcall
  exact ⟨after', events', congrArg (Call.mk · after' events') hresult, hafter, hreports⟩

theorem Abreast.exists_of_ok {answer : α} (h : leeway.Abreast R call call')
    (hcall : call = ⟨.ok answer, after, events⟩) :
    ∃ after' events', call' = ⟨.ok answer, after', events'⟩ ∧ R after after' ∧
      leeway.reports events events' := by
  rcases h with ⟨-, e, hfailed⟩ | hagree
  · rw [hcall] at hfailed
    cases hfailed
  · exact hagree.exists_eq hcall

/-- A call that fails may have been stopped alone. -/
theorem Abreast.exists_of_error {e : CursorError} (h : leeway.Abreast R call call')
    (hcall : call = ⟨.error e, after, events⟩) :
    leeway.lenient ∨ ∃ after' events', call' = ⟨.error e, after', events'⟩ ∧ R after after' ∧
      leeway.reports events events' :=
  h.imp And.left fun hagree => hagree.exists_eq hcall

end

end Leeway

/-- The relation holds between cursors that do the same, as far as the leeway goes. -/
structure Cursor.Simulates {γ δ : Type} [Cursor γ] [Cursor δ] (leeway : Leeway) (R : γ → δ → Prop) :
    Prop where
  state_eq {c : γ} {c' : δ} : R c c' → state c' = state c
  openOn (stores : Stores) {context context' : QueryContext} {c : γ} {c' : δ} :
    leeway.contexts context context' → R c c' →
      leeway.Agree R (openOn stores context c) (openOn stores context' c')
  advance {context context' : QueryContext} {c : γ} {c' : δ} :
    leeway.contexts context context' → R c c' →
      leeway.Abreast R (advance context c) (advance context' c')
  close {c : γ} {c' : δ} :
    R c c' → R (close c).1 (close c').1 ∧ leeway.reports (close c).2 (close c').2

variable {leeway : Leeway} {context context' : QueryContext}

/-! ### Cursors over given rows -/

namespace RowsCursor

/-- The two cursors differ in their lifecycles at most. -/
def Alike (leeway : Leeway) (c c' : RowsCursor) : Prop :=
  ∃ lifecycle, c' = { c with lifecycle } ∧ leeway.Lifecycles c.lifecycle lifecycle

theorem simulates (leeway : Leeway) : Cursor.Simulates leeway (Alike leeway) where
  state_eq := by
    rintro c _ ⟨lifecycle, rfl, hlifecycle⟩
    exact hlifecycle.state_eq
  openOn := by
    rintro stores context context' c _ hcontexts ⟨lifecycle, rfl, hlifecycle⟩
    show leeway.Agree _ (RowsCursor.openOn context c)
      (RowsCursor.openOn context' { c with lifecycle })
    rcases hlifecycle.start hcontexts .rows with
      ⟨hstart, hstart'⟩ | ⟨started, started', hstart, hstart', hstarted, hopen⟩
    · simp only [openOn, hstart, hstart']
      exact ⟨rfl, ⟨_, rfl, hlifecycle⟩, leeway.reports_nil⟩
    · simp only [openOn, hstart, hstart']
      exact ⟨rfl, ⟨_, rfl, hstarted⟩, hstarted.report hopen _⟩
  advance := by
    rintro context context' c _ hcontexts ⟨lifecycle, rfl, hlifecycle⟩
    right
    show leeway.Agree _ (RowsCursor.advance context c)
      (RowsCursor.advance context' { c with lifecycle })
    simp only [advance, hlifecycle.gate_eq, leeway.interruption_eq hcontexts]
    have hstays : Alike leeway c { c with lifecycle } := ⟨_, rfl, hlifecycle⟩
    split
    · exact ⟨rfl, hstays, leeway.reports_nil⟩
    · split
      · exact ⟨rfl, hstays, leeway.reports_interruptionEvents hcontexts⟩
      · split
        · split
          · exact ⟨rfl, ⟨_, rfl, hlifecycle⟩, leeway.reports_nil⟩
          · exact ⟨rfl, ⟨_, rfl, hlifecycle.drain⟩, leeway.reports_nil⟩
        · exact ⟨rfl, hstays, leeway.reports_nil⟩
  close := by
    rintro c _ ⟨lifecycle, rfl, hlifecycle⟩
    show Alike leeway c.close.1 (close { c with lifecycle }).1 ∧
      leeway.reports c.close.2 (close { c with lifecycle }).2
    simp only [close, hlifecycle.state_eq]
    split
    · next hopen =>
      have hopen : c.lifecycle.state ≠ .closed := by simpa [CursorState.isOpen] using hopen
      exact ⟨⟨_, rfl, hlifecycle.close⟩, hlifecycle.report hopen _⟩
    · exact ⟨⟨_, rfl, hlifecycle⟩, leeway.reports_nil⟩

end RowsCursor

/-! ### Scans -/

namespace IndexScan

/-- The two scans differ in their lifecycles at most. -/
def Alike (leeway : Leeway) (scan scan' : IndexScan) : Prop :=
  ∃ lifecycle, scan' = { scan with lifecycle } ∧ leeway.Lifecycles scan.lifecycle lifecycle

theorem simulates (leeway : Leeway) : Cursor.Simulates leeway (Alike leeway) where
  state_eq := by
    rintro scan _ ⟨lifecycle, rfl, hlifecycle⟩
    exact hlifecycle.state_eq
  openOn := by
    rintro stores context context' scan _ hcontexts ⟨lifecycle, rfl, hlifecycle⟩
    show leeway.Agree _ (scan.openOn stores context)
      (IndexScan.openOn stores context' { scan with lifecycle })
    rcases hlifecycle.start hcontexts .indexScan with
      ⟨hstart, hstart'⟩ | ⟨started, started', hstart, hstart', hstarted, hopen⟩
    · simp only [openOn, hstart, hstart']
      exact ⟨rfl, ⟨_, rfl, hlifecycle⟩, leeway.reports_nil⟩
    · simp only [openOn, hstart, hstart']
      split
      · exact ⟨rfl, ⟨_, rfl, hstarted.close⟩, leeway.reports_nil⟩
      · exact ⟨rfl, ⟨_, rfl, hstarted⟩, hstarted.report hopen _⟩
  advance := by
    rintro context context' scan _ hcontexts ⟨lifecycle, rfl, hlifecycle⟩
    right
    show leeway.Agree _ (scan.advance context)
      (IndexScan.advance context' { scan with lifecycle })
    simp only [advance, hlifecycle.gate_eq, leeway.interruption_eq hcontexts]
    have hstays : Alike leeway scan { scan with lifecycle } := ⟨_, rfl, hlifecycle⟩
    split
    · exact ⟨rfl, hstays, leeway.reports_nil⟩
    · split
      · exact ⟨rfl, hstays, leeway.reports_interruptionEvents hcontexts⟩
      · split
        · split
          · exact ⟨rfl, ⟨_, rfl, hlifecycle⟩, leeway.reports_nil⟩
          · exact ⟨rfl, ⟨_, rfl, hlifecycle.drain⟩, leeway.reports_nil⟩
        · exact ⟨rfl, hstays, leeway.reports_nil⟩
  close := by
    rintro scan _ ⟨lifecycle, rfl, hlifecycle⟩
    show Alike leeway scan.close.1 (close { scan with lifecycle }).1 ∧
      leeway.reports scan.close.2 (close { scan with lifecycle }).2
    simp only [close, hlifecycle.state_eq]
    split
    · next hopen =>
      have hopen : scan.lifecycle.state ≠ .closed := by simpa [CursorState.isOpen] using hopen
      exact ⟨⟨_, rfl, hlifecycle.close⟩, hlifecycle.report hopen _⟩
    · exact ⟨⟨_, rfl, hlifecycle⟩, leeway.reports_nil⟩

end IndexScan

/-! ### Inputs -/

namespace Input

variable {γ δ : Type} {R : γ → δ → Prop}

/-- The same was seen of two related cursors. -/
structure Alike (R : γ → δ → Prop) (input : Input γ) (input' : Input δ) : Prop where
  cursor : R input.cursor input'.cursor
  rowType_eq : input'.rowType = input.rowType
  offset_eq : input'.offset = input.offset
  lookahead_eq : input'.lookahead = input.lookahead
  exhausted_eq : input'.exhausted = input.exhausted
  last_eq : input'.last = input.last

section

variable {input : Input γ} {input' : Input δ}

theorem Alike.withCursor (h : Alike R input input') {cursor : γ} {cursor' : δ}
    (hcursor : R cursor cursor') :
    Alike R { input with cursor } { input' with cursor := cursor' } :=
  { h with cursor := hcursor }

theorem Alike.reset (h : Alike R input input') : Alike R input.reset input'.reset :=
  { h with lookahead_eq := rfl, exhausted_eq := rfl, last_eq := rfl }

theorem Alike.take (h : Alike R input input') : Alike R input.take input'.take := by
  unfold Input.take
  rw [h.lookahead_eq]
  cases input.lookahead with
  | none => exact h
  | some row => exact { h with lookahead_eq := rfl, last_eq := rfl }

theorem Alike.checkOrder_eq (h : Alike R input input') (side : Side) (comparator : KeyComparator)
    (row : Row) : input'.checkOrder side comparator row = input.checkOrder side comparator row := by
  simp only [checkOrder, h.last_eq, h.offset_eq]

/-- Both inputs ask their cursors for a row or neither does. -/
theorem Alike.asks (h : Alike R input input')
    (hmore : ¬ (input.exhausted || input.lookahead.isSome) = true) :
    ¬ (input'.exhausted || input'.lookahead.isSome) = true := by
  rwa [h.exhausted_eq, h.lookahead_eq]

end

variable [Cursor γ] [Cursor δ] {side : Side} {comparator : KeyComparator}
  {check : Bool}

section

variable (input : Input γ) {cursor : γ} {events : List Event}
  (hmore : ¬ (input.exhausted || input.lookahead.isSome) = true)

include hmore

theorem fill_of_error {e : CursorError}
    (h : Cursor.advance context input.cursor = ⟨.error e, cursor, events⟩) :
    input.fill context side comparator check = ⟨.error e, { input with cursor }, events⟩ := by
  rw [fill, if_neg hmore]
  split <;> simp_all

theorem fill_of_none (h : Cursor.advance context input.cursor = ⟨.ok none, cursor, events⟩) :
    input.fill context side comparator check =
      ⟨.ok 0, { input with cursor, exhausted := true }, events⟩ := by
  rw [fill, if_neg hmore]
  split <;> simp_all

variable {row : Row} (h : Cursor.advance context input.cursor = ⟨.ok (some row), cursor, events⟩)

include h

theorem fill_of_refused (htype : row.isOfType input.rowType) {e : CursorError}
    (hcheck : (if check then input.checkOrder side comparator row else .ok ()) = .error e) :
    input.fill context side comparator check = ⟨.error e, { input with cursor }, events⟩ := by
  rw [fill, if_neg hmore]
  split <;> simp_all

theorem fill_of_accepted (htype : row.isOfType input.rowType)
    (hcheck : (if check then input.checkOrder side comparator row else .ok ()) = .ok ()) :
    input.fill context side comparator check =
      ⟨.ok 0, { input with cursor, lookahead := some row }, events⟩ := by
  rw [fill, if_neg hmore]
  split <;> simp_all

theorem fill_of_foreign (htype : ¬ row.isOfType input.rowType) :
    input.fill context side comparator check =
      let rest := fill context side comparator check { input with cursor }
      ⟨rest.result.map (· + 1), rest.cursor, events ++ rest.events⟩ := by
  rw [fill, if_neg hmore]
  split <;> simp_all

end

/-- Related inputs are filled abreast. -/
theorem Alike.fill (hR : Cursor.Simulates leeway R) (hcontexts : leeway.contexts context context')
    {check' : Bool} (hcheck : leeway.Checks check check') {input : Input γ} {input' : Input δ}
    (h : Alike R input input') :
    leeway.Abreast (Alike R) (input.fill context side comparator check)
      (input'.fill context' side comparator check') := by
  fun_induction Input.fill context side comparator check input generalizing input' with
  | case1 input hdone =>
    have hdone' : (input'.exhausted || input'.lookahead.isSome) = true := by
      rwa [h.exhausted_eq, h.lookahead_eq]
    rw [Input.fill.eq_def context', if_pos hdone']
    exact .inr ⟨rfl, h, leeway.reports_nil⟩
  | case2 input hmore e cursor events hstep =>
    rcases (hR.advance hcontexts h.cursor).exists_of_error hstep with
      hlenient | ⟨after', events', hstep', hafter, hreports⟩
    · exact .inl ⟨hlenient, e, rfl⟩
    · rw [fill_of_error input' (h.asks hmore) hstep']
      exact .inr ⟨rfl, h.withCursor hafter, hreports⟩
  | case3 input hmore cursor events hstep =>
    obtain ⟨after', events', hstep', hafter, hreports⟩ :=
      (hR.advance hcontexts h.cursor).exists_of_ok hstep
    rw [fill_of_none input' (h.asks hmore) hstep']
    exact .inr ⟨rfl, { h.withCursor hafter with exhausted_eq := rfl }, hreports⟩
  | case4 input hmore row cursor events hstep htype e haccept =>
    obtain ⟨after', events', hstep', hafter, hreports⟩ :=
      (hR.advance hcontexts h.cursor).exists_of_ok hstep
    rcases hcheck with rfl | ⟨hlenient, rfl⟩
    · rw [← h.checkOrder_eq] at haccept
      rw [fill_of_refused input' (h.asks hmore) hstep' (h.rowType_eq ▸ htype) haccept]
      exact .inr ⟨rfl, h.withCursor hafter, hreports⟩
    · -- only the first run looks at the order
      exact .inl ⟨hlenient, e, rfl⟩
  | case5 input hmore row cursor events hstep htype haccept =>
    obtain ⟨after', events', hstep', hafter, hreports⟩ :=
      (hR.advance hcontexts h.cursor).exists_of_ok hstep
    -- a row that passes the check is taken without the check too
    have haccept' : (if check' then input'.checkOrder side comparator row else .ok ()) =
        .ok () := by
      rcases hcheck with rfl | ⟨-, rfl⟩
      · rw [h.checkOrder_eq]
        exact haccept
      · rfl
    rw [fill_of_accepted input' (h.asks hmore) hstep' (h.rowType_eq ▸ htype) haccept']
    exact .inr ⟨rfl, { h.withCursor hafter with lookahead_eq := rfl }, hreports⟩
  | case6 input hmore row cursor events hstep htype rest =>
    rename_i ih
    obtain ⟨after', events', hstep', hafter, hreports⟩ :=
      (hR.advance hcontexts h.cursor).exists_of_ok hstep
    -- the row is passed over, and both runs go on
    rw [fill_of_foreign input' (h.asks hmore) hstep' (h.rowType_eq ▸ htype)]
    rcases ih (h.withCursor hafter) with ⟨hlenient, e, hfailed⟩ | hagree
    · exact .inl ⟨hlenient, e, congrArg (Except.map (· + 1)) hfailed⟩
    · refine .inr ⟨?_, hagree.cursor, leeway.reports_append hreports hagree.reports⟩
      exact congrArg (Except.map (· + 1)) hagree.result_eq

end Input

/-! ### Intersections -/

namespace Intersection

variable {L L' R R' : Type} {P : L → L' → Prop} {Q : R → R' → Prop}

/-- The two intersections have the same to do on related inputs. -/
structure Alike (leeway : Leeway) (P : L → L' → Prop) (Q : R → R' → Prop) (m : Intersection L R)
    (m' : Intersection L' R') : Prop where
  left : m.left.Alike P m'.left
  right : m.right.Alike Q m'.right
  comparator_eq : m'.comparator = m.comparator
  join_eq : m'.join = m.join
  output_eq : m'.output = m.output
  stats_eq : m'.stats = m.stats
  checks : leeway.Checks m.checkOrder m'.checkOrder
  lifecycle : leeway.Lifecycles m.lifecycle m'.lifecycle

section

variable {m : Intersection L R} {m' : Intersection L' R'}

theorem Alike.lookahead_eq (h : Alike leeway P Q m m') (side : Side) :
    m'.lookahead side = m.lookahead side := by
  cases side with
  | left => exact h.left.lookahead_eq
  | right => exact h.right.lookahead_eq

theorem Alike.verdict_eq (h : Alike leeway P Q m m') : m'.verdict = m.verdict := by
  simp only [verdict, h.lookahead_eq, h.left.lookahead_eq, h.right.lookahead_eq, h.left.offset_eq,
    h.right.offset_eq, h.comparator_eq, h.join_eq, h.output_eq]

theorem Alike.take (h : Alike leeway P Q m m') (side : Side) :
    Alike leeway P Q (m.take side) (m'.take side) := by
  cases side with
  | left => exact { h with left := h.left.take }
  | right => exact { h with right := h.right.take }

theorem Alike.withStats (h : Alike leeway P Q m m') (stats : MergeStats) :
    Alike leeway P Q { m with stats } { m' with stats } :=
  { h with stats_eq := rfl }

theorem Alike.emit (h : Alike leeway P Q m m') (side : Side) (isMatch : Bool) :
    Alike leeway P Q (m.emit side isMatch) (m'.emit side isMatch) := by
  cases isMatch <;>
  · simp only [Intersection.emit, h.stats_eq]
    exact (h.take side).withStats _

theorem Alike.discard (h : Alike leeway P Q m m') (side : Side) :
    Alike leeway P Q (m.discard side) (m'.discard side) := by
  simp only [Intersection.discard, h.stats_eq]
  exact (h.take side).withStats _

end

variable [Cursor L] [Cursor L'] [Cursor R] [Cursor R'] {stores : Stores}

section

variable {m filled : Intersection L R} {events : List Event}

theorem nextRow_of_fill_error {e : CursorError} (h : m.fill context = ⟨.error e, filled, events⟩) :
    m.nextRow context = ⟨.error e, filled, events⟩ := by
  rw [nextRow]
  split <;> simp_all

variable (h : m.fill context = ⟨.ok (), filled, events⟩)

include h

theorem nextRow_of_verdict_error {e : ComparisonError} (hverdict : filled.verdict = .error e) :
    m.nextRow context = ⟨.error (.comparison e), filled, events⟩ := by
  rw [nextRow]
  split
  · simp_all
  · split <;> simp_all

theorem nextRow_of_finished (hverdict : filled.verdict = .ok .finished) :
    m.nextRow context = ⟨.ok none, filled, events⟩ := by
  rw [nextRow]
  split
  · simp_all
  · split <;> simp_all

theorem nextRow_of_emit {side : Side} {isMatch : Bool}
    (hverdict : filled.verdict = .ok (.emit side isMatch)) :
    m.nextRow context = ⟨.ok (filled.lookahead side), filled.emit side isMatch, events⟩ := by
  rw [nextRow]
  split
  · simp_all
  · split <;> simp_all

theorem nextRow_of_discard {side : Side} (hverdict : filled.verdict = .ok (.discard side)) :
    m.nextRow context =
      let rest := (filled.discard side).nextRow context
      ⟨rest.result, rest.cursor, events ++ rest.events⟩ := by
  rw [nextRow]
  split
  · simp_all
  · split <;> simp_all

end

section

variable {m : Intersection L R} {m' : Intersection L' R'} (hP : Cursor.Simulates leeway P)
  (hQ : Cursor.Simulates leeway Q)

include hP hQ

theorem Alike.fill (h : Alike leeway P Q m m') (hcontexts : leeway.contexts context context') :
    leeway.Abreast (Alike leeway P Q) (m.fill context) (m'.fill context') := by
  have hfillLeft : leeway.Abreast (Input.Alike P)
      (m.left.fill context .left m.comparator m.checkOrder)
      (m'.left.fill context' .left m'.comparator m'.checkOrder) := by
    rw [h.comparator_eq]
    exact h.left.fill hP hcontexts h.checks
  have hfillRight : leeway.Abreast (Input.Alike Q)
      (m.right.fill context .right m.comparator m.checkOrder)
      (m'.right.fill context' .right m'.comparator m'.checkOrder) := by
    rw [h.comparator_eq]
    exact h.right.fill hQ hcontexts h.checks
  unfold Intersection.fill
  cases hl : m.left.fill context .left m.comparator m.checkOrder with
  | mk result left leftEvents =>
  cases result with
  | error e =>
    rcases hfillLeft.exists_of_error hl with hlenient | ⟨left', _, hl', hleft, hreports⟩
    · exact .inl ⟨hlenient, e, rfl⟩
    · rw [hl']
      exact .inr ⟨rfl, { h with left := hleft }, hreports⟩
  | ok passedLeft =>
    obtain ⟨left', _, hl', hleft, hleftReports⟩ := hfillLeft.exists_of_ok hl
    rw [hl']
    cases hr : m.right.fill context .right m.comparator m.checkOrder with
    | mk result right rightEvents =>
    cases result with
    | error e =>
      rcases hfillRight.exists_of_error hr with hlenient | ⟨right', _, hr', hright, hreports⟩
      · exact .inl ⟨hlenient, e, rfl⟩
      · rw [hr']
        exact .inr ⟨rfl, { h with left := hleft, right := hright },
          leeway.reports_append hleftReports hreports⟩
    | ok passedRight =>
      obtain ⟨right', _, hr', hright, hreports⟩ := hfillRight.exists_of_ok hr
      rw [hr']
      have hstats : { m'.stats with
          discarded := m'.stats.discarded + (passedLeft + passedRight) } =
          { m.stats with discarded := m.stats.discarded + (passedLeft + passedRight) } := by
        rw [h.stats_eq]
      exact .inr ⟨rfl, { h with left := hleft, right := hright, stats_eq := hstats },
        leeway.reports_append hleftReports hreports⟩

/-- Related intersections get the next row of the merge abreast. -/
theorem Alike.nextRow (h : Alike leeway P Q m m')
    (hcontexts : leeway.contexts context context') :
    leeway.Abreast (Alike leeway P Q) (m.nextRow context) (m'.nextRow context') := by
  fun_induction Intersection.nextRow context m generalizing m' with
  | case1 m e filled events hstep =>
    rcases (h.fill hP hQ hcontexts).exists_of_error hstep with
      hlenient | ⟨filled', events', hstep', hfilled, hreports⟩
    · exact .inl ⟨hlenient, e, rfl⟩
    · rw [nextRow_of_fill_error hstep']
      exact .inr ⟨rfl, hfilled, hreports⟩
  | case2 m filled events hstep e hverdict =>
    obtain ⟨filled', events', hstep', hfilled, hreports⟩ :=
      (h.fill hP hQ hcontexts).exists_of_ok hstep
    rw [nextRow_of_verdict_error hstep' (hfilled.verdict_eq.trans hverdict)]
    exact .inr ⟨rfl, hfilled, hreports⟩
  | case3 m filled events hstep hverdict =>
    obtain ⟨filled', events', hstep', hfilled, hreports⟩ :=
      (h.fill hP hQ hcontexts).exists_of_ok hstep
    rw [nextRow_of_finished hstep' (hfilled.verdict_eq.trans hverdict)]
    exact .inr ⟨rfl, hfilled, hreports⟩
  | case4 m filled events hstep side isMatch hverdict =>
    obtain ⟨filled', events', hstep', hfilled, hreports⟩ :=
      (h.fill hP hQ hcontexts).exists_of_ok hstep
    rw [nextRow_of_emit hstep' (hfilled.verdict_eq.trans hverdict)]
    exact .inr ⟨congrArg Except.ok (hfilled.lookahead_eq side), hfilled.emit side isMatch, hreports⟩
  | case5 m filled events hstep side hverdict rest =>
    rename_i ih
    obtain ⟨filled', events', hstep', hfilled, hreports⟩ :=
      (h.fill hP hQ hcontexts).exists_of_ok hstep
    -- a row is dropped, and both runs go on
    rw [nextRow_of_discard hstep' (hfilled.verdict_eq.trans hverdict)]
    rcases ih (hfilled.discard side) with hstopped | hagree
    · exact .inl hstopped
    · exact .inr ⟨hagree.result_eq, hagree.cursor,
        leeway.reports_append hreports hagree.reports⟩

theorem Alike.openOn (h : Alike leeway P Q m m') (hcontexts : leeway.contexts context context') :
    leeway.Agree (Alike leeway P Q) (m.openOn stores context) (m'.openOn stores context') := by
  unfold Intersection.openOn
  rcases h.lifecycle.start hcontexts .intersection with
    ⟨hstart, hstart'⟩ | ⟨started, started', hstart, hstart', hstarted, hopen⟩
  · simp only [hstart, hstart']
    exact ⟨rfl, h, leeway.reports_nil⟩
  simp only [hstart, hstart', Input.reset]
  -- nothing has been seen of either pair of inputs
  have hreset : Alike leeway P Q
      { m with
        left := m.left.reset
        right := m.right.reset
        stats := .zero
        checkOrder := context.config.checkInputOrder
        lifecycle := started }
      { m' with
        left := m'.left.reset
        right := m'.right.reset
        stats := .zero
        checkOrder := context'.config.checkInputOrder
        lifecycle := started' } :=
    { h with
      left := h.left.reset
      right := h.right.reset
      stats_eq := rfl
      checks := leeway.checks_of_contexts hcontexts
      lifecycle := hstarted }
  cases hl : Cursor.openOn stores context m.left.cursor with
  | mk result left leftEvents =>
  obtain ⟨left', leftEvents', hl', hleft, hleftReports⟩ :=
    (hP.openOn stores hcontexts h.left.cursor).exists_eq hl
  simp only [hl']
  cases result with
  | error e =>
    exact ⟨rfl, { hreset with left := hreset.left.withCursor hleft, lifecycle := hstarted.close },
      hleftReports⟩
  | ok _ =>
    cases hr : Cursor.openOn stores context m.right.cursor with
    | mk result right rightEvents =>
    obtain ⟨right', rightEvents', hr', hright, hrightReports⟩ :=
      (hQ.openOn stores hcontexts h.right.cursor).exists_eq hr
    simp only [hr']
    have hreports := leeway.reports_append hleftReports hrightReports
    cases result with
    | error e =>
      obtain ⟨hclosed, hclosing⟩ := hP.close hleft
      exact ⟨rfl,
        { hreset with
          left := hreset.left.withCursor hclosed
          right := hreset.right.withCursor hright
          lifecycle := hstarted.close },
        leeway.reports_append hreports hclosing⟩
    | ok _ =>
      exact ⟨rfl,
        { hreset with
          left := hreset.left.withCursor hleft
          right := hreset.right.withCursor hright },
        leeway.reports_append hreports (hstarted.report hopen _)⟩

theorem Alike.close (h : Alike leeway P Q m m') :
    Alike leeway P Q m.close.1 m'.close.1 ∧ leeway.reports m.close.2 m'.close.2 := by
  obtain ⟨hleft, hleftReports⟩ := hP.close h.left.cursor
  obtain ⟨hright, hrightReports⟩ := hQ.close h.right.cursor
  refine ⟨{ h with
    left := h.left.withCursor hleft
    right := h.right.withCursor hright
    lifecycle := h.lifecycle.close }, ?_⟩
  refine leeway.reports_append (leeway.reports_append hleftReports hrightReports) ?_
  rw [h.lifecycle.state_eq, h.stats_eq]
  split
  · next hopen => exact h.lifecycle.report (by simpa [CursorState.isOpen] using hopen) _
  · exact leeway.reports_nil

theorem Alike.fail (h : Alike leeway P Q m m') (hopen : m.lifecycle.state ≠ .closed)
    (e : CursorError) {events events' : List Event} (hevents : leeway.reports events events') :
    leeway.Agree (Alike leeway P Q) (m.fail e events) (m'.fail e events') := by
  obtain ⟨hclosed, hclosing⟩ := h.close hP hQ
  have hfailure := h.lifecycle.report hopen [.cursorFailed .intersection]
  exact ⟨rfl, hclosed, leeway.reports_append (leeway.reports_append hevents hfailure) hclosing⟩

theorem Alike.advance (h : Alike leeway P Q m m')
    (hcontexts : leeway.contexts context context') :
    leeway.Abreast (Alike leeway P Q) (m.advance context) (m'.advance context') := by
  unfold Intersection.advance
  rw [h.lifecycle.gate_eq, leeway.interruption_eq hcontexts]
  cases hgate : m.lifecycle.gate .intersection with
  | error e => exact .inr ⟨rfl, h, leeway.reports_nil⟩
  | ok active =>
    have hopen : m.lifecycle.state ≠ .closed := by
      intro hclosed
      rw [Lifecycle.gate_of_closed hclosed] at hgate
      cases hgate
    cases context.interruption? with
    | some reason =>
      exact .inr (h.fail hP hQ hopen _ (leeway.reports_interruptionEvents hcontexts))
    | none =>
      cases active with
      | false => exact .inr ⟨rfl, h, leeway.reports_nil⟩
      | true =>
        simp only [if_true]
        have hnext := h.nextRow hP hQ hcontexts
        cases hcall : m.nextRow context with
        | mk result after events =>
        cases result with
        | error e =>
          rcases hnext.exists_of_error hcall with
            hlenient | ⟨after', events', hcall', hafter, hreports⟩
          · exact .inl ⟨hlenient, e, rfl⟩
          · have hstill : after.lifecycle.state ≠ .closed := by rwa [lifecycle_nextRow hcall]
            simp only [hcall']
            exact .inr (hafter.fail hP hQ hstill e hreports)
        | ok answer =>
          obtain ⟨after', events', hcall', hafter, hreports⟩ := hnext.exists_of_ok hcall
          simp only [hcall']
          cases answer with
          | none => exact .inr ⟨rfl, { hafter with lifecycle := hafter.lifecycle.drain }, hreports⟩
          | some row =>
            have hstats : { after'.stats with emitted := after'.stats.emitted + 1 } =
                { after.stats with emitted := after.stats.emitted + 1 } := by
              rw [hafter.stats_eq]
            exact .inr ⟨rfl, { hafter with stats_eq := hstats }, hreports⟩

/-- Intersections go side by side if their inputs do. -/
theorem simulates : Cursor.Simulates leeway (Alike leeway P Q) where
  state_eq h := h.lifecycle.state_eq
  openOn _ _ _ _ _ hcontexts h := h.openOn hP hQ hcontexts
  advance hcontexts h := h.advance hP hQ hcontexts
  close h := h.close hP hQ

end

end Intersection

/-! ### Cursors that look at the query for themselves -/

namespace Watching

variable {γ δ : Type} {R : γ → δ → Prop}

/-- Related cursors that are going to see the query under related contexts. -/
structure Alike (leeway : Leeway) (R : γ → δ → Prop) (c : Watching γ) (c' : Watching δ) : Prop where
  cursor : R c.cursor c'.cursor
  sights : List.Forall₂ leeway.contexts c.sights c'.sights

/-- Both calls for a row see the query under related contexts, and so do the calls to come. -/
theorem contexts_headD {sights sights' : List QueryContext}
    (h : List.Forall₂ leeway.contexts sights sights')
    (hcontexts : leeway.contexts context context') :
    leeway.contexts (sights.headD context) (sights'.headD context') ∧
      List.Forall₂ leeway.contexts sights.tail sights'.tail := by
  cases h with
  | nil => exact ⟨hcontexts, .nil⟩
  | cons hfirst hrest => exact ⟨hfirst, hrest⟩

theorem simulates [Cursor γ] [Cursor δ] (hR : Cursor.Simulates leeway R) :
    Cursor.Simulates leeway (Alike leeway R) where
  state_eq h := hR.state_eq h.cursor
  openOn stores _ _ _ _ hcontexts h := by
    have hagree := hR.openOn stores hcontexts h.cursor
    exact ⟨hagree.result_eq, ⟨hagree.cursor, h.sights⟩, hagree.reports⟩
  advance hcontexts h := by
    obtain ⟨hseen, hrest⟩ := contexts_headD h.sights hcontexts
    refine (hR.advance hseen h.cursor).imp id fun hagree => ?_
    exact ⟨hagree.result_eq, ⟨hagree.cursor, hrest⟩, hagree.reports⟩
  close h := by
    obtain ⟨hclosed, hreports⟩ := hR.close h.cursor
    exact ⟨⟨hclosed, h.sights⟩, hreports⟩

end Watching

/-! ### Usages -/

namespace Usage

variable {γ : Type} [Cursor γ]

/-- Whether none of the requests for a row fails. -/
def answersRequests (usage : Usage γ) : List UsageStep → Bool
  | [] => true
  | .call context .advance :: rest =>
    (Cursor.advance context usage.cursor).result.isOk &&
      (usage.step (.call context .advance)).answersRequests rest
  | step :: rest => (usage.step step).answersRequests rest

theorem answersRequests_call_iff {usage : Usage γ} {call : CursorCall} {rest : List UsageStep} :
    usage.answersRequests (.call context call :: rest) ↔
      (call = .advance → (Cursor.advance context usage.cursor).result.isOk) ∧
        (usage.step (.call context call)).answersRequests rest := by
  cases call <;> simp [answersRequests]

end Usage

namespace Leeway

/-- The same step, under contexts within the leeway. -/
inductive Steps (leeway : Leeway) : UsageStep → UsageStep → Prop where
  | call {context context' : QueryContext} (hcontexts : leeway.contexts context context')
      (call : CursorCall) : Steps leeway (.call context call) (.call context' call)
  | change (store : StoreId) (call : StoreCall) :
      Steps leeway (.change store call) (.change store call)

/-- The same reply, with reports within the leeway. -/
structure Replies (leeway : Leeway) (reply reply' : Reply) : Prop where
  result_eq : reply'.result = reply.result
  state_eq : reply'.state = reply.state
  reports : leeway.reports reply.events reply'.events

end Leeway

namespace Cursor.Simulates

variable {γ δ : Type} [Cursor γ] [Cursor δ] {R : γ → δ → Prop} {c : γ} {c' : δ}

/-- Related calls agree, unless it is a request for a row that is stopped. -/
theorem perform (hR : Simulates leeway R) (stores : Stores)
    (hcontexts : leeway.contexts context context') (h : R c c') {call : CursorCall}
    (hanswers : leeway.lenient → call = .advance → (Cursor.advance context c).result.isOk) :
    leeway.Agree R (Cursor.perform stores context c call)
      (Cursor.perform stores context' c' call) := by
  cases call with
  | openOn =>
    have hagree := hR.openOn stores hcontexts h
    exact ⟨congrArg (Except.map _) hagree.result_eq, hagree.cursor, hagree.reports⟩
  | advance =>
    rcases hR.advance hcontexts h with ⟨hlenient, e, hfailed⟩ | hagree
    · simp [hfailed, Except.isOk, Except.toBool] at hanswers
      exact absurd hlenient hanswers
    · exact ⟨congrArg (Except.map _) hagree.result_eq, hagree.cursor, hagree.reports⟩
  | close =>
    obtain ⟨hclosed, hreports⟩ := hR.close h
    exact ⟨rfl, hclosed, hreports⟩

/-- **Usages go side by side.**  Two usages of related cursors, each made of the same steps under
contexts within the leeway, get the same replies and leave related cursors.  If a check may stop the
first one, none of its requests for a row must fail. -/
theorem run (hR : Simulates leeway R) (usage : Usage γ) (usage' : Usage δ)
    (hstores : usage'.stores = usage.stores) (h : R usage.cursor usage'.cursor)
    (hreplies : List.Forall₂ leeway.Replies usage.replies usage'.replies)
    {steps steps' : List UsageStep} (hsteps : List.Forall₂ leeway.Steps steps steps')
    (hanswers : leeway.lenient → usage.answersRequests steps) :
    R (usage.run steps).cursor (usage'.run steps').cursor ∧
      List.Forall₂ leeway.Replies (usage.run steps).replies (usage'.run steps').replies := by
  induction hsteps generalizing usage usage' with
  | nil => exact ⟨h, hreplies⟩
  | cons hstep hrest ih =>
    cases hstep with
    | change store call =>
      refine ih _ _ ?_ h hreplies hanswers
      simp only [Usage.step, hstores]
    | @call context context' hcontexts call =>
      have hcalls (hlenient : leeway.lenient) :=
        Usage.answersRequests_call_iff.mp (hanswers hlenient)
      have hagree : leeway.Agree R (Cursor.perform usage.stores context usage.cursor call)
          (Cursor.perform usage'.stores context' usage'.cursor call) := by
        rw [hstores]
        exact hR.perform usage.stores hcontexts h fun hlenient => (hcalls hlenient).1
      have hreply : leeway.Replies (Cursor.perform usage.stores context usage.cursor call).reply
          (Cursor.perform usage'.stores context' usage'.cursor call).reply :=
        ⟨hagree.result_eq, hR.state_eq hagree.cursor, hagree.reports⟩
      exact ih _ _ hstores hagree.cursor (List.rel_append hreplies (.cons hreply .nil))
        fun hlenient => (hcalls hlenient).2

end Cursor.Simulates

end TableGroups
