import TableGroups.Proofs.Cursor.Invariant
import TableGroups.Proofs.Cursor.Metered

/-!
# The accounts of the cursors

A cursor over given rows counts rows by its position, a scan has a counter of its own, and an
intersection has several: the rows that it emitted, those of them that had a partner, and those that
had none.  All of them keep account (`RowsCursor.kept`, `IndexScan.kept`, `Intersection.kept`).

An intersection has to see that whatever its inputs report finds its way into its own events, also
when it fails half way, and that its counters agree in the end.  A part of a request is described by
`Intersection.Works`, and every way out of a request closes the inputs before the intersection.
-/

namespace TableGroups

/-- Finding a query stopped changes nothing in the books. -/
theorem QueryContext.passes_interruptionEvents (context : QueryContext) (books : Books) :
    books.Passes books context.interruptionEvents := by
  unfold interruptionEvents report
  split
  · split
    · exact .cancelled (.refl books)
    · exact .refl books
  · exact .refl books

namespace Lifecycle

variable {lifecycle started : Lifecycle} {kind : CursorKind} {context : QueryContext}

/-- What is open was opened under a context that records metrics. -/
def Recording (lifecycle : Lifecycle) : Prop :=
  lifecycle.state.isOpen → lifecycle.recordMetrics

theorem report_eq (hrecords : lifecycle.recordMetrics) (events : List Event) :
    lifecycle.report events = events :=
  if_pos hrecords

theorem isOpen_of_gate {active : Bool} (h : lifecycle.gate kind = .ok active) :
    lifecycle.state.isOpen = true := by
  unfold gate at h
  cases hstate : lifecycle.state <;> simp_all [CursorState.isOpen]

theorem isOpen_of_start (h : lifecycle.start kind context = .ok started) :
    lifecycle.state.isOpen = false ∧ started.state.isOpen = true := by
  obtain ⟨hclosed, rfl⟩ := start_eq_ok_iff.mp h
  exact ⟨by rw [hclosed]; rfl, rfl⟩

theorem recordMetrics_of_start (hrecords : context.config.recordMetrics)
    (h : lifecycle.start kind context = .ok started) : started.recordMetrics := by
  obtain ⟨-, rfl⟩ := start_eq_ok_iff.mp h
  exact hrecords

@[simp] theorem isOpen_drain (lifecycle : Lifecycle) :
    lifecycle.drain.state.isOpen = lifecycle.state.isOpen := by
  obtain ⟨state, _⟩ := lifecycle
  cases state <;> rfl

theorem Recording.drain (h : lifecycle.Recording) : lifecycle.drain.Recording := by
  have hsame : lifecycle.drain.recordMetrics = lifecycle.recordMetrics := by
    unfold Lifecycle.drain
    split <;> rfl
  intro hopen
  rw [hsame]
  exact h (by rwa [isOpen_drain] at hopen)

theorem Recording.closed (hclosed : lifecycle.state = .closed) : lifecycle.Recording := by
  intro hopen
  rw [hclosed] at hopen
  exact absurd hopen Bool.false_ne_true

end Lifecycle

/-! ### Leaves -/

namespace RowsCursor

/-- A cursor over given rows counts rows by its position. -/
def account : Cursor.Account RowsCursor :=
  ⟨.rows, position, fun _ => [], fun c => c.lifecycle.Recording⟩

theorem kept : account.Kept where
  openOn stores context c hrecords hc := by
    show Lifecycle.Recording (c.openOn context).cursor.lifecycle ∧
      account.Opened c (c.openOn context)
    unfold openOn
    split
    · exact ⟨hc, .refl (.refl _)⟩
    · next started hstart =>
      have hrecording := Lifecycle.recordMetrics_of_start hrecords hstart
      obtain ⟨hclosed, hopen⟩ := Lifecycle.isOpen_of_start hstart
      rw [Lifecycle.report_eq hrecording]
      exact ⟨fun _ => hrecording, hclosed, hopen, rfl, [], rfl, .refl _⟩
  advance context c hc := by
    show Lifecycle.Recording (c.advance context).cursor.lifecycle ∧
      account.Advanced c (c.advance context)
    unfold advance
    split
    · exact ⟨hc, .inl (.refl (.refl _))⟩
    · next hgate =>
      have hopen := Lifecycle.isOpen_of_gate hgate
      split
      · exact ⟨hc, .inl (.refl (context.passes_interruptionEvents _))⟩
      · split
        · split
          · exact ⟨hc, hopen, hopen, rfl, .refl _⟩
          · exact ⟨hc.drain, Lifecycle.isOpen_drain _, fun _ => rfl, .refl _⟩
        · exact ⟨hc, .refl (.refl _)⟩
  close {c} hc := by
    show Lifecycle.Recording c.close.1.lifecycle ∧
      (account.Stays c c.close.1 c.close.2 ∨ account.Closes c c.close.1 c.close.2)
    unfold close
    split
    · next hopen =>
      rw [Lifecycle.report_eq (hc hopen)]
      exact ⟨.closed rfl, .inr ⟨hopen, rfl, [], _, rfl, .rows _, .refl _⟩⟩
    · exact ⟨hc, .inl (.refl (.refl _))⟩

end RowsCursor

namespace IndexScan

/-- A scan counts the rows that it has read. -/
def account : Cursor.Account IndexScan :=
  ⟨.indexScan, scanned, fun _ => [], fun scan => scan.lifecycle.Recording⟩

theorem kept : account.Kept where
  openOn stores context scan hrecords hscan := by
    show Lifecycle.Recording (scan.openOn stores context).cursor.lifecycle ∧
      account.Opened scan (scan.openOn stores context)
    unfold openOn
    split
    · exact ⟨hscan, .refl (.refl _)⟩
    · next started hstart =>
      have hrecording := Lifecycle.recordMetrics_of_start hrecords hstart
      obtain ⟨hclosed, hopen⟩ := Lifecycle.isOpen_of_start hstart
      split
      · -- there is no such index in the store
        exact ⟨.closed rfl, hclosed.symm, fun _ => rfl, .refl _⟩
      · rw [Lifecycle.report_eq hrecording]
        exact ⟨fun _ => hrecording, hclosed, hopen, rfl, [], rfl, .refl _⟩
  advance context scan hscan := by
    show Lifecycle.Recording (scan.advance context).cursor.lifecycle ∧
      account.Advanced scan (scan.advance context)
    unfold advance
    split
    · exact ⟨hscan, .inl (.refl (.refl _))⟩
    · next hgate =>
      have hopen := Lifecycle.isOpen_of_gate hgate
      split
      · exact ⟨hscan, .inl (.refl (context.passes_interruptionEvents _))⟩
      · split
        · split
          · exact ⟨hscan, hopen, hopen, rfl, .refl _⟩
          · exact ⟨hscan.drain, Lifecycle.isOpen_drain _, fun _ => rfl, .refl _⟩
        · exact ⟨hscan, .refl (.refl _)⟩
  close {scan} hscan := by
    show Lifecycle.Recording scan.close.1.lifecycle ∧
      (account.Stays scan scan.close.1 scan.close.2 ∨
        account.Closes scan scan.close.1 scan.close.2)
    unfold close
    split
    · next hopen =>
      rw [Lifecycle.report_eq (hscan hopen)]
      exact ⟨.closed rfl, .inr ⟨hopen, rfl, [], _, rfl, .indexScan _ _, .refl _⟩⟩
    · exact ⟨hscan, .inl (.refl (.refl _))⟩

end IndexScan

/-! ### Intersections -/

/-- What an input reports while it is filled tells how its books change. -/
theorem Input.tells_fill {γ : Type} [Cursor γ] {ledger : Cursor.Ledger γ} (h : ledger.Balances)
    (context : QueryContext) (side : Side) (comparator : KeyComparator) (check : Bool)
    {input : Input γ} (hinput : ledger.Good input.cursor) :
    let filling := input.fill context side comparator check
    ledger.Tells input.cursor filling.cursor.cursor filling.events := by
  fun_induction Input.fill context side comparator check input with
  | case1 input hdone => exact .refl hinput
  | case2 input hmore e cursor events hstep => exact h.advance hinput hstep
  | case3 input hmore cursor events hstep => exact h.advance hinput hstep
  | case4 input hmore row cursor events hstep htype e hcheck => exact h.advance hinput hstep
  | case5 input hmore row cursor events hstep htype hcheck => exact h.advance hinput hstep
  | case6 input hmore row cursor events hstep htype rest ih =>
    have hfirst := h.advance hinput hstep
    exact hfirst.trans (ih hfirst.1)

/-- How many rows a request was answered with. -/
def Call.returned {γ : Type} (call : Call γ (Option Row)) : Nat :=
  match call.result with
  | .ok (some _) => 1
  | _ => 0

namespace Intersection

variable {L R : Type}

/-- The ledger of both inputs. -/
def inputLedger (left : Cursor.Ledger L) (right : Cursor.Ledger R) :
    Cursor.Ledger (Intersection L R) where
  books m := left.books m.left.cursor ++ right.books m.right.cursor
  Good m := left.Good m.left.cursor ∧ right.Good m.right.cursor

/-- An intersection counts the rows that it has emitted.  While it is open, these are the rows that
had a partner and those that had none. -/
def account (left : Cursor.Ledger L) (right : Cursor.Ledger R) :
    Cursor.Account (Intersection L R) where
  kind := .intersection
  figure m := m.stats.emitted
  inputs := (inputLedger left right).books
  Good m :=
    (inputLedger left right).Good m ∧ m.lifecycle.Recording ∧
      (m.lifecycle.state.isOpen → m.stats.matched + m.stats.unmatchedEmitted = m.stats.emitted)

/-- What a part of a request has done that found this many rows. -/
structure Works (left : Cursor.Ledger L) (right : Cursor.Ledger R) (m after : Intersection L R)
    (events : List Event) (found : Nat) : Prop where
  tells : (inputLedger left right).Tells m after events
  lifecycle : after.lifecycle = m.lifecycle
  emitted : after.stats.emitted = m.stats.emitted
  counted : after.stats.matched + after.stats.unmatchedEmitted =
    m.stats.matched + m.stats.unmatchedEmitted + found

variable {left : Cursor.Ledger L} {right : Cursor.Ledger R} {m between after : Intersection L R}
  {events more : List Event}

theorem Works.trans {found others : Nat} (h : Works left right m between events found)
    (hmore : Works left right between after more others) :
    Works left right m after (events ++ more) (found + others) where
  tells := h.tells.trans hmore.tells
  lifecycle := hmore.lifecycle.trans h.lifecycle
  emitted := hmore.emitted.trans h.emitted
  counted := by rw [hmore.counted, h.counted, Nat.add_assoc]

/-- Using up rows leaves the cursors of the inputs alone. -/
theorem tells_take (hm : (inputLedger left right).Good m) (side : Side) :
    (inputLedger left right).Tells m (m.take side) [] := by
  have hsame : (m.take side).left.cursor = m.left.cursor ∧
      (m.take side).right.cursor = m.right.cursor := by
    cases side <;> simp [take]
  unfold Cursor.Ledger.Tells
  simp only [inputLedger, hsame]
  exact ⟨hm, .refl _⟩

/-- Nothing is done where events change no books. -/
theorem Works.of_passes (hm : (inputLedger left right).Good m)
    (h : ((inputLedger left right).books m).Passes ((inputLedger left right).books m) events) :
    Works left right m m events 0 :=
  ⟨⟨hm, h⟩, rfl, rfl, rfl⟩

theorem works_discard (hm : (inputLedger left right).Good m) (side : Side) :
    Works left right m (m.discard side) [] 0 where
  tells := tells_take hm side
  lifecycle := m.lifecycle_discard side
  emitted := rfl
  counted := rfl

theorem works_emit (hm : (inputLedger left right).Good m) (side : Side) (isMatch : Bool) :
    Works left right m (m.emit side isMatch) [] 1 where
  tells := by cases isMatch <;> exact tells_take hm side
  lifecycle := m.lifecycle_emit side isMatch
  emitted := by cases isMatch <;> rfl
  counted := by
    cases isMatch
    · rfl
    · exact Nat.succ_add _ _

/-- A closed intersection has no figure to keep. -/
theorem good_of_closed (hm : (inputLedger left right).Good m)
    (hclosed : m.lifecycle.state = .closed) : (account left right).Good m := by
  refine ⟨hm, .closed hclosed, fun hopen => ?_⟩
  rw [hclosed] at hopen
  exact absurd hopen Bool.false_ne_true

section

variable [Cursor L] [Cursor R]

/-- The merge is over. -/
theorem stays_of_works {ended : Intersection L R} (hm : (account left right).Good m)
    (hworks : Works left right m ended events 0) :
    (account left right).Good { ended with lifecycle := ended.lifecycle.drain } ∧
      (account left right).Stays m { ended with lifecycle := ended.lifecycle.drain } events := by
  obtain ⟨-, hrecording, hagrees⟩ := hm
  have hstate : ended.lifecycle.drain.state.isOpen = m.lifecycle.state.isOpen := by
    rw [Lifecycle.isOpen_drain, hworks.lifecycle]
  refine ⟨⟨hworks.tells.1, ?_, fun hopen => ?_⟩, hstate, fun _ => hworks.emitted, hworks.tells.2⟩
  · show ended.lifecycle.drain.Recording
    rw [hworks.lifecycle]
    exact hrecording.drain
  · show ended.stats.matched + ended.stats.unmatchedEmitted = ended.stats.emitted
    rw [hworks.counted, hworks.emitted, hagrees (hstate.symm.trans hopen), Nat.add_zero]

/-- A row was found, and is now counted as emitted. -/
theorem returns_of_works {merged : Intersection L R} (hm : (account left right).Good m)
    (hopen : m.lifecycle.state.isOpen) (hworks : Works left right m merged events 1) :
    let stats := { merged.stats with emitted := merged.stats.emitted + 1 }
    (account left right).Good { merged with stats } ∧
      (account left right).Returns m { merged with stats } events := by
  intro stats
  obtain ⟨-, hrecording, hagrees⟩ := hm
  have hlifecycle := hworks.lifecycle
  refine ⟨⟨hworks.tells.1, ?_, fun _ => ?_⟩, hopen, ?_, ?_, hworks.tells.2⟩
  · show merged.lifecycle.Recording
    rwa [hlifecycle]
  · show merged.stats.matched + merged.stats.unmatchedEmitted = merged.stats.emitted + 1
    rw [hworks.counted, hworks.emitted, hagrees hopen]
  · show merged.lifecycle.state.isOpen = true
    rwa [hlifecycle]
  · show merged.stats.emitted + 1 = m.stats.emitted + 1
    rw [hworks.emitted]

end

variable [Cursor L] [Cursor R] (hleft : left.Balances) (hright : right.Balances)
  {context : QueryContext}

include hleft hright

theorem works_fill (hm : (inputLedger left right).Good m) (context : QueryContext) :
    Works left right m (m.fill context).cursor (m.fill context).events 0 := by
  have hl := Input.tells_fill hleft context .left m.comparator m.checkOrder hm.1
  have hr := Input.tells_fill hright context .right m.comparator m.checkOrder hm.2
  unfold fill
  split
  · next hfill =>
    rw [hfill] at hl
    exact ⟨⟨⟨hl.1, hm.2⟩, hl.2.append_right _⟩, rfl, rfl, rfl⟩
  · next hfill =>
    rw [hfill] at hl
    split
    · next hfill =>
      rw [hfill] at hr
      exact ⟨⟨⟨hl.1, hr.1⟩, (hl.2.append_right _).trans (hr.2.append_left _)⟩, rfl, rfl, rfl⟩
    · next hfill =>
      rw [hfill] at hr
      exact ⟨⟨⟨hl.1, hr.1⟩, (hl.2.append_right _).trans (hr.2.append_left _)⟩, rfl, rfl, rfl⟩

theorem works_nextRow (hm : (inputLedger left right).Good m) (context : QueryContext) :
    Works left right m (m.nextRow context).cursor (m.nextRow context).events
      (m.nextRow context).returned := by
  have hfill {m filled : Intersection L R} {result : Except CursorError Unit}
      {events : List Event} (hm : (inputLedger left right).Good m)
      (h : m.fill context = ⟨result, filled, events⟩) : Works left right m filled events 0 := by
    have hfilled := works_fill hleft hright hm context
    rwa [h] at hfilled
  fun_induction Intersection.nextRow context m with
  | case1 m e filled events hstep => exact hfill hm hstep
  | case2 m filled events hstep e hverdict => exact hfill hm hstep
  | case3 m filled events hstep hverdict => exact hfill hm hstep
  | case4 m filled events hstep side isMatch hverdict =>
    have hfilled := hfill hm hstep
    have hemitted := hfilled.trans (works_emit hfilled.tells.1 side isMatch)
    obtain ⟨row, hhand⟩ := lookahead_of_emit hverdict
    rw [List.append_nil] at hemitted
    simpa [Call.returned, hhand] using hemitted
  | case5 m filled events hstep side hverdict rest ih =>
    have hfilled := hfill hm hstep
    have hdropped := hfilled.trans (works_discard hfilled.tells.1 side)
    have hall := hdropped.trans (ih hdropped.tells.1)
    rw [List.append_nil, Nat.zero_add] at hall
    exact hall

/-- The inputs are closed first, and then an open intersection reports what it has done. -/
theorem exists_of_close (hm : (inputLedger left right).Good m) :
    ∃ before, (inputLedger left right).Tells m m.close.1 before ∧
      m.close.2 = before ++ if m.lifecycle.state.isOpen then
        m.lifecycle.report
          [.intersectionFinished m.stats.matched m.stats.unmatchedEmitted m.stats.discarded,
            .cursorClosed .intersection m.stats.emitted]
      else [] := by
  have hl := hleft.close hm.1
  have hr := hright.close hm.2
  exact ⟨_, ⟨⟨hl.1, hr.1⟩, (hl.2.append_right _).trans (hr.2.append_left _)⟩, rfl⟩

/-- An open intersection that is closed after a part of a request tells its figure. -/
theorem closes_of_works {stopped : Intersection L R} (hm : (account left right).Good m)
    (hopen : m.lifecycle.state.isOpen) (hworks : Works left right m stopped events 0) :
    (account left right).Good stopped.close.1 ∧
      (account left right).Closes m stopped.close.1 (events ++ stopped.close.2) := by
  obtain ⟨-, hrecording, hagrees⟩ := hm
  have hcounted : stopped.stats.matched + stopped.stats.unmatchedEmitted = m.stats.emitted := by
    rw [hworks.counted, hagrees hopen, Nat.add_zero]
  obtain ⟨before, hclosed, hevents⟩ := exists_of_close hleft hright hworks.tells.1
  rw [hworks.lifecycle, if_pos hopen, Lifecycle.report_eq (hrecording hopen), hworks.emitted,
    ← hcounted] at hevents
  refine ⟨good_of_closed hclosed.1 rfl, hopen, rfl, events ++ before, _,
    by rw [hevents, List.append_assoc], ?_, (hworks.tells.trans hclosed).2⟩
  show Closing .intersection m.stats.emitted _
  rw [← hcounted]
  exact .intersection _ _ _

theorem advanced_of_fail {stopped : Intersection L R} (hm : (account left right).Good m)
    (hopen : m.lifecycle.state.isOpen) (hworks : Works left right m stopped events 0)
    (e : CursorError) :
    (account left right).Good (stopped.fail e events).cursor ∧
      (account left right).Advanced m (stopped.fail e events) := by
  have hrecords : stopped.lifecycle.recordMetrics := by
    rw [hworks.lifecycle]
    exact hm.2.1 hopen
  have hfailed := hworks.trans (.of_passes hworks.tells.1 (.failed .intersection (.refl _)))
  obtain ⟨hgood, hcloses⟩ := closes_of_works hleft hright hm hopen hfailed
  simp only [fail, Lifecycle.report_eq hrecords]
  exact ⟨hgood, .inr hcloses⟩

/-- An intersection that opens starts a new account, and one that does not open leaves no input
open. -/
theorem opened_of_openOn (stores : Stores) (hrecords : context.config.recordMetrics)
    (hm : (account left right).Good m) :
    (account left right).Good (m.openOn stores context).cursor ∧
      (account left right).Opened m (m.openOn stores context) := by
  unfold openOn
  split
  · exact ⟨hm, .refl (.refl _)⟩
  · next started hstart =>
    obtain ⟨⟨hl, hr⟩, -, -⟩ := hm
    have hrecording := Lifecycle.recordMetrics_of_start hrecords hstart
    obtain ⟨hclosed, hopen⟩ := Lifecycle.isOpen_of_start hstart
    have hidle {after : Intersection L R} (h : m.lifecycle.state.isOpen = true) :
        after.stats.emitted = m.stats.emitted :=
      absurd (hclosed.symm.trans h) Bool.false_ne_true
    dsimp only [Input.reset]
    split
    · next left leftEvents hopenLeft =>
      -- the left input did not open
      have htells := hleft.openOn hrecords hl hopenLeft
      exact ⟨good_of_closed ⟨htells.1, hr⟩ rfl, hclosed.symm, hidle, htells.2.append_right _⟩
    · next opened leftEvents hopenLeft =>
      have htells := hleft.openOn hrecords hl hopenLeft
      split
      · next right rightEvents hopenRight =>
        -- the right input did not open, and the left one was closed again
        have htellsRight := hright.openOn hrecords hr hopenRight
        have hreleased := hleft.close htells.1
        exact ⟨good_of_closed ⟨hreleased.1, htellsRight.1⟩ rfl, hclosed.symm, hidle,
          ((htells.2.append_right _).trans (htellsRight.2.append_left _)).trans
            (hreleased.2.append_right _)⟩
      · next right rightEvents hopenRight =>
        have htellsRight := hright.openOn hrecords hr hopenRight
        rw [Lifecycle.report_eq hrecording]
        exact ⟨⟨⟨htells.1, htellsRight.1⟩, fun _ => hrecording, fun _ => rfl⟩, hclosed, hopen,
          rfl, _, rfl, (htells.2.append_right _).trans (htellsRight.2.append_left _)⟩

/-- An intersection that is asked for a row counts the one it returns, and closes its account if it
fails. -/
theorem advanced_of_advance (hm : (account left right).Good m) (context : QueryContext) :
    (account left right).Good (m.advance context).cursor ∧
      (account left right).Advanced m (m.advance context) := by
  unfold advance
  split
  · exact ⟨hm, .inl (.refl (.refl _))⟩
  · next hgate =>
    have hopen := Lifecycle.isOpen_of_gate hgate
    split
    · exact advanced_of_fail hleft hright hm hopen
        (.of_passes hm.1 (context.passes_interruptionEvents _)) _
    · split
      · have hworks := works_nextRow hleft hright hm.1 context
        split
        · next hnext =>
          rw [hnext] at hworks
          exact advanced_of_fail hleft hright hm hopen hworks _
        · next ended _ hnext =>
          rw [hnext] at hworks
          exact stays_of_works hm hworks
        · next merged _ hnext =>
          rw [hnext] at hworks
          exact returns_of_works hm hopen hworks
      · exact ⟨hm, .refl (.refl _)⟩

/-- An intersection that is closed closes its account, once. -/
theorem closes_of_close (hm : (account left right).Good m) :
    (account left right).Good m.close.1 ∧
      ((account left right).Stays m m.close.1 m.close.2 ∨
        (account left right).Closes m m.close.1 m.close.2) := by
  by_cases hopen : m.lifecycle.state.isOpen
  · obtain ⟨hgood, hcloses⟩ :=
      closes_of_works hleft hright hm hopen (.of_passes hm.1 (.refl _))
    exact ⟨hgood, .inr hcloses⟩
  · obtain ⟨before, hclosed, hevents⟩ := exists_of_close hleft hright hm.1
    rw [if_neg hopen, List.append_nil] at hevents
    rw [Bool.not_eq_true] at hopen
    rw [hevents]
    exact ⟨good_of_closed hclosed.1 rfl, .inl ⟨hopen.symm, fun _ => rfl, hclosed.2⟩⟩

/-- An intersection keeps account if its inputs balance. -/
theorem kept : (account left right).Kept where
  openOn stores := opened_of_openOn hleft hright stores
  advance context _ hm := advanced_of_advance hleft hright hm context
  close hm := closes_of_close hleft hright hm

end Intersection

end TableGroups
