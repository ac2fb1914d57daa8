import Mathlib.Data.List.Basic
import TableGroups.Cursor.Scan
import TableGroups.Proofs.Cursor.Delivery
import TableGroups.Proofs.Cursor.Session
import TableGroups.Proofs.Index.Build

/-!
# Index scans return the covered entries

`KeyRange.covers` says which entries lie in a key range, bound by bound and without a search.  On a
slot in order the two searches of `IndexScan.window` cut out exactly the covered entries
(`window_eq`), although a bound compares only the leading columns and the entries are sorted by all.

An open scan keeps the entries still to come, so that nothing that happens to the stores changes
what it returns: in every session the rows returned so far and the entries still to come make up the
window (`Tracks.run`).

* `scan_serves_covered_entries`: every accepted scan returns the covered entries of the index as it
  was at opening, each once, in the order that was asked for.
-/

namespace TableGroups

/-! ### Key ranges without a search -/

namespace KeyBound

/-- Whether the bound, as a low end, admits an entry. -/
def admitsAbove (bound : KeyBound) (index : Index) (entry : List Value) : Bool :=
  match index.compareRows entry bound.values with
  | .lt => false
  | .eq => bound.inclusive
  | .gt => true

/-- Whether the bound, as a high end, admits an entry. -/
def admitsBelow (bound : KeyBound) (index : Index) (entry : List Value) : Bool :=
  match index.compareRows entry bound.values with
  | .lt => true
  | .eq => bound.inclusive
  | .gt => false

end KeyBound

namespace KeyRange

/-- Whether the low end, if there is one, admits an entry. -/
def startsBefore (range : KeyRange) (index : Index) (entry : List Value) : Bool :=
  range.low.all fun low => low.admitsAbove index entry

/-- Whether the high end, if there is one, admits an entry. -/
def stopsAfter (range : KeyRange) (index : Index) (entry : List Value) : Bool :=
  range.high.all fun high => high.admitsBelow index entry

/-- Whether an entry of an index lies in the range. -/
def covers (range : KeyRange) (index : Index) (entry : List Value) : Bool :=
  range.startsBefore index entry && range.stopsAfter index entry

end KeyRange

/-! ### The window -/

namespace IndexScan

variable {scan : IndexScan} {slot : IndexSnapshot}

/-- The entries before the range are the first ones, and the window starts behind them. -/
theorem windowStart_spec (h : slot.Ordered) (hindex : scan.index = slot.index) :
    Splits (fun entry => !scan.range.startsBefore slot.index entry) slot.entries ∧
      scan.windowStart slot =
        boundary (fun entry => !scan.range.startsBefore slot.index entry) slot.entries := by
  unfold windowStart
  cases hlow : scan.range.low with
  | none =>
    have htest : (fun entry => !scan.range.startsBefore slot.index entry) = fun _ => false := by
      funext entry
      simp [KeyRange.startsBefore, hlow]
    rw [htest]
    exact ⟨splits_const false _, by simp [boundary_eq_length_filter (splits_const false _)]⟩
  | some low =>
    obtain ⟨values, inclusive⟩ := low
    cases inclusive with
    | true =>
      have htest : (fun entry => !scan.range.startsBefore slot.index entry) =
          fun entry => slot.index.compareRows entry values == .lt := by
        funext entry
        cases hc : slot.index.compareRows entry values <;>
          simp [KeyRange.startsBefore, KeyBound.admitsAbove, hlow, hc]
      rw [htest]
      exact ⟨h.splits_lt values, by simp [IndexSnapshot.lowerBound, probe, hindex]⟩
    | false =>
      have htest : (fun entry => !scan.range.startsBefore slot.index entry) =
          fun entry => slot.index.compareRows entry values != .gt := by
        funext entry
        cases hc : slot.index.compareRows entry values <;>
          simp [KeyRange.startsBefore, KeyBound.admitsAbove, hlow, hc]
      rw [htest]
      exact ⟨h.splits_isLE values, by simp [IndexSnapshot.upperBound, probe, hindex]⟩

/-- The entries up to the end of the range are the first ones, and the window stops behind them. -/
theorem windowStop_spec (h : slot.Ordered) (hindex : scan.index = slot.index) :
    Splits (fun entry => scan.range.stopsAfter slot.index entry) slot.entries ∧
      scan.windowStop slot =
        boundary (fun entry => scan.range.stopsAfter slot.index entry) slot.entries := by
  unfold windowStop
  cases hhigh : scan.range.high with
  | none =>
    have htest : (fun entry => scan.range.stopsAfter slot.index entry) = fun _ => true := by
      funext entry
      simp [KeyRange.stopsAfter, hhigh]
    rw [htest]
    exact ⟨splits_const true _, by simp [boundary_eq_length_filter (splits_const true _)]⟩
  | some high =>
    obtain ⟨values, inclusive⟩ := high
    cases inclusive with
    | true =>
      have htest : (fun entry => scan.range.stopsAfter slot.index entry) =
          fun entry => slot.index.compareRows entry values != .gt := by
        funext entry
        cases hc : slot.index.compareRows entry values <;>
          simp [KeyRange.stopsAfter, KeyBound.admitsBelow, hhigh, hc]
      rw [htest]
      exact ⟨h.splits_isLE values, by simp [IndexSnapshot.upperBound, probe, hindex]⟩
    | false =>
      have htest : (fun entry => scan.range.stopsAfter slot.index entry) =
          fun entry => slot.index.compareRows entry values == .lt := by
        funext entry
        cases hc : slot.index.compareRows entry values <;>
          simp [KeyRange.stopsAfter, KeyBound.admitsBelow, hhigh, hc]
      rw [htest]
      exact ⟨h.splits_lt values, by simp [IndexSnapshot.lowerBound, probe, hindex]⟩

/-- The window holds the covered entries, in the direction in which the scan runs. -/
theorem window_eq (h : slot.Ordered) (hindex : scan.index = slot.index) :
    scan.window slot =
      if scan.backward then (slot.entries.filter (scan.range.covers slot.index)).reverse
      else slot.entries.filter (scan.range.covers slot.index) := by
  obtain ⟨hstart, hstart_eq⟩ := windowStart_spec h hindex
  obtain ⟨hstop, hstop_eq⟩ := windowStop_spec h hindex
  have hcut : (slot.entries.take (scan.windowStop slot)).drop (scan.windowStart slot) =
      slot.entries.filter (scan.range.covers slot.index) := by
    rw [hstart_eq, hstop_eq, boundary_eq_length_filter hstart, boundary_eq_length_filter hstop,
      drop_take_of_splits hstart hstop]
    simp only [Bool.not_not]
    rfl
  rw [window, hcut]

/-! ### One request for a row -/

section Advance

variable {context : QueryContext}

theorem advance_interrupted {reason : Interruption} (hopen : scan.lifecycle.state ≠ .closed)
    (hstop : context.interruption? = some reason) :
    Cursor.advance context scan =
      ⟨.error (.interrupted reason), scan, context.interruptionEvents⟩ := by
  show scan.advance context = _
  unfold advance Lifecycle.gate
  cases hstate : scan.lifecycle.state <;> simp_all

theorem advance_entry {entry : List Value} {rest : List (List Value)}
    (hactive : scan.lifecycle.state = .active) (hgo : context.interruption? = none)
    (hpending : scan.pending = entry :: rest) :
    Cursor.advance context scan =
      ⟨.ok (some ⟨scan.rowType, entry⟩),
        { scan with pending := rest, scanned := scan.scanned + 1 }, []⟩ := by
  show scan.advance context = _
  simp [advance, Lifecycle.gate, hactive, hgo, hpending]

theorem advance_end (hactive : scan.lifecycle.state = .active)
    (hgo : context.interruption? = none) (hpending : scan.pending = []) :
    Cursor.advance context scan =
      ⟨.ok none, { scan with lifecycle := scan.lifecycle.drain }, []⟩ := by
  show scan.advance context = _
  simp [advance, Lifecycle.gate, hactive, hgo, hpending]

theorem advance_drained (hdrained : scan.lifecycle.state = .drained)
    (hgo : context.interruption? = none) :
    Cursor.advance context scan = ⟨.ok none, scan, []⟩ := by
  show scan.advance context = _
  simp [advance, Lifecycle.gate, hdrained, hgo]

/-- An open scan delivers the entries still to come. -/
theorem delivers (hactive : scan.lifecycle.state = .active) (hgo : context.interruption? = none) :
    Cursor.Delivers context scan (scan.pending.map (Row.mk scan.rowType)) none := by
  generalize hpending : scan.pending = entries
  induction entries generalizing scan with
  | nil => exact .ended (advance_end hactive hgo hpending)
  | cons entry rest ih =>
    refine .returned (advance_entry hactive hgo hpending) ?_
    have hstate : { scan with pending := rest, scanned := scan.scanned + 1 }.lifecycle.state =
        .active := hactive
    exact ih hstate rfl

end Advance

/-! ### A session with an open scan -/

/-- The rows returned so far and the entries still to come are `rows`; the cursor has said that
there are no more only when none are to come, and every request so far was answered. -/
def Tracks (rows : List Row) (requests : Nat) (session : Session IndexScan) : Prop :=
  (session.cursor.lifecycle.state = .active ∧
      session.rows ++ session.cursor.pending.map (Row.mk session.cursor.rowType) = rows ∧
      session.rows.length = requests ∧ ¬ session.Ended) ∨
    (session.cursor.lifecycle.state = .drained ∧ session.rows = rows ∧ session.Ended)

variable {rows : List Row} {requests : Nat} {session : Session IndexScan}

/-- Changes of the stores do not show, and requests move the next entry to the rows returned. -/
theorem Tracks.step (h : Tracks rows requests session) (step : SessionStep) :
    Tracks rows (requests + if step.isRequest then 1 else 0) (session.step step) := by
  cases step with
  | change store call => exact h
  | advance context =>
    cases hstop : context.interruption? with
    | some reason =>
      -- the request fails and changes nothing
      have hopen : session.cursor.lifecycle.state ≠ .closed := by
        rcases h with ⟨hstate, _⟩ | ⟨hstate, _⟩ <;> simp [hstate]
      have hstep := advance_interrupted hopen hstop
      unfold Tracks at h ⊢
      simpa [Session.ended_step_advance, hstep, SessionStep.isRequest, hstop, Except.toOption]
        using h
    | none =>
      rcases h with ⟨hactive, hrows, hcount, hended⟩ | ⟨hdrained, hrows, hended⟩
      · cases hpending : session.cursor.pending with
        | nil =>
          have hstep := advance_end hactive hstop hpending
          refine Or.inr ⟨?_, ?_, ?_⟩
          · simp [hstep, Lifecycle.drain, hactive, CursorState.isActive]
          · simpa [hstep, Except.toOption, hpending] using hrows
          · simp [Session.ended_step_advance, hstep]
        | cons entry rest =>
          have hstep := advance_entry hactive hstop hpending
          refine Or.inl ⟨?_, ?_, ?_, ?_⟩
          · simpa [hstep] using hactive
          · rw [hpending] at hrows
            simpa [hstep, Except.toOption, rowType] using hrows
          · simp [hstep, Except.toOption, hcount, SessionStep.isRequest, hstop]
          · simpa [Session.ended_step_advance, hstep] using hended
      · have hstep := advance_drained hdrained hstop
        refine Or.inr ⟨?_, ?_, ?_⟩
        · simpa [hstep] using hdrained
        · simpa [hstep, Except.toOption] using hrows
        · exact (Session.ended_step_advance _ _).mpr (Or.inl hended)

theorem Tracks.run (h : Tracks rows requests session) (steps : List SessionStep) :
    Tracks rows (requests + steps.countP (·.isRequest)) (session.run steps) := by
  induction steps generalizing requests session with
  | nil => exact h
  | cons step rest ih =>
    have hrest := ih (h.step step)
    rw [Nat.add_assoc] at hrest
    rw [List.countP_cons, Nat.add_comm (rest.countP _)]
    exact hrest

/-- Opening a closed scan takes the window of its slot. -/
theorem openOn_closed {stores : Stores} (context : QueryContext)
    (hclosed : scan.lifecycle.state = .closed)
    (hslot : (stores scan.store).snapshot scan.index.name = .ok slot) :
    ∃ events, Cursor.openOn stores context scan =
      ⟨.ok (), { scan with
        pending := scan.window slot
        scanned := 0
        lifecycle := ⟨.active, context.config.recordMetrics⟩ }, events⟩ := by
  refine ⟨Lifecycle.report ⟨.active, context.config.recordMetrics⟩ [.cursorOpened .indexScan], ?_⟩
  show scan.openOn stores context = _
  simp [openOn, Lifecycle.start, hclosed, CursorState.isOpen, hslot]

/-- A closed scan of a slot is the stream of the window of the slot. -/
theorem streams_window {stores : Stores} {context : QueryContext}
    (hclosed : scan.lifecycle.state = .closed)
    (hslot : (stores scan.store).snapshot scan.index.name = .ok slot)
    (hgo : context.interruption? = none) :
    Cursor.Streams stores context scan ((scan.window slot).map (Row.mk scan.rowType)) none := by
  obtain ⟨events, hopen⟩ := openOn_closed context hclosed hslot
  exact ⟨_, events, hopen, delivers rfl hgo⟩

/-- A scan that is opened on a slot serves the window of the slot. -/
theorem serves_window {stores : Stores} (context : QueryContext)
    (hclosed : scan.lifecycle.state = .closed)
    (hslot : (stores scan.store).snapshot scan.index.name = .ok slot) :
    Cursor.Serves stores context scan ((scan.window slot).map (Row.mk scan.rowType)) := by
  obtain ⟨events, hopen⟩ := openOn_closed context hclosed hslot
  refine ⟨_, events, hopen, fun steps => ?_⟩
  have hstart : Tracks ((scan.window slot).map (Row.mk scan.rowType)) 0
      ⟨stores, { scan with
        pending := scan.window slot
        scanned := 0
        lifecycle := ⟨.active, context.config.recordMetrics⟩ }, []⟩ :=
    Or.inl ⟨rfl, rfl, rfl, by simp [Session.Ended]⟩
  have hrun := hstart.run steps
  rw [Nat.zero_add] at hrun
  rcases hrun with ⟨_, hrows, hcount, hended⟩ | ⟨_, hrows, hended⟩
  · refine ⟨⟨_, hrows⟩, fun h => absurd h hended, fun hlt => ?_⟩
    -- no more rows were returned than there are, and every request was answered with one
    have hlen := congrArg List.length hrows
    rw [List.length_append] at hlen
    omega
  · exact ⟨hrows ▸ List.prefix_rfl, fun _ => hrows, fun _ => hended⟩

end IndexScan

/-! ### Planning -/

namespace RowOrdering

/-- Whether an ordering asks for the declared directions of as many trailing columns as it has
fields; the empty ordering does. -/
def Repeats (ordering : RowOrdering) (index : Index) : Prop :=
  ordering.directions = index.directions.drop (index.width - ordering.length)

instance (ordering : RowOrdering) (index : Index) : Decidable (ordering.Repeats index) :=
  inferInstanceAs (Decidable (_ = _))

/-- Whether an ordering asks for the reverse of every one of them, and for at least one. -/
def Flips (ordering : RowOrdering) (index : Index) : Prop :=
  ordering ≠ [] ∧ ordering.directions =
    (index.directions.drop (index.width - ordering.length)).map Direction.reverse

/-- Whether an ordering names the trailing columns in order, all columns before them being pinned
by the range. -/
def Trails (ordering : RowOrdering) (index : Index) (range : KeyRange) : Prop :=
  ordering.length ≤ index.width ∧
    ordering.map (·.position) =
      List.range' (index.width - ordering.length) ordering.length ∧
    index.width - ordering.length ≤ range.equalityPrefix

variable {ordering : RowOrdering} {index : Index} {range : KeyRange}

@[simp] theorem length_reversed (ordering : RowOrdering) :
    ordering.reversed.length = ordering.length := by
  simp [reversed]

@[simp] theorem directions_reversed (ordering : RowOrdering) :
    ordering.reversed.directions = ordering.directions.map Direction.reverse := by
  simp [reversed, directions]

@[simp] theorem reversed_ne_nil : ordering.reversed ≠ [] ↔ ordering ≠ [] := by
  simp [reversed]

theorem map_reverse_map_reverse (directions : List Direction) :
    (directions.map Direction.reverse).map Direction.reverse = directions := by
  simp [Function.comp_def]

theorem Trails.reversed (h : ordering.Trails index range) :
    ordering.reversed.Trails index range := by
  obtain ⟨hlen, hpositions, hprefix⟩ := h
  rw [Trails, length_reversed]
  refine ⟨hlen, ?_, hprefix⟩
  rw [← hpositions, RowOrdering.reversed, List.map_map]
  rfl

theorem Repeats.flips_reversed (h : ordering.Repeats index) (hne : ordering ≠ []) :
    ordering.reversed.Flips index := by
  refine ⟨reversed_ne_nil.mpr hne, ?_⟩
  rw [directions_reversed, length_reversed, h]

theorem Flips.repeats_reversed (h : ordering.Flips index) : ordering.reversed.Repeats index := by
  rw [Repeats, directions_reversed, length_reversed, h.2, map_reverse_map_reverse]

/-- No ordering asks for the declared directions and for their reverses. -/
theorem Flips.not_repeats (h : ordering.Flips index) : ¬ ordering.Repeats index := by
  intro hrep
  have heq : ordering.directions.map Direction.reverse = ordering.directions := by
    conv_rhs => rw [h.2]
    rw [hrep]
  obtain ⟨field, rest, hcons⟩ := List.exists_cons_of_ne_nil h.1
  rw [hcons, directions, List.map_cons, List.map_cons, List.cons.injEq] at heq
  cases hd : field.direction <;> simp [hd, Direction.reverse] at heq

end RowOrdering

namespace Index

variable {index : Index} {range : KeyRange} {ordering : RowOrdering} {backward : Bool}

theorem scansBackward_nil : index.scansBackward range [] = .ok false := rfl

/-- An ordering is accepted if it names trailing columns and asks for their declared directions, to
scan forward, or for the reverses, to scan backward. -/
theorem scansBackward_eq_ok_iff (hne : ordering ≠ []) :
    index.scansBackward range ordering = .ok backward ↔
      ordering.Trails index range ∧
        (backward = false ∧ ordering.Repeats index ∨ backward = true ∧ ordering.Flips index) := by
  have hempty : ¬ List.isEmpty ordering = true := by simpa using hne
  unfold scansBackward
  dsimp only
  rw [if_neg hempty]
  constructor
  · intro h
    split_ifs at h with hwide hpositions hbound hsame hflip
    all_goals refine ⟨⟨by omega, not_not.mp hpositions, by omega⟩, ?_⟩
    · exact Or.inl ⟨(Except.ok.inj h).symm, hsame⟩
    · exact Or.inr ⟨(Except.ok.inj h).symm, hne, hflip⟩
  · rintro ⟨⟨hlen, hpositions, hprefix⟩, hdirections⟩
    rw [if_neg (by omega), if_neg (not_not.mpr hpositions), if_neg (by omega)]
    rcases hdirections with ⟨rfl, hrep⟩ | ⟨rfl, hflip⟩
    · exact if_pos hrep
    · exact (if_neg hflip.not_repeats).trans (if_pos hflip.2)

/-- The reversed ordering is accepted too, and the scan runs the other way. -/
theorem scansBackward_reversed (hne : ordering ≠ [])
    (h : index.scansBackward range ordering = .ok backward) :
    index.scansBackward range ordering.reversed = .ok !backward := by
  obtain ⟨htrails, hdirections⟩ := (scansBackward_eq_ok_iff hne).mp h
  refine (scansBackward_eq_ok_iff (RowOrdering.reversed_ne_nil.mpr hne)).mpr
    ⟨htrails.reversed, ?_⟩
  rcases hdirections with ⟨rfl, hrep⟩ | ⟨rfl, hflip⟩
  · exact Or.inr ⟨rfl, hrep.flips_reversed hne⟩
  · exact Or.inl ⟨rfl, hflip.repeats_reversed⟩

/-- A scan runs forward exactly if its ordering asks for the declared directions, as the empty one
does, and otherwise the ordering flips them. -/
theorem scansBackward_ok (h : index.scansBackward range ordering = .ok backward) :
    backward = false ∧ ordering.Repeats index ∨ backward = true ∧ ordering.Flips index := by
  by_cases hne : ordering = []
  · subst hne
    rw [scansBackward_nil] at h
    exact Or.inl ⟨(Except.ok.inj h).symm, by simp [RowOrdering.Repeats, RowOrdering.directions]⟩
  · exact ((scansBackward_eq_ok_iff hne).mp h).2

end Index

namespace IndexScan

variable {id : StoreId} {index : Index} {range : KeyRange} {ordering : RowOrdering}
  {scan : IndexScan}

/-- A scan is planned if its range and its ordering are accepted. -/
theorem plan_eq_ok_iff :
    plan id index range ordering = .ok scan ↔
      index.checkRange range = .ok () ∧ ∃ backward,
        index.scansBackward range ordering = .ok backward ∧
          scan = ⟨id, index, range, backward, [], 0, .initial⟩ := by
  unfold plan
  cases hrange : index.checkRange range with
  | error e => simp [bind, Except.bind]
  | ok _ =>
    cases hback : index.scansBackward range ordering with
    | error e => simp [bind, Except.bind]
    | ok backward => simp [bind, Except.bind, pure, Except.pure, eq_comm]

/-- The entries of a slot that a scan of a range in an ordering is to return, in the order in which
it is to return them. -/
def due (slot : IndexSnapshot) (range : KeyRange) (ordering : RowOrdering) : List (List Value) :=
  if ordering.Repeats slot.index then slot.entries.filter (range.covers slot.index)
  else (slot.entries.filter (range.covers slot.index)).reverse

/-- A planned scan of a slot in order serves the entries that it is to return. -/
theorem serves_due {stores : Stores} {slot : IndexSnapshot} (context : QueryContext)
    (hslot : (stores id).snapshot slot.index.name = .ok slot) (hordered : slot.Ordered)
    (hplan : plan id slot.index range ordering = .ok scan) :
    Cursor.Serves stores context scan
      ((due slot range ordering).map (Row.mk (.ofIndex slot.index))) := by
  obtain ⟨_, backward, hback, rfl⟩ := plan_eq_ok_iff.mp hplan
  have hserves := @serves_window ⟨id, slot.index, range, backward, [], 0, .initial⟩ slot stores
    context rfl hslot
  rw [window_eq hordered rfl] at hserves
  rcases Index.scansBackward_ok hback with ⟨rfl, hrep⟩ | ⟨rfl, hflip⟩
  · rw [due, if_pos hrep]
    exact hserves
  · rw [due, if_neg hflip.not_repeats]
    exact hserves

/-- **Index scans are exact.**  Take an index of a store after any calls, and a scan of it that is
accepted.  Its ordering repeats the declared directions or flips them all.  Whatever is done to the
stores while the scan is open, it returns the entries that the index had when it was opened and that
lie in the range, each once: in index order if the ordering repeats the directions, as the empty one
does, and in the reverse of index order if it flips them.  The reverse of an ordering that is not
empty is accepted too, and gives the reverse. -/
theorem scan_serves_covered_entries {calls : List StoreCall} {stores : Stores} {name : IndexName}
    {slot : IndexSnapshot} (context : QueryContext) (hstore : stores id = IndexStore.run calls)
    (hslot : (stores id).snapshot name = .ok slot)
    (hplan : plan id slot.index range ordering = .ok scan) :
    (ordering.Repeats slot.index ∨ ordering.Flips slot.index) ∧
      Cursor.Serves stores context scan
        ((due slot range ordering).map (Row.mk (.ofIndex slot.index))) ∧
      (ordering ≠ [] → ∃ turned, plan id slot.index range ordering.reversed = .ok turned ∧
        Cursor.Serves stores context turned
          ((due slot range ordering).reverse.map (Row.mk (.ofIndex slot.index)))) := by
  have hsound := IndexStore.sound_run calls
  rw [← hstore] at hsound
  obtain ⟨hname, hordered⟩ := hsound.of_snapshot hslot
  rw [← hname] at hslot
  obtain ⟨hrange, backward, hback, -⟩ := plan_eq_ok_iff.mp hplan
  have hdirections := Index.scansBackward_ok hback
  refine ⟨hdirections.imp And.right And.right, serves_due context hslot hordered hplan,
    fun hne => ?_⟩
  have hturned : plan id slot.index range ordering.reversed =
      .ok ⟨id, slot.index, range, !backward, [], 0, .initial⟩ :=
    plan_eq_ok_iff.mpr ⟨hrange, _, Index.scansBackward_reversed hne hback, rfl⟩
  refine ⟨_, hturned, ?_⟩
  have hdue : (due slot range ordering).reverse = due slot range ordering.reversed := by
    unfold due
    rcases hdirections with ⟨-, hrep⟩ | ⟨-, hflip⟩
    · rw [if_pos hrep, if_neg (hrep.flips_reversed hne).not_repeats]
    · rw [if_neg hflip.not_repeats, if_pos hflip.repeats_reversed, List.reverse_reverse]
  rw [hdue]
  exact serves_due context hslot hordered hturned

/-- Lines of sales at four prices, one of them dropped with an earlier index of the same name. -/
def sampleCalls : List StoreCall :=
  [.register .linesByPrice,
    .insertIndexRow Index.linesByPrice.name [.int 120, .int 3, .int 10, .int 70, .int 1],
    .drop Index.linesByPrice.name,
    .register .linesByPrice,
    .insertIndexRow Index.linesByPrice.name [.int 90, .int 3, .int 10, .int 77, .int 1],
    .insertTableRow .lines [.int 2, .int 250, .int 77, .int 3, .int 10],
    .insertTableRow .lines [.int 3, .int 100, .int 77, .int 3, .int 10],
    .insertTableRow .lines [.int 1, .int 250, .int 78, .int 3, .int 10]]

/-- The prices from 250 down to above 90. -/
def sampleRange : KeyRange :=
  ⟨some ⟨[.int 250], true⟩, some ⟨[.int 90], false⟩⟩

/-- From the lowest price up, that is, every column the other way round. -/
def sampleOrdering : RowOrdering :=
  [⟨0, .asc⟩, ⟨1, .desc⟩, ⟨2, .desc⟩, ⟨3, .desc⟩, ⟨4, .desc⟩]

/-- Three of four lines lie in the range, and the cheapest comes first. -/
theorem scan_serves_sample :
    ∃ scan, plan 0 .linesByPrice sampleRange sampleOrdering = .ok scan ∧
      Cursor.Serves (fun _ => IndexStore.run sampleCalls) .standard scan
        ([[.int 100, .int 3, .int 10, .int 77, .int 3],
          [.int 250, .int 3, .int 10, .int 78, .int 1],
          [.int 250, .int 3, .int 10, .int 77, .int 2]].map (Row.mk (.ofIndex .linesByPrice))) := by
  have hslot : (IndexStore.run sampleCalls).snapshot Index.linesByPrice.name =
      .ok ⟨.linesByPrice,
        [[.int 250, .int 3, .int 10, .int 77, .int 2], [.int 250, .int 3, .int 10, .int 78, .int 1],
          [.int 100, .int 3, .int 10, .int 77, .int 3],
          [.int 90, .int 3, .int 10, .int 77, .int 1]]⟩ := by
    decide +kernel
  have hplan : plan 0 .linesByPrice sampleRange sampleOrdering =
      .ok ⟨0, .linesByPrice, sampleRange, true, [], 0, .initial⟩ := by
    decide +kernel
  exact ⟨_, hplan, (@scan_serves_covered_entries 0 sampleRange sampleOrdering _ sampleCalls
    (fun _ => IndexStore.run sampleCalls) _ _ .standard rfl hslot hplan).2.1⟩

end IndexScan

end TableGroups
