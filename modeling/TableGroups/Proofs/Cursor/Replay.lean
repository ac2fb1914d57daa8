import TableGroups.Proofs.Cursor.Unison

/-!
# A tree is as good as its rows

Take a tree whose rows could be collected.  Whoever opens it, asks it for rows and closes it, in any
order, is replied what a cursor over the collected rows would reply
(`CursorShape.replies_eq_ofRows`).  Nothing of an earlier pass shows in a later one.

The reason is that a cursor is the cursor that was planned and what has happened to it, and that
opening forgets the second part (`Cursor.Rewinds`).  The rows in hand of an intersection, the place
in the rows and the window of a scan are all set anew.  So a tree opens to the same tree each time,
and an open one has rows to come that are an end of the collected ones (`Cursor.StandsAt`).
-/

namespace TableGroups

/-! ### What opening forgets -/

/-- Calls leave the cursor that was planned, and how a closed cursor opens depends on that alone.
`planned` gives the cursor as it was planned, and `AllClosed` says that it is closed with all that
it reads from. -/
structure Cursor.Rewinds {γ : Type} [Cursor γ] (planned : γ → γ) (AllClosed : γ → Prop) :
    Prop where
  planned_openOn {stores : Stores} {context : QueryContext} {c opened : γ} {events : List Event} :
    openOn stores context c = ⟨.ok (), opened, events⟩ → planned opened = planned c
  planned_advance {context : QueryContext} {c after : γ} {answer : Option Row}
    {events : List Event} :
    advance context c = ⟨.ok answer, after, events⟩ → planned after = planned c
  planned_close (c : γ) : planned (close c).1 = planned c
  openOn_congr {stores : Stores} {context : QueryContext} {c other opened : γ}
    {events : List Event} :
    AllClosed c → AllClosed other → planned other = planned c →
      openOn stores context c = ⟨.ok (), opened, events⟩ →
        ∃ events, openOn stores context other = ⟨.ok (), opened, events⟩

namespace RowsCursor

/-- The cursor as it was planned. -/
def planned (c : RowsCursor) : RowsCursor :=
  ofRows c.rowType c.rows

theorem rewinds :
    Cursor.Rewinds planned (fun c : RowsCursor => c.lifecycle.state = .closed) where
  planned_openOn h := by
    rw [eq_of_openOn h]
    rfl
  planned_advance h := by
    obtain ⟨_, _, rfl, -⟩ := exists_of_advance h
    rfl
  planned_close c := by
    show (RowsCursor.close c).1.planned = c.planned
    unfold close
    split <;> rfl
  openOn_congr {stores context c other opened events} _ hclosed hplanned h := by
    have hsame : other.rowType = c.rowType ∧ other.rows = c.rows := by
      simpa [planned, ofRows] using hplanned
    obtain ⟨events', hopen⟩ := openOn_closed stores context hclosed
    refine ⟨events', hopen.trans ?_⟩
    rw [eq_of_openOn h, hsame.1, hsame.2]

end RowsCursor

namespace IndexScan

/-- The scan as it was planned. -/
def planned (scan : IndexScan) : IndexScan :=
  { scan with pending := [], scanned := 0, lifecycle := .initial }

theorem rewinds :
    Cursor.Rewinds planned (fun scan : IndexScan => scan.lifecycle.state = .closed) where
  planned_openOn h := by
    obtain ⟨_, _, rfl⟩ := exists_of_openOn h
    rfl
  planned_advance h := by
    obtain ⟨_, _, _, rfl, -⟩ := exists_of_advance h
    rfl
  planned_close scan := by
    show scan.close.1.planned = scan.planned
    unfold close
    split <;> rfl
  openOn_congr {stores context scan other opened events} _ hclosed hplanned h := by
    obtain ⟨slot, hslot, rfl⟩ := exists_of_openOn h
    have hsame : other =
        { scan with
          pending := other.pending, scanned := other.scanned, lifecycle := other.lifecycle } := by
      cases other
      simp only [planned, mk.injEq] at hplanned
      obtain ⟨rfl, rfl, rfl, rfl, -⟩ := hplanned
      rfl
    -- the window is laid over the slot that the store has now, not over an earlier one
    rw [hsame] at hclosed ⊢
    exact openOn_closed context hclosed hslot

end IndexScan

namespace Input

variable {γ : Type} {f : γ → γ} {input filled : Input γ}

/-- The input as it was planned, given its cursor as it was planned. -/
def planned (f : γ → γ) (input : Input γ) : Input γ :=
  .fresh (f input.cursor) input.rowType input.offset

@[simp] theorem planned_take : input.take.planned f = input.planned f := by
  unfold Input.take
  split <;> rfl

theorem planned_of_fill [Cursor γ] {context : QueryContext} {side : Side}
    {comparator : KeyComparator} {check : Bool} {passed : Nat} {events : List Event}
    (hf : ∀ {context : QueryContext} {c after : γ} {answer : Option Row} {events : List Event},
      Cursor.advance context c = ⟨.ok answer, after, events⟩ → f after = f c)
    (hfill : input.fill context side comparator check = ⟨.ok passed, filled, events⟩) :
    filled.planned f = input.planned f := by
  have hcursor : f filled.cursor = f input.cursor :=
    cursor_of_fill (P := fun c => f c = f input.cursor) (fun hstep h => (hf hstep).trans h) rfl
      hfill
  obtain ⟨cursor, _, _, hsame⟩ := input.exists_fill_eq context side comparator check
  rw [hfill] at hsame
  dsimp only at hsame
  rw [planned, hcursor, hsame]
  rfl

end Input

namespace Intersection

variable {L R : Type} {f : L → L} {g : R → R}

/-- The intersection as it was planned, given its inputs as they were planned. -/
def planned (f : L → L) (g : R → R) (m : Intersection L R) : Intersection L R :=
  { m with
    left := m.left.planned f
    right := m.right.planned g
    checkOrder := true
    stats := .zero
    lifecycle := .initial }

@[simp] theorem planned_take (m : Intersection L R) (side : Side) :
    (m.take side).planned f g = m.planned f g := by
  cases side <;> simp [take, planned]

@[simp] theorem planned_discard (m : Intersection L R) (side : Side) :
    (m.discard side).planned f g = m.planned f g :=
  m.planned_take side

@[simp] theorem planned_emit (m : Intersection L R) (side : Side) (isMatch : Bool) :
    (m.emit side isMatch).planned f g = m.planned f g := by
  cases isMatch <;> exact m.planned_take side

variable [Cursor L] [Cursor R] {leftClosed : L → Prop} {rightClosed : R → Prop}

theorem rewinds (hleft : Cursor.Rewinds f leftClosed) (hright : Cursor.Rewinds g rightClosed) :
    Cursor.Rewinds (planned f g) (fun m : Intersection L R =>
      m.lifecycle.state = .closed ∧ leftClosed m.left.cursor ∧ rightClosed m.right.cursor) where
  planned_openOn h := by
    obtain ⟨_, _, _, _, hopenLeft, hopenRight, rfl⟩ := exists_of_openOn h
    simp only [planned, Input.planned, hleft.planned_openOn hopenLeft,
      hright.planned_openOn hopenRight]
    rfl
  planned_advance {context m after answer events} h := by
    rcases exists_of_advance h with ⟨-, -, rfl⟩ | ⟨-, asked, _, hasked, rfl, -⟩
    · rfl
    · -- the merge reads from its inputs and uses up what is in hand, and neither was planned
      show asked.planned f g = m.planned f g
      refine @of_nextRow L R _ _ context m _ (fun last => last.planned f g = m.planned f g) _ _
        (fun last filled _ hlast hfill => ?_) (fun last side hlast => ?_)
        (fun last side isMatch hlast => ?_) rfl hasked
      · obtain ⟨_, _, _, _, hl, hr, hfilled⟩ := exists_of_fill hfill
        rw [← hlast, hfilled]
        simp only [planned, Input.planned_of_fill hleft.planned_advance hl,
          Input.planned_of_fill hright.planned_advance hr]
      · rw [planned_discard, hlast]
      · rw [planned_emit, hlast]
  planned_close m := by
    show m.close.1.planned f g = m.planned f g
    simp only [close, planned, Input.planned, hleft.planned_close, hright.planned_close]
  openOn_congr {stores context m other opened events} hm hother hplanned h := by
    obtain ⟨hclosed, hl, hr⟩ := hm
    obtain ⟨hclosed', hl', hr'⟩ := hother
    obtain ⟨left, right, _, _, hopenLeft, hopenRight, rfl⟩ := exists_of_openOn h
    simp only [planned, Input.planned, Input.fresh, mk.injEq, Input.mk.injEq] at hplanned
    obtain ⟨⟨hfl, htl, hol, -⟩, ⟨hfr, htr, hor, -⟩, hcomparator, hjoin, houtput, -⟩ := hplanned
    obtain ⟨_, hleftOpens⟩ := hleft.openOn_congr hl hl' hfl hopenLeft
    obtain ⟨_, hrightOpens⟩ := hright.openOn_congr hr hr' hfr hopenRight
    obtain ⟨events', hopen⟩ := openOn_of_inputs hclosed' hleftOpens hrightOpens
    refine ⟨events', hopen.trans ?_⟩
    -- the rows in hand, the order check and the figures of the last pass are all set anew
    simp only [Input.reset, htl, hol, htr, hor, hcomparator, hjoin, houtput]

end Intersection

/-! ### Beside a cursor over the rows -/

namespace Cursor

variable {γ : Type} [Cursor γ] {planned : γ → γ} {AllClosed AllOpen : γ → Prop} {stores : Stores}
  {context : QueryContext} {rows : List Row} {c : γ} {materialized : RowsCursor}

/-- A cursor stands where a cursor over `rows` stands.  They are in the same state, active ones have
the same rows to come, and whatever was planned like the cursor streams the rows. -/
structure StandsAt (planned : γ → γ) (AllClosed : γ → Prop) (stores : Stores)
    (context : QueryContext) (rows : List Row) (c : γ) (materialized : RowsCursor) : Prop where
  given : materialized.rows = rows
  state : Cursor.state c = materialized.lifecycle.state
  closed : Cursor.state c = .closed → AllClosed c
  active : Cursor.state c = .active →
    Delivers context c (rows.drop materialized.position) none
  again {other : γ} : AllClosed other → planned other = planned c →
    Streams stores context other rows none

/-- After a call on each, the one stands where the other stands, and the replies show the same. -/
def AnswersAlike (planned : γ → γ) (AllClosed : γ → Prop) (stores : Stores)
    (context : QueryContext) (rows : List Row) (done : Call γ CursorAnswer)
    (shown : Call RowsCursor CursorAnswer) : Prop :=
  StandsAt planned AllClosed stores context rows done.cursor shown.cursor ∧
    done.reply.shown = shown.reply.shown

namespace StandsAt

variable (hprotocol : FollowsProtocol γ) (hunison : InUnison AllClosed AllOpen)
  (hrewinds : Rewinds planned AllClosed)

section

include hprotocol hrewinds

/-- Opening what is closed begins the rows anew, and opening what is open changes nothing. -/
theorem openOn (h : StandsAt planned AllClosed stores context rows c materialized) :
    AnswersAlike planned AllClosed stores context rows (perform stores context c .openOn)
      (perform stores context materialized .openOn) := by
  by_cases hclosed : Cursor.state c = .closed
  · obtain ⟨opened, events, hopen, hdelivers⟩ := h.again (h.closed hclosed) rfl
    obtain ⟨events', hopen'⟩ :=
      RowsCursor.openOn_closed stores context (h.state.symm.trans hclosed)
    have hactive := hprotocol.state_of_openOn hopen
    simp only [perform, hopen, hopen']
    refine ⟨⟨h.given, hactive, fun h => ?_, fun _ => hdelivers, fun hother hplan => ?_⟩,
      Prod.ext rfl hactive⟩
    · simp [hactive] at h
    · exact h.again hother (hplan.trans (hrewinds.planned_openOn hopen))
  · obtain ⟨kind, hmisuse⟩ := hprotocol.openOn_of_open stores context hclosed
    obtain ⟨kind', hmisuse'⟩ :=
      RowsCursor.followsProtocol.openOn_of_open stores context (h.state ▸ hclosed)
    simp only [perform, hmisuse, hmisuse']
    exact ⟨h, Prod.ext rfl h.state⟩

/-- A request of an active cursor is answered with the next of the rows to come, if there is one. -/
theorem advance_of_active (hgo : context.interruption? = none) (hactive : Cursor.state c = .active)
    (h : StandsAt planned AllClosed stores context rows c materialized) :
    AnswersAlike planned AllClosed stores context rows (perform stores context c .advance)
      (perform stores context materialized .advance) := by
  have hmaterialized : materialized.lifecycle.state = .active := h.state.symm.trans hactive
  have hshown := RowsCursor.advance_of_active hmaterialized hgo
  have hdelivers := h.active hactive
  have hagain {after other : γ} {answer : Option Row} {events : List Event}
      (hadvance : Cursor.advance context c = ⟨.ok answer, after, events⟩)
      (hother : AllClosed other) (hplan : planned other = planned after) :
      Streams stores context other rows none :=
    h.again hother (hplan.trans (hrewinds.planned_advance hadvance))
  have hhead : materialized.rows[materialized.position]? =
      (rows.drop materialized.position).head? := by
    rw [List.head?_drop, h.given]
  rw [hhead] at hshown
  -- the one looks at its place in the rows, and the other delivers what begins there
  generalize hrest : rows.drop materialized.position = rest at hdelivers hshown
  cases hdelivers with
  | ended hadvance =>
    have hended := hprotocol.state_of_advance hadvance
    have hsame := hended.trans (Lifecycle.state_drain hmaterialized).symm
    simp only [perform, hadvance, hshown, List.head?_nil]
    refine ⟨⟨h.given, hsame, fun h => ?_, fun h => ?_, hagain hadvance⟩, Prod.ext rfl hsame⟩
    · simp [hended, stateAfter] at h
    · simp [hended, stateAfter] at h
  | returned hadvance hrows =>
    have hafter := hprotocol.state_of_advance hadvance
    have hsame := hafter.trans hmaterialized.symm
    simp only [perform, hadvance, hshown, List.head?_cons]
    refine ⟨⟨h.given, hsame, fun h => ?_, fun _ => ?_, hagain hadvance⟩, Prod.ext rfl hsame⟩
    · simp [hafter, stateAfter] at h
    · show Delivers context _ (rows.drop (materialized.position + 1)) none
      rwa [← List.tail_drop, hrest, List.tail_cons]

/-- A request is answered with the next row, with that there is none, or is a misuse. -/
theorem advance (hgo : context.interruption? = none)
    (h : StandsAt planned AllClosed stores context rows c materialized) :
    AnswersAlike planned AllClosed stores context rows (perform stores context c .advance)
      (perform stores context materialized .advance) := by
  cases hcase : Cursor.state c with
  | active => exact advance_of_active hprotocol hrewinds hgo hcase h
  | drained =>
    have hended := hprotocol.advance_of_drained hcase hgo
    have hended' :=
      RowsCursor.followsProtocol.advance_of_drained (h.state.symm.trans hcase) hgo
    simp only [perform, hended, hended']
    exact ⟨h, Prod.ext rfl h.state⟩
  | closed =>
    obtain ⟨kind, hmisuse⟩ := hprotocol.advance_of_closed context hcase
    obtain ⟨kind', hmisuse'⟩ :=
      RowsCursor.followsProtocol.advance_of_closed context (h.state.symm.trans hcase)
    simp only [perform, hmisuse, hmisuse']
    exact ⟨h, Prod.ext rfl h.state⟩

end

section

include hunison hrewinds

/-- A closed cursor stands where a closed cursor over its collected rows stands. -/
theorem start (hclosed : AllClosed c)
    (hcollect : (Cursor.collect stores context c).result = .ok rows) (rowType : RowType) :
    StandsAt planned AllClosed stores context rows c (.ofRows rowType rows) := by
  have hstate := hunison.state_of_allClosed hclosed
  obtain ⟨opened, events, hopen, hdelivers⟩ := streams_of_collect hcollect
  refine ⟨rfl, hstate, fun _ => hclosed, fun h => ?_, fun hother hplan => ?_⟩
  · exact absurd (hstate.symm.trans h) (by simp)
  · obtain ⟨_, hopen'⟩ := hrewinds.openOn_congr hclosed hother hplan hopen
    exact ⟨opened, _, hopen', hdelivers⟩

/-- Closing leaves both closed. -/
theorem close (h : StandsAt planned AllClosed stores context rows c materialized) :
    AnswersAlike planned AllClosed stores context rows (perform stores context c .close)
      (perform stores context materialized .close) := by
  have hclosed := hunison.close_allClosed c
  have hstate := hunison.state_of_allClosed hclosed
  have hsame := hstate.trans (RowsCursor.followsProtocol.state_close materialized).symm
  have hplanned := congrArg RowsCursor.rows (RowsCursor.rewinds.planned_close materialized)
  have hgiven : (Cursor.close materialized).1.rows = rows := hplanned.trans h.given
  refine ⟨⟨hgiven, hsame, fun _ => hclosed, fun h => ?_, fun hother hplan => ?_⟩,
    Prod.ext rfl hsame⟩
  · exact absurd (hstate.symm.trans h) (by simp)
  · exact h.again hother (hplan.trans (hrewinds.planned_close c))

end

include hprotocol hunison hrewinds

theorem perform (hgo : context.interruption? = none)
    (h : StandsAt planned AllClosed stores context rows c materialized) (call : CursorCall) :
    AnswersAlike planned AllClosed stores context rows (perform stores context c call)
      (Cursor.perform stores context materialized call) := by
  cases call with
  | openOn => exact openOn hprotocol hrewinds h
  | advance => exact advance hprotocol hrewinds hgo h
  | close => exact close hunison hrewinds h

/-- Calls made one after the other on each of two usages leave the one where the other is, and all
replies show the same. -/
theorem run (hgo : context.interruption? = none) (calls : List CursorCall) {usage : Usage γ}
    {shown : Usage RowsCursor} (hstores : usage.stores = stores) (hstores' : shown.stores = stores)
    (h : StandsAt planned AllClosed stores context rows usage.cursor shown.cursor)
    (hreplies : usage.replies.map Reply.shown = shown.replies.map Reply.shown) :
    let steps := calls.map (UsageStep.call context)
    StandsAt planned AllClosed stores context rows (usage.run steps).cursor
        (shown.run steps).cursor ∧
      (usage.run steps).replies.map Reply.shown = (shown.run steps).replies.map Reply.shown := by
  induction calls generalizing usage shown with
  | nil => exact ⟨h, hreplies⟩
  | cons call rest ih =>
    obtain ⟨hstands, hreply⟩ := perform hprotocol hunison hrewinds hgo h call
    refine @ih (usage.step (.call context call)) (shown.step (.call context call)) hstores hstores'
      ?_ ?_
    · rw [Usage.cursor_step_call, Usage.cursor_step_call, hstores, hstores']
      exact hstands
    · rw [Usage.replies_step_call, Usage.replies_step_call, hstores, hstores', List.map_append,
        List.map_append, hreplies, List.map_singleton, List.map_singleton, hreply]

end StandsAt

end Cursor

/-! ### Trees -/

namespace CursorShape

/-- The tree as it was planned. -/
def planned : (shape : CursorShape) → shape.Carrier → shape.Carrier
  | .rows => RowsCursor.planned
  | .scan => IndexScan.planned
  | .intersection left right => Intersection.planned left.planned right.planned

/-- All cursors of a tree are in a state of this kind. -/
def All (P : CursorState → Prop) : (shape : CursorShape) → shape.Carrier → Prop
  | .rows, (c : RowsCursor) => P c.lifecycle.state
  | .scan, (c : IndexScan) => P c.lifecycle.state
  | .intersection left right, (m : Intersection left.Carrier right.Carrier) =>
    P m.lifecycle.state ∧ left.All P m.left.cursor ∧ right.All P m.right.cursor

theorem inUnison (shape : CursorShape) :
    Cursor.InUnison (shape.All (· = .closed)) (shape.All (· ≠ .closed)) := by
  induction shape with
  | rows => exact RowsCursor.inUnison
  | scan => exact IndexScan.inUnison
  | intersection left right ihLeft ihRight => exact Intersection.inUnison ihLeft ihRight

theorem rewinds (shape : CursorShape) :
    Cursor.Rewinds shape.planned (shape.All (· = .closed)) := by
  induction shape with
  | rows => exact RowsCursor.rewinds
  | scan => exact IndexScan.rewinds
  | intersection left right ihLeft ihRight => exact Intersection.rewinds ihLeft ihRight

/-- **A tree is as good as its rows.**  Take a tree of any shape whose cursors are closed, and let
collecting it under a context that nothing stops give `rows`.  To any calls on its root it replies
what a cursor over `rows` replies, and it goes through the same states.  So the end of the rows
stays, a closed tree can be closed again, and a tree that is closed after any part of the rows
streams all of them when it is opened. -/
theorem replies_eq_ofRows (shape : CursorShape) {c : shape.Carrier}
    (hclosed : shape.All (· = .closed) c) {stores : Stores} {context : QueryContext}
    (hgo : context.interruption? = none) {rows : List Row}
    (hcollect : (Cursor.collect stores context c).result = .ok rows) (calls : List CursorCall) :
    let steps := calls.map (UsageStep.call context)
    let usage := (Usage.start stores c).run steps
    let shown := (Usage.start stores (RowsCursor.ofRows (Cursor.rowType c) rows)).run steps
    let closed := (Cursor.close usage.cursor).1
    usage.replies.map Reply.shown = shown.replies.map Reply.shown ∧
      (Cursor.state usage.cursor = .drained →
        Cursor.advance context usage.cursor = ⟨.ok none, usage.cursor, []⟩) ∧
      (Cursor.state closed = .closed ∧ Cursor.close closed = (closed, [])) ∧
      Cursor.Streams stores context closed rows none := by
  intro steps usage shown closed
  have hprotocol := shape.followsProtocol
  have hunison := shape.inUnison
  have hrewinds := shape.rewinds
  have hstart : Cursor.StandsAt shape.planned (shape.All (· = .closed)) stores context rows c
      (.ofRows (Cursor.rowType c) rows) :=
    .start hunison hrewinds hclosed hcollect _
  obtain ⟨hstands, hreplies⟩ := @Cursor.StandsAt.run _ _ _ _ _ _ _ _ hprotocol hunison hrewinds
    hgo calls (.start stores c) (.start stores _) rfl rfl hstart rfl
  have hclosing := hunison.close_allClosed usage.cursor
  refine ⟨hreplies, fun hdrained => hprotocol.advance_of_drained hdrained hgo,
    ⟨hunison.state_of_allClosed hclosing, hunison.close_of_allClosed hclosing⟩,
    hstands.again hclosing (hrewinds.planned_close _)⟩

/-- The tree is left after one row, asked for another one while it is closed, read to its end and
beyond, and closed twice.  Opening it is tried once while it is open. -/
def leftAndReread : List CursorCall :=
  [.openOn, .advance, .openOn, .close, .advance, .openOn] ++ List.replicate 6 .advance ++
    [.close, .close]

/-- The joined numbers beside the lines. -/
def numbersBesideLines : (intersection (intersection rows rows) scan).Carrier :=
  IntersectionRequest.made ⟨QueryShape.joinedNumbers, .derived "number" [.int], 0⟩
    QueryShape.allLines [] .inner .left

/-- The numbers of the joined tree come all four again after it was left after the first. -/
theorem replies_eq_ofRows_leftAndReread :
    let numbers := IntersectionRequest.scrambled.counted IntersectionRequest.scrambled.cursor.rows
    let stores : Stores := fun _ => IndexStore.run IndexScan.sampleCalls
    let steps := leftAndReread.map (UsageStep.call IntersectionRequest.unchecked)
    All (· = .closed) _ numbersBesideLines ∧
      IntersectionRequest.unchecked.interruption? = none ∧
      (Cursor.collect stores IntersectionRequest.unchecked numbersBesideLines).result =
        .ok numbers ∧
      (((Usage.start stores numbersBesideLines).run steps).replies.map Reply.shown).drop 6 =
        numbers.map (fun row => (.ok (.row row), .active)) ++
          [(.ok .ended, .drained), (.ok .ended, .drained), (.ok .closed, .closed),
            (.ok .closed, .closed)] ∧
      ((Usage.start stores numbersBesideLines).run steps).replies.map Reply.shown =
        ((Usage.start stores (RowsCursor.ofRows (Cursor.rowType numbersBesideLines) numbers)).run
          steps).replies.map Reply.shown := by
  intro numbers stores steps
  have hclosed : All (· = .closed) _ numbersBesideLines := ⟨rfl, ⟨rfl, rfl, rfl⟩, rfl⟩
  have hgo : IntersectionRequest.unchecked.interruption? = none := rfl
  have hcollect :
      (Cursor.collect stores IntersectionRequest.unchecked numbersBesideLines).result =
        .ok numbers := by
    decide +kernel
  exact ⟨hclosed, hgo, hcollect, by decide +kernel,
    (replies_eq_ofRows _ hclosed hgo hcollect leftAndReread).1⟩

end CursorShape

end TableGroups
