import Mathlib.Data.List.Chain
import TableGroups.Cursor.Intersection.Request
import TableGroups.Proofs.Cursor.Supply

/-!
# What an intersection delivers

Seen from outside, a merge of two supplies is a function of lists: `MergeRule.merge` goes through
both lists at once, as the intersection goes through its inputs.  An intersection whose inputs hold
two supplies delivers their merge (`Intersection.delivers`), so what is to be said of intersections
can be said of `merge`, where there are no cursors and no rows in hand.

The proof follows the layers of the definition: `Intersection.Offers` is the invariant, that the
inputs hold two supplies whose merge is still to be delivered; `fill` keeps the two supplies
(`Holds.fill`), and `nextRow` gets the first row of the merge (`Offers.nextRow`).
-/

namespace TableGroups

/-- What a merge does with the rows of its inputs. -/
structure MergeRule where
  comparator : KeyComparator
  leftOffset : Nat
  rightOffset : Nat
  join : JoinType
  output : Side

namespace MergeRule

/-- What is still emitted of a side when the other one has run out. -/
def leftover (rule : MergeRule) (side : Side) : List Row → Option CursorError → Supply
  | [], stop => ⟨[], stop⟩
  | row :: rest, stop =>
    if rule.join.keepsUnmatched && rule.output == side then ⟨row :: rest, stop⟩ else ⟨[], none⟩

/-- The merge of two supplies that stop with `leftStop` and `rightStop`. -/
def merge (rule : MergeRule) (leftStop rightStop : Option CursorError) :
    List Row → List Row → Supply
  | [], rs =>
    match leftStop with
    | some e => ⟨[], some e⟩
    | none => rule.leftover .right rs rightStop
  | l :: ls, [] =>
    match rightStop with
    | some e => ⟨[], some e⟩
    | none => rule.leftover .left (l :: ls) leftStop
  | l :: ls, r :: rs =>
    match rule.comparator.compareRuns l.values rule.leftOffset r.values rule.rightOffset with
    | .error e => ⟨[], some (.comparison e)⟩
    | .ok .eq =>
      match rule.output with
      | .left => (rule.merge leftStop rightStop ls (r :: rs)).cons l
      | .right => (rule.merge leftStop rightStop (l :: ls) rs).cons r
    | .ok .lt =>
      if rule.join = .left then (rule.merge leftStop rightStop ls (r :: rs)).cons l
      else rule.merge leftStop rightStop ls (r :: rs)
    | .ok .gt =>
      if rule.join = .right then (rule.merge leftStop rightStop (l :: ls) rs).cons r
      else rule.merge leftStop rightStop (l :: ls) rs
termination_by ls rs => ls.length + rs.length

section

variable {rule : MergeRule} {leftStop rightStop : Option CursorError}

theorem leftover_of_keeps {side : Side} (h : rule.join.keepsUnmatched && rule.output == side)
    (rows : List Row) (stop : Option CursorError) :
    rule.leftover side rows stop = ⟨rows, stop⟩ := by
  cases rows with
  | nil => rfl
  | cons row rest => rw [leftover, if_pos h]

theorem merge_nil_left (rs : List Row) :
    rule.merge none rightStop [] rs = rule.leftover .right rs rightStop := by
  rw [merge]

theorem merge_nil_right (ls : List Row) :
    rule.merge leftStop none ls [] = rule.leftover .left ls leftStop := by
  cases ls with
  | nil => cases leftStop <;> simp [merge, leftover]
  | cons l ls => rw [merge]

end

end MergeRule

namespace Intersection

variable {L R : Type}

/-- What the intersection does with the rows of its inputs. -/
def rule (m : Intersection L R) : MergeRule :=
  ⟨m.comparator, m.left.offset, m.right.offset, m.join, m.output⟩

@[simp] theorem rule_take (m : Intersection L R) (side : Side) : (m.take side).rule = m.rule := by
  cases side <;> simp [take, rule]

@[simp] theorem rule_emit (m : Intersection L R) (side : Side) (isMatch : Bool) :
    (m.emit side isMatch).rule = m.rule := by
  cases isMatch <;> exact m.rule_take side

@[simp] theorem rule_discard (m : Intersection L R) (side : Side) :
    (m.discard side).rule = m.rule :=
  m.rule_take side

@[simp] theorem lifecycle_take (m : Intersection L R) (side : Side) :
    (m.take side).lifecycle = m.lifecycle := by
  cases side <;> rfl

@[simp] theorem lifecycle_emit (m : Intersection L R) (side : Side) (isMatch : Bool) :
    (m.emit side isMatch).lifecycle = m.lifecycle := by
  cases isMatch <;> exact m.lifecycle_take side

@[simp] theorem lifecycle_discard (m : Intersection L R) (side : Side) :
    (m.discard side).lifecycle = m.lifecycle :=
  m.lifecycle_take side

/-! ### The invariant -/

variable [Cursor L] [Cursor R] {context : QueryContext} {m : Intersection L R}
  {left right supply : Supply}

/-- Under the context the inputs still have these supplies to offer. -/
structure Holds (context : QueryContext) (m : Intersection L R) (left right : Supply) : Prop where
  left : m.left.Holds context .left m.comparator m.checkOrder left
  right : m.right.Holds context .right m.comparator m.checkOrder right

/-- The merge of what the inputs hold is still to be delivered. -/
def Offers (context : QueryContext) (m : Intersection L R) (supply : Supply) : Prop :=
  ∃ left right, m.Holds context left right ∧
    supply = m.rule.merge left.stop right.stop left.rows right.rows

theorem Offers.withStats (h : m.Offers context supply) (stats : MergeStats) :
    { m with stats }.Offers context supply := by
  obtain ⟨left, right, hholds, hsupply⟩ := h
  exact ⟨left, right, ⟨hholds.left, hholds.right⟩, hsupply⟩

/-! ### Filling -/

/-- Both inputs have been filled: the first row of each supply is in hand. -/
structure Ready (context : QueryContext) (m : Intersection L R) (left right : Supply) : Prop where
  holds : m.Holds context left right
  leftHand : m.left.lookahead = left.rows.head?
  rightHand : m.right.lookahead = right.rows.head?
  leftStop : left.rows = [] → left.stop = none
  rightStop : right.rows = [] → right.stop = none

/-- What filling the inputs does, by what their supplies begin with. -/
inductive Filled (context : QueryContext) (m : Intersection L R) (left right : Supply)
    (call : Call (Intersection L R) Unit) : Prop where
  /-- The merge of the supplies stops with a failure. -/
  | failed {e : CursorError} (hresult : call.result = .error e)
      (hmerge : m.rule.merge left.stop right.stop left.rows right.rows = ⟨[], some e⟩)
  | ready (hresult : call.result = .ok ()) (hready : call.cursor.Ready context left right)
      (hrule : call.cursor.rule = m.rule) (hlifecycle : call.cursor.lifecycle = m.lifecycle)

theorem Holds.fill (h : m.Holds context left right) :
    Filled context m left right (m.fill context) := by
  unfold Intersection.fill
  have hleft := h.left.fill
  cases hcall : m.left.fill context .left m.comparator m.checkOrder with
  | mk result filledLeft events =>
  rw [hcall] at hleft
  cases hleft with
  | failed hrows hstop hresult =>
    cases hresult
    refine .failed rfl ?_
    rw [hrows, hstop, MergeRule.merge]
  | ready hresult hleftStop hleftHand hleftHolds hleftOffset =>
    cases hresult
    have hright := h.right.fill
    cases hcall : m.right.fill context .right m.comparator m.checkOrder with
    | mk result filledRight events =>
    rw [hcall] at hright
    cases hright with
    | failed hrows hstop hresult =>
      cases hresult
      refine .failed rfl ?_
      rw [hrows, hstop]
      cases hls : left.rows with
      | nil => rw [hleftStop hls, MergeRule.merge]; rfl
      | cons l ls => rw [MergeRule.merge]
    | ready hresult hrightStop hrightHand hrightHolds hrightOffset =>
      cases hresult
      refine .ready rfl ⟨⟨hleftHolds, hrightHolds⟩, hleftHand, hrightHand, hleftStop, hrightStop⟩
        ?_ rfl
      simp only [rule]
      rw [hleftOffset, hrightOffset]

/-! ### Judging -/

/-- What the merge of the supplies is, by the verdict on the rows in hand. -/
inductive Judged (context : QueryContext) (m : Intersection L R) (supply : Supply) :
    Except ComparisonError Verdict → Prop where
  | failed {e : ComparisonError} (hsupply : supply = ⟨[], some (.comparison e)⟩) :
      Judged context m supply (.error e)
  | finished (hsupply : supply = ⟨[], none⟩) : Judged context m supply (.ok .finished)
  | emit {side : Side} {isMatch : Bool} {row : Row} {rest : Supply}
      (hhand : m.lookahead side = some row) (hsupply : supply = rest.cons row)
      (hrest : (m.emit side isMatch).Offers context rest) :
      Judged context m supply (.ok (.emit side isMatch))
  | discard {side : Side} (hrest : (m.discard side).Offers context supply) :
      Judged context m supply (.ok (.discard side))

section

variable {row : Row} {rows : List Row} {stop : Option CursorError}

theorem Holds.emit_left (h : m.Holds context ⟨row :: rows, stop⟩ right)
    (hhand : m.left.lookahead = some row) (isMatch : Bool) :
    Judged context m ((m.rule.merge stop right.stop rows right.rows).cons row)
      (.ok (.emit .left isMatch)) := by
  refine .emit hhand rfl ⟨⟨rows, stop⟩, right, ?_, by rw [rule_emit]⟩
  cases isMatch <;> exact ⟨h.left.take hhand, h.right⟩

theorem Holds.emit_right (h : m.Holds context left ⟨row :: rows, stop⟩)
    (hhand : m.right.lookahead = some row) (isMatch : Bool) :
    Judged context m ((m.rule.merge left.stop stop left.rows rows).cons row)
      (.ok (.emit .right isMatch)) := by
  refine .emit hhand rfl ⟨left, ⟨rows, stop⟩, ?_, by rw [rule_emit]⟩
  cases isMatch <;> exact ⟨h.left, h.right.take hhand⟩

theorem Holds.discard_left (h : m.Holds context ⟨row :: rows, stop⟩ right)
    (hhand : m.left.lookahead = some row) :
    Judged context m (m.rule.merge stop right.stop rows right.rows) (.ok (.discard .left)) :=
  .discard ⟨⟨rows, stop⟩, right, ⟨h.left.take hhand, h.right⟩, by rw [rule_discard]⟩

theorem Holds.discard_right (h : m.Holds context left ⟨row :: rows, stop⟩)
    (hhand : m.right.lookahead = some row) :
    Judged context m (m.rule.merge left.stop stop left.rows rows) (.ok (.discard .right)) :=
  .discard ⟨left, ⟨rows, stop⟩, ⟨h.left, h.right.take hhand⟩, by rw [rule_discard]⟩

end

omit [Cursor L] [Cursor R] in
/-- The verdict on two rows in hand. -/
theorem verdict_of_some {l r : Row} (hleft : m.left.lookahead = some l)
    (hright : m.right.lookahead = some r) :
    m.verdict =
      match m.rule.comparator.compareRuns l.values m.rule.leftOffset r.values m.rule.rightOffset
      with
      | .error e => .error e
      | .ok .eq => .ok (.emit m.rule.output true)
      | .ok .lt => .ok (if m.rule.join = .left then .emit .left false else .discard .left)
      | .ok .gt => .ok (if m.rule.join = .right then .emit .right false else .discard .right) := by
  rw [verdict, hleft, hright]
  rfl

omit [Cursor L] [Cursor R] in
/-- The verdict when the left side has run out. -/
theorem verdict_of_none_left {r : Row} (hleft : m.left.lookahead = none)
    (hright : m.right.lookahead = some r) :
    m.verdict =
      if m.rule.join.keepsUnmatched && m.rule.output == .right then .ok (.emit .right false)
      else .ok .finished := by
  rw [verdict, hleft]
  cases houtput : m.output <;> simp [lookahead, rule, houtput, hleft, hright]

omit [Cursor L] [Cursor R] in
/-- The verdict when the right side has run out. -/
theorem verdict_of_none_right {l : Row} (hleft : m.left.lookahead = some l)
    (hright : m.right.lookahead = none) :
    m.verdict =
      if m.rule.join.keepsUnmatched && m.rule.output == .left then .ok (.emit .left false)
      else .ok .finished := by
  rw [verdict, hleft, hright]
  cases houtput : m.output <;> simp [lookahead, rule, houtput, hleft, hright]

/-- Two rows in hand are judged as the merge decides on them. -/
theorem Holds.judged_of_some {l r : Row} {ls rs : List Row}
    {leftStop rightStop : Option CursorError}
    (h : m.Holds context ⟨l :: ls, leftStop⟩ ⟨r :: rs, rightStop⟩)
    (hleft : m.left.lookahead = some l) (hright : m.right.lookahead = some r) :
    Judged context m (m.rule.merge leftStop rightStop (l :: ls) (r :: rs)) m.verdict := by
  rw [MergeRule.merge, verdict_of_some hleft hright]
  cases m.rule.comparator.compareRuns l.values m.rule.leftOffset r.values
    m.rule.rightOffset with
  | error e => exact .failed rfl
  | ok o =>
    cases o with
    | eq =>
      cases m.rule.output with
      | left => exact h.emit_left hleft true
      | right => exact h.emit_right hright true
    | lt =>
      by_cases hjoin : m.rule.join = .left
      · simp only [if_pos hjoin]
        exact h.emit_left hleft false
      · simp only [if_neg hjoin]
        exact h.discard_left hleft
    | gt =>
      by_cases hjoin : m.rule.join = .right
      · simp only [if_pos hjoin]
        exact h.emit_right hright false
      · simp only [if_neg hjoin]
        exact h.discard_right hright

/-- The verdict on the rows in hand is what the merge does with the first rows. -/
theorem Ready.judged (h : m.Ready context left right) :
    Judged context m (m.rule.merge left.stop right.stop left.rows right.rows) m.verdict := by
  obtain ⟨hholds, hleftHand, hrightHand, hleftStop, hrightStop⟩ := h
  obtain ⟨lefts, leftStop⟩ := left
  obtain ⟨rights, rightStop⟩ := right
  dsimp only at *
  cases lefts with
  | nil =>
    cases hleftStop rfl
    rw [MergeRule.merge_nil_left]
    cases rights with
    | nil =>
      cases hrightStop rfl
      have hverdict : m.verdict = .ok .finished := by
        cases houtput : m.output <;>
          simp [verdict, lookahead, hleftHand, hrightHand, houtput]
      rw [hverdict]
      exact .finished rfl
    | cons r rs =>
      rw [verdict_of_none_left hleftHand hrightHand]
      by_cases hkeeps : m.rule.join.keepsUnmatched && m.rule.output == .right
      · rw [if_pos hkeeps, MergeRule.leftover_of_keeps hkeeps]
        have hemit := hholds.emit_right hrightHand false
        rwa [MergeRule.merge_nil_left, MergeRule.leftover_of_keeps hkeeps] at hemit
      · rw [if_neg hkeeps, MergeRule.leftover, if_neg hkeeps]
        exact .finished rfl
  | cons l ls =>
    cases rights with
    | nil =>
      cases hrightStop rfl
      rw [MergeRule.merge_nil_right, verdict_of_none_right hleftHand hrightHand]
      by_cases hkeeps : m.rule.join.keepsUnmatched && m.rule.output == .left
      · rw [if_pos hkeeps, MergeRule.leftover_of_keeps hkeeps]
        have hemit := hholds.emit_left hleftHand false
        rwa [MergeRule.merge_nil_right, MergeRule.leftover_of_keeps hkeeps] at hemit
      · rw [if_neg hkeeps, MergeRule.leftover, if_neg hkeeps]
        exact .finished rfl
    | cons r rs =>
      exact hholds.judged_of_some hleftHand hrightHand

/-! ### Rows of the merge -/

/-- What asking for the next row of a merge does, by what the merge begins with. -/
inductive Merged (context : QueryContext) (m : Intersection L R) (supply : Supply)
    (call : Call (Intersection L R) (Option Row)) : Prop where
  | failed {e : CursorError} (hsupply : supply = ⟨[], some e⟩) (hresult : call.result = .error e)
  | finished (hsupply : supply = ⟨[], none⟩) (hresult : call.result = .ok none)
  | returned {row : Row} {rest : Supply} (hsupply : supply = rest.cons row)
      (hresult : call.result = .ok (some row)) (hrest : call.cursor.Offers context rest)
      (hlifecycle : call.cursor.lifecycle = m.lifecycle)

section

variable {filled : Intersection L R} {events : List Event}

theorem Offers.of_fill_error {e : CursorError} (h : m.Offers context supply)
    (hfill : m.fill context = ⟨.error e, filled, events⟩) : supply = ⟨[], some e⟩ := by
  obtain ⟨left, right, hholds, rfl⟩ := h
  have hfilled := hholds.fill
  rw [hfill] at hfilled
  cases hfilled with
  | failed hresult hmerge =>
    cases hresult
    exact hmerge
  | ready hresult _ _ _ => cases hresult

theorem Offers.of_fill_ok (h : m.Offers context supply)
    (hfill : m.fill context = ⟨.ok (), filled, events⟩) :
    Judged context filled supply filled.verdict ∧ filled.lifecycle = m.lifecycle := by
  obtain ⟨left, right, hholds, rfl⟩ := h
  have hfilled := hholds.fill
  rw [hfill] at hfilled
  cases hfilled with
  | failed hresult _ => cases hresult
  | ready _ hready hrule hlifecycle =>
    rw [← hrule]
    exact ⟨hready.judged, hlifecycle⟩

end

/-- The next row is the first of the merge. -/
theorem Offers.nextRow (h : m.Offers context supply) :
    Merged context m supply (m.nextRow context) := by
  fun_induction Intersection.nextRow context m with
  | case1 m e filled events hfill => exact .failed (h.of_fill_error hfill) rfl
  | case2 m filled events hfill e hverdict =>
    obtain ⟨hjudged, -⟩ := h.of_fill_ok hfill
    rw [hverdict] at hjudged
    cases hjudged with
    | failed hsupply => exact .failed hsupply rfl
  | case3 m filled events hfill hverdict =>
    obtain ⟨hjudged, -⟩ := h.of_fill_ok hfill
    rw [hverdict] at hjudged
    cases hjudged with
    | finished hsupply => exact .finished hsupply rfl
  | case4 m filled events hfill side isMatch hverdict =>
    obtain ⟨hjudged, hlifecycle⟩ := h.of_fill_ok hfill
    rw [hverdict] at hjudged
    cases hjudged with
    | emit hhand hsupply hrest =>
      refine .returned hsupply (by rw [hhand]) hrest ?_
      rw [lifecycle_emit, hlifecycle]
  | case5 m filled events hfill side hverdict rest ih =>
    -- a row is dropped, which leaves the merge as it is
    obtain ⟨hjudged, hlifecycle⟩ := h.of_fill_ok hfill
    rw [hverdict] at hjudged
    cases hjudged with
    | discard hrest =>
      cases ih hrest with
      | failed hsupply hresult => exact .failed hsupply hresult
      | finished hsupply hresult => exact .finished hsupply hresult
      | returned hsupply hresult hoffers hsame =>
        refine .returned hsupply hresult hoffers ?_
        rw [hsame, lifecycle_discard, hlifecycle]

/-- An active intersection that nothing interrupts asks for the next row of the merge. -/
theorem advance_of_active (hactive : m.lifecycle.state = .active)
    (hcontext : context.interruption? = none) :
    Cursor.advance context m =
      match m.nextRow context with
      | ⟨.error e, stopped, events⟩ => stopped.fail e events
      | ⟨.ok none, ended, events⟩ =>
        ⟨.ok none, { ended with lifecycle := ended.lifecycle.drain }, events⟩
      | ⟨.ok (some row), merged, events⟩ =>
        ⟨.ok (some row),
          { merged with stats := { merged.stats with emitted := merged.stats.emitted + 1 } },
          events⟩ := by
  show Intersection.advance context m = _
  unfold Intersection.advance Lifecycle.gate
  rw [hactive, hcontext]
  rfl

/-- **What an intersection delivers.**  Under a context that nothing interrupts, an active
intersection delivers the merge of what its inputs hold. -/
theorem Offers.delivers (h : m.Offers context supply) (hactive : m.lifecycle.state = .active)
    (hcontext : context.interruption? = none) :
    Cursor.Delivers context m supply.rows supply.stop := by
  obtain ⟨rows, stop⟩ := supply
  induction rows generalizing m with
  | nil =>
    have hadvance := advance_of_active hactive hcontext
    have hmerged := h.nextRow
    cases hcall : m.nextRow context with
    | mk result after events =>
    rw [hcall] at hadvance hmerged
    cases hmerged with
    | failed hsupply hresult =>
      cases hsupply
      cases hresult
      exact .failed hadvance
    | finished hsupply hresult =>
      cases hsupply
      cases hresult
      exact .ended hadvance
    | returned hsupply _ _ _ => cases hsupply
  | cons row rows ih =>
    have hadvance := advance_of_active hactive hcontext
    have hmerged := h.nextRow
    cases hcall : m.nextRow context with
    | mk result after events =>
    rw [hcall] at hadvance hmerged
    cases hmerged with
    | failed hsupply _ => cases hsupply
    | finished hsupply _ => cases hsupply
    | returned hsupply hresult hrest hlifecycle =>
      cases hsupply
      cases hresult
      refine .returned hadvance (ih ?_ (hrest.withStats _))
      rw [← hactive]
      exact congrArg Lifecycle.state hlifecycle

/-! ### Opening -/

omit [Cursor L] [Cursor R] in
/-- What the intersection makes of two streams, with or without a check of their order. -/
def outcome (m : Intersection L R) (check : Bool) (ls : List Row) (leftStop : Option CursorError)
    (rs : List Row) (rightStop : Option CursorError) : Supply :=
  let left := (m.left.rule .left m.comparator check).supply none ls leftStop
  let right := (m.right.rule .right m.comparator check).supply none rs rightStop
  m.rule.merge left.stop right.stop left.rows right.rows

/-- A closed intersection opens if both of its inputs do. -/
theorem openOn_of_inputs {stores : Stores} {left : L} {right : R}
    {leftEvents rightEvents : List Event} (hclosed : m.lifecycle.state = .closed)
    (hleft : Cursor.openOn stores context m.left.cursor = ⟨.ok (), left, leftEvents⟩)
    (hright : Cursor.openOn stores context m.right.cursor = ⟨.ok (), right, rightEvents⟩) :
    ∃ events, Cursor.openOn stores context m =
      ⟨.ok (), { m with
        left := { m.left.reset with cursor := left }
        right := { m.right.reset with cursor := right }
        stats := .zero
        checkOrder := context.config.checkInputOrder
        lifecycle := ⟨.active, context.config.recordMetrics⟩ }, events⟩ := by
  have hstart : m.lifecycle.start .intersection context =
      .ok ⟨.active, context.config.recordMetrics⟩ := by
    simp [Lifecycle.start, CursorState.isOpen, hclosed]
  refine ⟨leftEvents ++ rightEvents ++
    Lifecycle.report ⟨.active, context.config.recordMetrics⟩ [.cursorOpened .intersection], ?_⟩
  show Intersection.openOn stores context m = _
  simp only [Intersection.openOn, hstart, Input.reset, hleft, hright]

/-- **What an intersection streams.**  A closed intersection of two streams is the stream of their
merge. -/
theorem streams {stores : Stores} {ls rs : List Row} {leftStop rightStop : Option CursorError}
    (hclosed : m.lifecycle.state = .closed) (hcontext : context.interruption? = none)
    (hleft : Cursor.Streams stores context m.left.cursor ls leftStop)
    (hright : Cursor.Streams stores context m.right.cursor rs rightStop) :
    Cursor.Streams stores context m
      (m.outcome context.config.checkInputOrder ls leftStop rs rightStop).rows
      (m.outcome context.config.checkInputOrder ls leftStop rs rightStop).stop := by
  obtain ⟨openedLeft, leftEvents, hopenLeft, hdeliversLeft⟩ := hleft
  obtain ⟨openedRight, rightEvents, hopenRight, hdeliversRight⟩ := hright
  obtain ⟨events, hopen⟩ := openOn_of_inputs hclosed hopenLeft hopenRight
  refine ⟨_, events, hopen, Offers.delivers ⟨_, _, ?_, rfl⟩ rfl hcontext⟩
  exact ⟨.waiting rfl rfl hdeliversLeft, .waiting rfl rfl hdeliversRight⟩

end Intersection

/-! ### Requests -/

/-- The position of the first field that the input is ordered on. -/
def InputRequest.keyStart {γ : Type} (input : InputRequest γ) : Nat :=
  input.rowType.fields.length - input.orderingFields

/-- The rows of the declared type. -/
def InputRequest.counted {γ : Type} (input : InputRequest γ) (rows : List Row) : List Row :=
  rows.filter (·.isOfType input.rowType)

namespace IntersectionRequest

variable {L R : Type} {left : InputRequest L} {right : InputRequest R} {fields : Nat}
  {directions : List Direction} {join : JoinType} {output : Side} {m : Intersection L R}

/-- The closed intersection that a request makes, if it is accepted. -/
def made (left : InputRequest L) (right : InputRequest R) (directions : List Direction)
    (join : JoinType) (output : Side) : Intersection L R where
  left := .fresh left.cursor left.rowType left.keyStart
  right := .fresh right.cursor right.rowType right.keyStart
  comparator := ⟨directions⟩
  join
  output
  checkOrder := true
  stats := .zero
  lifecycle := .initial

/-- The conditions under which a complete request is accepted, and what it makes. -/
theorem build_eq_ok_iff :
    build ⟨some left, some right, fields, directions, some (join, output)⟩ = .ok m ↔
      left.orderingFields ≤ left.rowType.fields.length ∧
        right.orderingFields ≤ right.rowType.fields.length ∧
        directions.length = fields ∧
        fields ≤ min left.orderingFields right.orderingFields ∧
        join ≠ .full ∧ join.supports output ∧
        made left right directions join output = m := by
  simp only [build, InputRequest.offset, JoinType.check, bind, Except.bind, pure, Except.pure,
    throw, throwThe, MonadExceptOf.throw]
  -- the checks, in the order in which they are made
  by_cases hleft : left.rowType.fields.length < left.orderingFields
  · simp only [if_pos hleft]
    exact ⟨nofun, fun h => absurd h.1 (Nat.not_le.mpr hleft)⟩
  by_cases hright : right.rowType.fields.length < right.orderingFields
  · simp only [if_neg hleft, if_pos hright]
    exact ⟨nofun, fun h => absurd h.2.1 (Nat.not_le.mpr hright)⟩
  by_cases hcount : directions.length = fields
  swap
  · simp only [if_neg hleft, if_neg hright, if_pos hcount]
    exact ⟨nofun, fun h => absurd h.2.2.1 hcount⟩
  by_cases hordered : min left.orderingFields right.orderingFields < fields
  · simp only [if_neg hleft, if_neg hright, if_neg (not_not.mpr hcount), if_pos hordered]
    exact ⟨nofun, fun h => absurd h.2.2.2.1 (Nat.not_le.mpr hordered)⟩
  by_cases hfull : join = .full
  · simp only [if_neg hleft, if_neg hright, if_neg (not_not.mpr hcount), if_neg hordered,
      if_pos hfull]
    exact ⟨nofun, fun h => absurd hfull h.2.2.2.2.1⟩
  by_cases hsupports : join.supports output = true
  swap
  · simp only [if_neg hleft, if_neg hright, if_neg (not_not.mpr hcount), if_neg hordered,
      if_neg hfull, if_neg hsupports]
    exact ⟨nofun, fun h => absurd h.2.2.2.2.2.1 hsupports⟩
  simp only [if_neg hleft, if_neg hright, if_neg (not_not.mpr hcount), if_neg hordered,
    if_neg hfull, if_pos hsupports, Except.ok.injEq]
  constructor
  · intro hmade
    exact ⟨Nat.not_lt.mp hleft, Nat.not_lt.mp hright, hcount, Nat.not_lt.mp hordered, hfull,
      hsupports, hmade⟩
  · rintro ⟨-, -, -, -, -, -, hmade⟩
    exact hmade

/-- The join of an accepted intersection can emit the rows of its output side. -/
theorem supports_of_build
    (h : build ⟨some left, some right, fields, directions, some (join, output)⟩ = .ok m) :
    m.join.supports m.output := by
  obtain ⟨-, -, -, -, -, hsupports, rfl⟩ := build_eq_ok_iff.mp h
  exact hsupports

/-- An accepted intersection of two ascending streams streams the merge of the rows that count, for
ascending rows pass the check of their order. -/
theorem streams_of_ascending [Cursor L] [Cursor R] {stores : Stores} {context : QueryContext}
    {leftRows rightRows rows : List Row}
    (hbuild : build ⟨some left, some right, fields, directions, some (join, output)⟩ = .ok m)
    (hcontext : context.interruption? = .none)
    (hleft : Cursor.Streams stores context left.cursor leftRows .none)
    (hright : Cursor.Streams stores context right.cursor rightRows .none)
    (hls : KeyComparator.Ascending ⟨directions⟩ left.keyStart (left.counted leftRows))
    (hrs : KeyComparator.Ascending ⟨directions⟩ right.keyStart (right.counted rightRows))
    (hmerge : (made left right directions join output).rule.merge .none .none
      (left.counted leftRows) (right.counted rightRows) = ⟨rows, .none⟩) :
    Cursor.Streams stores context m rows .none := by
  obtain ⟨-, -, -, -, -, -, rfl⟩ := build_eq_ok_iff.mp hbuild
  have hclosed : (made left right directions join output).lifecycle.state = .closed := rfl
  have hstreams := Intersection.streams hclosed hcontext hleft hright
  have houtcome : (made left right directions join output).outcome
      context.config.checkInputOrder leftRows .none rightRows .none = ⟨rows, .none⟩ := by
    rw [Intersection.outcome, InputRule.supply_of_ascending (by exact hls),
      InputRule.supply_of_ascending (by exact hrs)]
    exact hmerge
  rwa [houtcome] at hstreams

end IntersectionRequest

end TableGroups
