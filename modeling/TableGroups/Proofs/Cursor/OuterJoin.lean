import TableGroups.Cursor.Rows
import TableGroups.Proofs.Cursor.Invariant

/-!
# Outer joins keep their output side

A left join that emits the rows of its left input, or a right join that emits those of its right
one, emits all rows of that input that count, in their order and each once
(`rows_of_outer_join`).  The other input decides only when a row is emitted, so nothing is asked of
it, and the rows of neither input need to be in order.

Both sides advance in several ways, but the output side in one only: its row in hand is emitted.
It is never dropped (`ne_output_of_discard`).  So what the side has used up is what was emitted
(`EmitsOutput`), and the merge is not over before the side has no more rows
(`lookahead_of_finished`).
-/

namespace TableGroups

namespace Intersection

variable {L R : Type} [Cursor L] [Cursor R] {context : QueryContext} {m : Intersection L R}

/-- An intersection of this rule has emitted what its output side has used up of `rows`. -/
structure EmitsOutput (rule : MergeRule) (rows emitted : List Row) (m : Intersection L R) :
    Prop where
  follows : m.rule = rule
  hasUsed : m.HasUsed rule.output emitted rows

section

variable {rule : MergeRule} {rows emitted : List Row}

/-- When a request ends, the row in hand of the output side is the next one to be emitted. -/
theorem EmitsOutput.requested {call : Call (Intersection L R) (Option Row)}
    (hkeeps : rule.join.keepsUnmatched) (hsupports : rule.join.supports rule.output)
    (h : m.EmitsOutput rule rows emitted) (hcall : m.nextRow context = call) :
    Requested (fun last => last.EmitsOutput rule rows emitted ∧
      (last.lookahead rule.output = none → emitted = rows)) call := by
  rw [← hcall]
  refine Requested.nextRow (fun m filled events hm hfill => ?_)
    (fun filled side hfilled hverdict => ?_) h
  · obtain ⟨hused, hall⟩ := hm.hasUsed.fill hfill
    exact ⟨⟨(frame_of_fill hfill).1.trans hm.follows, hused⟩, hall⟩
  · obtain ⟨⟨rfl, hused⟩, -⟩ := hfilled
    have hne : side ≠ filled.output := ne_output_of_discard hkeeps hsupports hverdict
    exact ⟨filled.rule_discard side, hasUsed_discard.mpr (hused.take_of_ne hne)⟩

theorem keeps_emitsOutput (hkeeps : rule.join.keepsUnmatched)
    (hsupports : rule.join.supports rule.output) (rows : List Row) :
    Keeps (fun emitted (m : Intersection L R) => m.EmitsOutput rule rows emitted)
      (fun emitted => emitted = rows) where
  stats _ h := ⟨h.follows, h.hasUsed⟩
  row h hcall := by
    cases h.requested hkeeps hsupports hcall with
    | failed hresult => cases hresult
    | finished _ _ hresult => cases hresult
    | @emitted last side isMatch _ hlast hverdict hhand hresult hcursor =>
      cases hresult
      obtain ⟨⟨rfl, hused⟩, -⟩ := hlast
      obtain rfl : side = last.output := eq_output_of_emit hsupports hverdict
      dsimp only at hcursor
      rw [hcursor]
      exact ⟨last.rule_emit _ _, hasUsed_emit.mpr (hused.take_self hhand)⟩
  ended h hcall := by
    cases h.requested hkeeps hsupports hcall with
    | failed hresult => cases hresult
    | emitted _ _ _ hresult _ => cases hresult
    | finished hlast hverdict _ =>
      obtain ⟨⟨rfl, -⟩, hall⟩ := hlast
      exact hall (lookahead_of_finished hkeeps hverdict)

end

/-- In any session the rows returned so far begin those of the output side that count. -/
theorem isPrefix_of_outer_join {stores : Stores} {rows : List Row} {opened : Intersection L R}
    {events : List Event} (hkeeps : m.join.keepsUnmatched) (hsupports : m.join.supports m.output)
    (hreads : m.Reads stores context m.output rows)
    (hopen : Cursor.openOn stores context m = ⟨.ok (), opened, events⟩)
    (steps : List SessionStep) :
    let session := Session.run ⟨stores, opened, []⟩ steps
    session.rows <+: m.counted m.output rows ∧
      (session.Ended → session.rows = m.counted m.output rows) := by
  have hstart : opened.EmitsOutput m.rule (m.counted m.output rows) [] :=
    ⟨rule_of_openOn hopen, hasUsed_of_openOn hreads hopen⟩
  obtain ⟨⟨last, hlast⟩, hended⟩ :=
    run_of_keeps (keeps_emitsOutput hkeeps hsupports _) hopen hstart steps
  exact ⟨hlast.hasUsed.isPrefix, hended⟩

/-- **Outer joins keep their output side.**  Take an accepted intersection
(`IntersectionRequest.supports_of_build`) that keeps the unmatched rows of its output side, over
inputs of any kind, with any comparison, and with or without the check of the order.  If its rows
can be collected, then they are the rows of the output side that count.  In any session with it,
whatever requests fail, the rows returned so far begin these rows, and they are all of them once it
has said that there are no more. -/
theorem rows_of_outer_join {stores : Stores} {rows : List Row} (hkeeps : m.join.keepsUnmatched)
    (hsupports : m.join.supports m.output) (hreads : m.Reads stores context m.output rows) :
    (∀ collected, (Cursor.collect stores context m).result = .ok collected →
        collected = m.counted m.output rows) ∧
      ∀ opened events, Cursor.openOn stores context m = ⟨.ok (), opened, events⟩ →
        ∀ steps : List SessionStep,
          let session := Session.run ⟨stores, opened, []⟩ steps
          session.rows <+: m.counted m.output rows ∧
            (session.Ended → session.rows = m.counted m.output rows) := by
  constructor
  · intro collected hcollect
    obtain ⟨opened, events, hopen, steps, rfl, hended⟩ := Session.exists_run_of_collect hcollect
    exact (isPrefix_of_outer_join hkeeps hsupports hreads hopen steps).2 hended
  · intro opened events hopen steps
    exact isPrefix_of_outer_join hkeeps hsupports hreads hopen steps

end Intersection

namespace IntersectionRequest

/-- Numbers in no order, with a row of another type among them. -/
def scrambled : InputRequest RowsCursor where
  cursor := .ofRows (.derived "number" [.int])
    [⟨.derived "number" [.int], [.int 7]⟩,
      ⟨.derived "number" [.int], [.int 3]⟩,
      ⟨.derived "note" [], []⟩,
      ⟨.derived "number" [.int], [.int 5]⟩,
      ⟨.derived "number" [.int], [.int 5]⟩]
  rowType := .derived "number" [.int]
  orderingFields := 1

/-- Named numbers in another order. -/
def named : InputRequest RowsCursor where
  cursor := .ofRows (.derived "named" [.text, .int])
    [⟨.derived "named" [.text, .int], [.text "a", .int 5]⟩,
      ⟨.derived "named" [.text, .int], [.text "b", .int 9]⟩,
      ⟨.derived "named" [.text, .int], [.text "c", .int 4]⟩]
  rowType := .derived "named" [.text, .int]
  orderingFields := 1

/-- A context without the check of the order. -/
def unchecked : QueryContext :=
  .ofConfig { ExecutionConfig.standard with checkInputOrder := false }

/-- Without the check all numbers are collected.  With it the second one fails, and a session has
returned the first. -/
theorem rows_of_outer_join_scrambled :
    build ⟨some scrambled, some named, 1, [.asc], some (.left, .left)⟩ =
        .ok (made scrambled named [.asc] .left .left) ∧
      (∃ collected, (Cursor.collect (fun _ => .empty) unchecked
            (made scrambled named [.asc] .left .left)).result = .ok collected ∧
          collected = scrambled.counted scrambled.cursor.rows) ∧
      ∃ opened events,
        Cursor.openOn (fun _ => .empty) .standard (made scrambled named [.asc] .left .left) =
            ⟨.ok (), opened, events⟩ ∧
          (Session.run ⟨fun _ => .empty, opened, []⟩
            [.advance .standard, .advance .standard, .advance .standard]).rows.length = 1 ∧
          (Session.run ⟨fun _ => .empty, opened, []⟩
            [.advance .standard, .advance .standard, .advance .standard]).rows <+:
              scrambled.counted scrambled.cursor.rows := by
  have hbuild : build ⟨some scrambled, some named, 1, [.asc], some (.left, .left)⟩ =
      .ok (made scrambled named [.asc] .left .left) := rfl
  have hreads : ∀ context, (made scrambled named [.asc] .left .left).Reads (fun _ => .empty) context
      .left scrambled.cursor.rows :=
    fun context => RowsCursor.provides_of_openOn _ context scrambled.cursor
  have hcollect : (Cursor.collect (fun _ => .empty) unchecked
      (made scrambled named [.asc] .left .left)).result =
        .ok [⟨.derived "number" [.int], [.int 7]⟩, ⟨.derived "number" [.int], [.int 3]⟩,
          ⟨.derived "number" [.int], [.int 5]⟩, ⟨.derived "number" [.int], [.int 5]⟩] := by
    decide +kernel
  have hsupports := supports_of_build hbuild
  have hunchecked := (Intersection.rows_of_outer_join rfl hsupports (hreads unchecked)).1 _ hcollect
  have hchecked := (Intersection.rows_of_outer_join rfl hsupports (hreads .standard)).2 _ _ rfl
    [.advance .standard, .advance .standard, .advance .standard]
  exact ⟨hbuild, ⟨_, hcollect, hunchecked⟩, _, _, rfl, by decide +kernel, hchecked.1⟩

end IntersectionRequest

end TableGroups
