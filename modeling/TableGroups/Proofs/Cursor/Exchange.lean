import TableGroups.Proofs.Cursor.Semijoin
import TableGroups.Proofs.Cursor.Simulation

/-!
# Left and right exchanged

An intersection says everything twice, once for each side: which row is dropped, which join keeps
it, whose row is emitted, and which input is asked first.  `Intersection.swap` exchanges the sides,
and with them the join and the output.  It makes no difference to what is emitted
(`IntersectionRequest.emits_mirrored`): the same rows come in the same order, a request fails if and
only if it fails with the sides exchanged, and the same rows were matched and dropped.

Two calls correspond if both fail or both give one answer and leave cursors with exchanged sides
(`Call.Corresponds`).  Which input is asked first decides no more than which of two failures is
seen, so filling corresponds (`fill_swap`).  The verdicts correspond because a comparison with its
arguments exchanged fails alike and has the opposite outcome (`verdict_swap`).  From there the rows
of the merge correspond by induction along the merge (`nextRow_swap`), and sessions by induction on
their steps.
-/

namespace TableGroups

/-- Both calls fail, or both give one answer and the map takes one cursor to the other. -/
inductive Call.Corresponds {γ δ α : Type} (f : γ → δ) (call : Call γ α) (call' : Call δ α) :
    Prop where
  | failed {e e' : CursorError} (hresult : call.result = .error e)
      (hresult' : call'.result = .error e')
  | answered {answer : α} (hresult : call.result = .ok answer)
      (hresult' : call'.result = .ok answer) (hcursor : call'.cursor = f call.cursor)

namespace Call.Corresponds

variable {γ δ α : Type} {f : γ → δ} {call : Call γ α} {call' : Call δ α} {after : γ}
  {events : List Event}

theorem exists_of_error {e : CursorError} (h : Corresponds f call call')
    (hcall : call = ⟨.error e, after, events⟩) :
    ∃ e' after' events', call' = ⟨.error e', after', events'⟩ := by
  obtain ⟨result', after', events'⟩ := call'
  subst hcall
  cases h with
  | failed _ hresult' => exact ⟨_, after', events', congrArg (Call.mk · after' events') hresult'⟩
  | answered hresult _ _ => cases hresult

theorem exists_of_ok {answer : α} (h : Corresponds f call call')
    (hcall : call = ⟨.ok answer, after, events⟩) :
    ∃ events', call' = ⟨.ok answer, f after, events'⟩ := by
  obtain ⟨result', after', events'⟩ := call'
  subst hcall
  cases h with
  | failed hresult _ => cases hresult
  | answered hresult hresult' hcursor =>
    cases hresult
    exact ⟨events', congrArg₂ (Call.mk · · events') hresult' hcursor⟩

theorem toOption_eq (h : Corresponds f call call') :
    call'.result.toOption = call.result.toOption := by
  cases h with
  | failed hresult hresult' => rw [hresult, hresult']; rfl
  | answered hresult hresult' _ => rw [hresult, hresult']

end Call.Corresponds

/-! ### Inputs -/

theorem KeyComparator.compareRuns_error_swap {comparator : KeyComparator} {l r : List Value}
    {i j : Nat} {e : ComparisonError} (h : comparator.compareRuns l i r j = .error e) :
    ∃ e', comparator.compareRuns r j l i = .error e' := by
  rw [compareRuns_comm, h]
  exact ⟨e.swap, rfl⟩

theorem Input.checkOrder_of_side {γ : Type} {input : Input γ} {side : Side}
    {comparator : KeyComparator} {row : Row} (side' : Side)
    (h : input.checkOrder side comparator row = .ok ()) :
    input.checkOrder side' comparator row = .ok () := by
  unfold checkOrder at h ⊢
  cases hlast : input.last with
  | none => rfl
  | some previous =>
    rw [hlast] at h
    dsimp only at h ⊢
    split at h
    · cases h
    · cases h
    · rfl

/-- Which side an input is on shows in its failures only. -/
theorem Input.fill_side {γ : Type} [Cursor γ] (context : QueryContext) (side side' : Side)
    (comparator : KeyComparator) (check : Bool) (input : Input γ) :
    (input.fill context side comparator check).Corresponds id
      (input.fill context side' comparator check) := by
  fun_induction Input.fill context side comparator check input with
  | case1 input hdone =>
    rw [Input.fill, if_pos hdone]
    exact .answered rfl rfl rfl
  | case2 input hmore e cursor events hstep =>
    rw [fill_of_error input hmore hstep]
    exact .failed rfl rfl
  | case3 input hmore cursor events hstep =>
    rw [fill_of_none input hmore hstep]
    exact .answered rfl rfl rfl
  | case4 input hmore row cursor events hstep htype e haccept =>
    cases haccept' : if check then input.checkOrder side' comparator row else .ok () with
    | error e' =>
      rw [fill_of_refused input hmore hstep htype haccept']
      exact .failed rfl rfl
    | ok _ =>
      cases check with
      | false => cases haccept
      | true =>
        have hrefused : input.checkOrder side comparator row = .error e := haccept
        rw [checkOrder_of_side side haccept'] at hrefused
        cases hrefused
  | case5 input hmore row cursor events hstep htype haccept =>
    have haccept' : (if check then input.checkOrder side' comparator row else .ok ()) =
        .ok () := by
      cases check with
      | false => rfl
      | true => exact checkOrder_of_side side' haccept
    rw [fill_of_accepted input hmore hstep htype haccept']
    exact .answered rfl rfl rfl
  | case6 input hmore row cursor events hstep htype rest ih =>
    rw [fill_of_foreign input hmore hstep htype]
    cases ih with
    | failed hresult hresult' =>
      exact .failed (congrArg (Except.map (· + 1)) hresult) (congrArg (Except.map (· + 1)) hresult')
    | answered hresult hresult' hcursor =>
      exact .answered (congrArg (Except.map (· + 1)) hresult)
        (congrArg (Except.map (· + 1)) hresult') hcursor

/-! ### Exchanging the sides -/

/-- The join with the roles of the sides exchanged. -/
def JoinType.mirror : JoinType → JoinType
  | .inner => .inner
  | .left => .right
  | .right => .left
  | .full => .full

/-- The verdict with the sides exchanged. -/
def Verdict.mirror : Verdict → Verdict
  | .finished => .finished
  | .emit side isMatch => .emit side.other isMatch
  | .discard side => .discard side.other

/-- What becomes of the left row if it is the lower one. -/
theorem Verdict.mirror_left (join : JoinType) :
    (if join = .left then emit .left false else discard .left).mirror =
      if join.mirror = .right then emit .right false else discard .right := by
  cases join <;> rfl

/-- What becomes of the right row if it is the lower one. -/
theorem Verdict.mirror_right (join : JoinType) :
    (if join = .right then emit .right false else discard .right).mirror =
      if join.mirror = .left then emit .left false else discard .left := by
  cases join <;> rfl

namespace Intersection

variable {L R : Type}

/-- The intersection with its sides exchanged. -/
def swap (m : Intersection L R) : Intersection R L where
  left := m.right
  right := m.left
  comparator := m.comparator
  join := m.join.mirror
  output := m.output.other
  checkOrder := m.checkOrder
  stats := m.stats
  lifecycle := m.lifecycle

@[simp] theorem lookahead_swap (m : Intersection L R) (side : Side) :
    m.swap.lookahead side.other = m.lookahead side := by
  cases side <;> rfl

theorem take_swap (m : Intersection L R) (side : Side) :
    m.swap.take side.other = (m.take side).swap := by
  cases side <;> rfl

theorem emit_swap (m : Intersection L R) (side : Side) (isMatch : Bool) :
    m.swap.emit side.other isMatch = (m.emit side isMatch).swap := by
  cases isMatch <;> simp only [emit, take_swap] <;> rfl

theorem discard_swap (m : Intersection L R) (side : Side) :
    m.swap.discard side.other = (m.discard side).swap := by
  simp only [discard, take_swap]
  rfl

/-- With at most one row in hand, only a join that keeps unmatched rows goes on. -/
theorem verdict_of_none {m : Intersection L R}
    (h : m.left.lookahead = none ∨ m.right.lookahead = none) :
    m.verdict =
      if m.join.keepsUnmatched && (m.lookahead m.output).isSome then .ok (.emit m.output false)
      else .ok .finished := by
  unfold verdict
  split
  · next hl hr => simp [hl, hr] at h
  · rfl

/-- The verdict with the sides exchanged fails too, or is the mirrored one. -/
theorem verdict_swap (m : Intersection L R) :
    (∃ e e', m.verdict = .error e ∧ m.swap.verdict = .error e') ∨
      ∃ verdict, m.verdict = .ok verdict ∧ m.swap.verdict = .ok verdict.mirror := by
  by_cases hnone : m.left.lookahead = none ∨ m.right.lookahead = none
  · right
    have hkeeps : m.swap.join.keepsUnmatched = m.join.keepsUnmatched := by
      show m.join.mirror.keepsUnmatched = m.join.keepsUnmatched
      cases m.join <;> rfl
    have hhand : m.swap.lookahead m.swap.output = m.lookahead m.output := m.lookahead_swap m.output
    rw [verdict_of_none hnone, verdict_of_none (m := m.swap) hnone.symm, hkeeps, hhand]
    split
    · exact ⟨_, rfl, rfl⟩
    · exact ⟨_, rfl, rfl⟩
  · rw [not_or, ← ne_eq, ← ne_eq, Option.ne_none_iff_exists', Option.ne_none_iff_exists'] at hnone
    obtain ⟨⟨l, hl⟩, ⟨r, hr⟩⟩ := hnone
    rw [verdict_of_some hl hr, verdict_of_some (m := m.swap) hr hl]
    simp only [rule, swap]
    cases hcompare : m.comparator.compareRuns l.values m.left.offset r.values m.right.offset with
    | error e =>
      obtain ⟨e', hcompare'⟩ := KeyComparator.compareRuns_error_swap hcompare
      rw [hcompare']
      exact .inl ⟨e, e', rfl, rfl⟩
    | ok o =>
      right
      rw [KeyComparator.compareRuns_swap hcompare]
      cases o with
      | eq => exact ⟨_, rfl, rfl⟩
      | lt => exact ⟨_, rfl, congrArg Except.ok (Verdict.mirror_left m.join).symm⟩
      | gt => exact ⟨_, rfl, congrArg Except.ok (Verdict.mirror_right m.join).symm⟩

theorem verdict_swap_of_ok {m : Intersection L R} {verdict : Verdict}
    (h : m.verdict = .ok verdict) : m.swap.verdict = .ok verdict.mirror := by
  rcases m.verdict_swap with ⟨e, _, herror, -⟩ | ⟨verdict', hok, hmirror⟩
  · rw [h] at herror
    cases herror
  · rw [h] at hok
    cases hok
    exact hmirror

variable [Cursor L] [Cursor R] {context : QueryContext}

/-- Which side is filled first decides which of two failures is seen, and nothing else. -/
theorem fill_swap (context : QueryContext) (m : Intersection L R) :
    (m.fill context).Corresponds swap (m.swap.fill context) := by
  have hleft := m.left.fill_side context .left .right m.comparator m.checkOrder
  have hright := m.right.fill_side context .right .left m.comparator m.checkOrder
  -- both inputs are filled from where they stand, whichever comes first
  unfold fill
  simp only [swap]
  cases hl : m.left.fill context .left m.comparator m.checkOrder with
  | mk leftResult left leftEvents =>
  cases hr : m.right.fill context .right m.comparator m.checkOrder with
  | mk rightResult right rightEvents =>
  cases leftResult with
  | error e =>
    obtain ⟨e', left', leftEvents', hl'⟩ := hleft.exists_of_error hl
    rw [hl']
    cases m.right.fill context .left m.comparator m.checkOrder with
    | mk result right' rightEvents' =>
    cases result with
    | error e'' => exact .failed rfl rfl
    | ok passed => exact .failed rfl rfl
  | ok leftPassed =>
    cases rightResult with
    | error e =>
      obtain ⟨e', right', rightEvents', hr'⟩ := hright.exists_of_error hr
      rw [hr']
      exact .failed rfl rfl
    | ok rightPassed =>
      obtain ⟨leftEvents', hl'⟩ := hleft.exists_of_ok hl
      obtain ⟨rightEvents', hr'⟩ := hright.exists_of_ok hr
      rw [hl', hr']
      refine .answered rfl rfl ?_
      simp only [swap, id, Nat.add_comm rightPassed leftPassed]

theorem nextRow_swap (context : QueryContext) (m : Intersection L R) :
    (m.nextRow context).Corresponds swap (m.swap.nextRow context) := by
  fun_induction Intersection.nextRow context m with
  | case1 m e filled events hstep =>
    obtain ⟨e', filled', events', hstep'⟩ := (m.fill_swap context).exists_of_error hstep
    rw [nextRow_of_fill_error hstep']
    exact .failed rfl rfl
  | case2 m filled events hstep e hverdict =>
    obtain ⟨events', hstep'⟩ := (m.fill_swap context).exists_of_ok hstep
    rcases filled.verdict_swap with ⟨_, e', -, hverdict'⟩ | ⟨verdict, hok, -⟩
    · rw [nextRow_of_verdict_error hstep' hverdict']
      exact .failed rfl rfl
    · rw [hverdict] at hok
      cases hok
  | case3 m filled events hstep hverdict =>
    obtain ⟨events', hstep'⟩ := (m.fill_swap context).exists_of_ok hstep
    rw [nextRow_of_finished hstep' (verdict_swap_of_ok hverdict)]
    exact .answered rfl rfl rfl
  | case4 m filled events hstep side isMatch hverdict =>
    obtain ⟨events', hstep'⟩ := (m.fill_swap context).exists_of_ok hstep
    rw [nextRow_of_emit hstep' (verdict_swap_of_ok hverdict), lookahead_swap, emit_swap]
    exact .answered rfl rfl rfl
  | case5 m filled events hstep side hverdict rest ih =>
    obtain ⟨events', hstep'⟩ := (m.fill_swap context).exists_of_ok hstep
    rw [nextRow_of_discard hstep' (verdict_swap_of_ok hverdict), discard_swap]
    cases ih with
    | failed hresult hresult' => exact .failed hresult hresult'
    | answered hresult hresult' hcursor => exact .answered hresult hresult' hcursor

/-! ### The protocol -/

theorem openOn_swap (stores : Stores) (context : QueryContext) (m : Intersection L R) :
    (Cursor.openOn stores context m).Corresponds swap (Cursor.openOn stores context m.swap) := by
  show (m.openOn stores context).Corresponds swap (m.swap.openOn stores context)
  unfold openOn
  have hstart : m.swap.lifecycle.start .intersection context =
      m.lifecycle.start .intersection context := rfl
  rw [hstart]
  cases m.lifecycle.start .intersection context with
  | error e => exact .failed rfl rfl
  | ok lifecycle =>
    simp only [swap, Input.reset]
    cases Cursor.openOn stores context m.left.cursor with
    | mk leftResult left leftEvents =>
    cases Cursor.openOn stores context m.right.cursor with
    | mk rightResult right rightEvents =>
    cases leftResult with
    | error e => cases rightResult <;> exact .failed rfl rfl
    | ok _ =>
      cases rightResult with
      | error e => exact .failed rfl rfl
      | ok _ => exact .answered rfl rfl rfl

theorem advance_swap (context : QueryContext) (m : Intersection L R) :
    (Cursor.advance context m).Corresponds swap (Cursor.advance context m.swap) := by
  show (m.advance context).Corresponds swap (m.swap.advance context)
  unfold advance
  have hgate : m.swap.lifecycle.gate .intersection = m.lifecycle.gate .intersection := rfl
  rw [hgate]
  cases m.lifecycle.gate .intersection with
  | error e => exact .failed rfl rfl
  | ok active =>
    cases context.interruption? with
    | some reason => exact .failed rfl rfl
    | none =>
      cases active with
      | false => exact .answered rfl rfl rfl
      | true =>
        simp only [if_true]
        cases hcall : m.nextRow context with
        | mk result after events =>
        cases result with
        | error e =>
          obtain ⟨e', after', events', hcall'⟩ := (m.nextRow_swap context).exists_of_error hcall
          rw [hcall']
          exact .failed rfl rfl
        | ok answer =>
          obtain ⟨events', hcall'⟩ := (m.nextRow_swap context).exists_of_ok hcall
          rw [hcall']
          cases answer <;> exact .answered rfl rfl rfl

/-- With the sides exchanged, closing tells the same of the merge after what the inputs tell. -/
theorem close_swap (m : Intersection L R) :
    ∃ own, (Cursor.close m).2 =
        (Cursor.close m.left.cursor).2 ++ (Cursor.close m.right.cursor).2 ++ own ∧
      (Cursor.close m.swap).2 =
        (Cursor.close m.right.cursor).2 ++ (Cursor.close m.left.cursor).2 ++ own :=
  ⟨_, rfl, rfl⟩

/-! ### Sessions -/

/-- The two sessions got the same answers, apart from which failures they saw.  The one cursor is
the other with its sides exchanged, unless a failure has closed both. -/
structure Mirrored (session : Session (Intersection L R)) (session' : Session (Intersection R L)) :
    Prop where
  answers : session'.answers.map Except.toOption = session.answers.map Except.toOption
  cursor : session'.cursor = session.cursor.swap ∨
    session.cursor.lifecycle.state = .closed ∧ session'.cursor.lifecycle.state = .closed ∧
      ∃ e, .error e ∈ session.answers

section

variable {session : Session (Intersection L R)} {session' : Session (Intersection R L)}

theorem Mirrored.step (h : Mirrored session session') (step : SessionStep) :
    Mirrored (session.step step) (session'.step step) := by
  cases step with
  | change store call => exact ⟨h.answers, h.cursor⟩
  | advance context =>
    have hanswers (hsame : (Cursor.advance context session'.cursor).result.toOption =
        (Cursor.advance context session.cursor).result.toOption) :
        (session'.step (.advance context)).answers.map Except.toOption =
          (session.step (.advance context)).answers.map Except.toOption := by
      simp only [Session.step, List.map_append, h.answers, List.map_cons, hsame]
    rcases h.cursor with hswap | ⟨hclosed, hclosed', e, hfailed⟩
    · have hcall := session.cursor.advance_swap context
      rw [← hswap] at hcall
      refine ⟨hanswers hcall.toOption_eq, ?_⟩
      cases hcall with
      | answered _ _ hcursor => exact .inl hcursor
      | @failed e _ hresult hresult' =>
        refine .inr ⟨state_of_advance_error hresult, state_of_advance_error hresult', e, ?_⟩
        exact List.mem_append_right _ (List.mem_singleton.mpr hresult.symm)
    · -- what is closed stays closed, and both requests fail
      obtain ⟨_, hmisuse⟩ := followsProtocol.advance_of_closed context hclosed
      obtain ⟨_, hmisuse'⟩ := followsProtocol.advance_of_closed context hclosed'
      refine ⟨hanswers (by rw [hmisuse, hmisuse']; rfl), .inr ⟨?_, ?_, e, ?_⟩⟩
      · rwa [Session.cursor_step_advance, hmisuse]
      · rwa [Session.cursor_step_advance, hmisuse']
      · exact List.mem_append_left _ hfailed

theorem Mirrored.run (h : Mirrored session session') (steps : List SessionStep) :
    Mirrored (session.run steps) (session'.run steps) := by
  induction steps generalizing session session' with
  | nil => exact h
  | cons step rest ih => exact ih (h.step step)

omit [Cursor L] [Cursor R] in
theorem Mirrored.rows_eq (h : Mirrored session session') : session'.rows = session.rows := by
  have hrows {γ : Type} (session : Session γ) :
      session.rows = (session.answers.map Except.toOption).filterMap Option.join := by
    rw [List.filterMap_map]
    rfl
  rw [hrows, hrows, h.answers]

end

end Intersection

namespace IntersectionRequest

variable {L R : Type}

/-- The request with its sides exchanged. -/
def mirror (request : IntersectionRequest L R) : IntersectionRequest R L where
  left := request.right
  right := request.left
  comparisonFields := request.comparisonFields
  directions := request.directions
  join := request.join.map fun (join, output) => (join.mirror, output.other)

/-- A request that is accepted is accepted with its sides exchanged. -/
theorem build_mirror {request : IntersectionRequest L R} {m : Intersection L R}
    (h : request.build = .ok m) : request.mirror.build = .ok m.swap := by
  obtain ⟨_ | left, _ | right, fields, directions, _ | ⟨join, output⟩⟩ := request
  case some.some.some =>
    obtain ⟨hleft, hright, hcount, hordered, hfull, hsupports, rfl⟩ := build_eq_ok_iff.mp h
    refine build_eq_ok_iff.mpr ⟨hright, hleft, hcount, ?_, ?_, ?_, rfl⟩
    · rwa [Nat.min_comm]
    · cases join <;> simp [JoinType.mirror] at hfull ⊢
    · cases join <;> cases output <;>
        simp [JoinType.supports, JoinType.mirror, Side.other] at hsupports ⊢
  all_goals cases h

/-- **Left and right are symmetric.**  An intersection that is accepted is accepted with its inputs,
its join and its output exchanged.  The one opens if and only if the other does.  At every request
for a row both return the same row, both say that there are no more, or both fail, whatever failures
the inputs have and whether or not they are in order.  As long as no request fails both have matched
and dropped as many rows, and report it when they are closed. -/
theorem emits_mirrored [Cursor L] [Cursor R] {request : IntersectionRequest L R}
    {m : Intersection L R} (hbuild : request.build = .ok m) :
    request.mirror.build = .ok m.swap ∧
      ∀ (stores : Stores) (context : QueryContext),
        (Cursor.openOn stores context m.swap).result.toOption =
            (Cursor.openOn stores context m).result.toOption ∧
          ∀ opened events opened' events',
            Cursor.openOn stores context m = ⟨.ok (), opened, events⟩ →
            Cursor.openOn stores context m.swap = ⟨.ok (), opened', events'⟩ →
            ∀ steps : List SessionStep,
              let session := Session.run ⟨stores, opened, []⟩ steps
              let session' := Session.run ⟨stores, opened', []⟩ steps
              session'.rows = session.rows ∧
                session'.answers.map Except.toOption = session.answers.map Except.toOption ∧
                ((∀ answer ∈ session.answers, answer.isOk) →
                  session'.cursor.stats = session.cursor.stats ∧
                    ∃ own,
                      (Cursor.close session.cursor).2 =
                        (Cursor.close session.cursor.left.cursor).2 ++
                          (Cursor.close session.cursor.right.cursor).2 ++ own ∧
                      (Cursor.close session'.cursor).2 =
                        (Cursor.close session'.cursor.left.cursor).2 ++
                          (Cursor.close session'.cursor.right.cursor).2 ++ own) := by
  refine ⟨build_mirror hbuild, fun stores context => ?_⟩
  have hopenOn := m.openOn_swap stores context
  refine ⟨hopenOn.toOption_eq, fun opened events opened' events' hopen hopen' steps => ?_⟩
  intro session session'
  obtain ⟨_, hswap⟩ := hopenOn.exists_of_ok hopen
  rw [hopen'] at hswap
  cases hswap
  have hstart : Intersection.Mirrored ⟨stores, opened, []⟩ ⟨stores, opened.swap, []⟩ :=
    ⟨rfl, .inl rfl⟩
  have hmirrored : Intersection.Mirrored session session' := hstart.run steps
  refine ⟨hmirrored.rows_eq, hmirrored.answers, fun hanswers => ?_⟩
  rcases hmirrored.cursor with hcursor | ⟨-, -, e, hfailed⟩
  · rw [hcursor]
    exact ⟨rfl, session.cursor.close_swap⟩
  · cases hanswers _ hfailed

/-- Four rows are left in a left join, and as many are right in the mirrored one. -/
theorem emits_mirrored_sample :
    ∃ opened events opened' events',
      Cursor.openOn (fun _ => .empty) .standard (made sampleLeft sampleRight [.desc] .left .left) =
          ⟨.ok (), opened, events⟩ ∧
        Cursor.openOn (fun _ => .empty) .standard
            (made sampleRight sampleLeft [.desc] .right .right) = ⟨.ok (), opened', events'⟩ ∧
        let requests := List.replicate 5 (SessionStep.advance .standard)
        let session := Session.run ⟨fun _ => .empty, opened, []⟩ requests
        let session' := Session.run ⟨fun _ => .empty, opened', []⟩ requests
        session.rows.length = 4 ∧ session'.rows = session.rows ∧
          session.cursor.stats = ⟨4, 2, 2, 4⟩ ∧ session'.cursor.stats = session.cursor.stats := by
  have hbuild : build ⟨some sampleLeft, some sampleRight, 1, [.desc], some (.left, .left)⟩ =
      .ok (made sampleLeft sampleRight [.desc] .left .left) := rfl
  have hmirrored := ((emits_mirrored hbuild).2 (fun _ => .empty) .standard).2 _ _ _ _ rfl rfl
    (List.replicate 5 (.advance .standard))
  exact ⟨_, _, _, _, rfl, rfl, by decide +kernel, hmirrored.1, by decide +kernel,
    (hmirrored.2.2 (by decide +kernel)).1⟩

end IntersectionRequest

end TableGroups
