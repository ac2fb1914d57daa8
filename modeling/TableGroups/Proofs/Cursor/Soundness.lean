import Mathlib.Logic.Function.Basic
import TableGroups.Cursor.Rows
import TableGroups.Proofs.Cursor.Invariant

/-!
# Intersections are sound on arbitrary inputs

Nothing is asked of the inputs of an intersection but that they are cursors: their rows may be of
any type, in any order, of values that cannot be compared, and any call may fail.  With the check of
the order, what has been emitted is sound at any time (`rows_sound_of_openOn`): it is a sublist of
the rows of the output side that count, no row comes before an earlier one, and the rows of an inner
join have partners.

The check compares a row with the one used up before it.  That orders the rows of a side that were
used up from row to row (`Ordered`), hence any two of them, since a comparison that succeeds twice
succeeds across (`KeyComparator.Ascending.pairwise`), and the emitted rows are some of these.
-/

namespace TableGroups

namespace Intersection

variable {L R : Type} [Cursor L] [Cursor R] {context : QueryContext} {m filled : Intersection L R}
  {events : List Event} {side taken : Side} {row : Row}

/-- The side has used up these rows, and they ascend, also with the row in hand. -/
def Ordered (m : Intersection L R) (side : Side) (used : List Row) : Prop :=
  match side with
  | .left => m.left.Ordered m.comparator used
  | .right => m.right.Ordered m.comparator used

/-- What each side has used up of its rows that count, if the order is checked. -/
structure Stage (m : Intersection L R) (rows used : Side → List Row) : Prop where
  check : m.checkOrder = true
  hasUsed : ∀ side, m.HasUsed side (used side) (rows side)
  ordered : ∀ side, m.Ordered side (used side)

section

variable {rows used : Side → List Row}

theorem Stage.fill (h : m.Stage rows used) (hfill : m.fill context = ⟨.ok (), filled, events⟩) :
    filled.Stage rows used := by
  obtain ⟨hrule, hcheck, -⟩ := frame_of_fill hfill
  obtain ⟨_, _, _, _, hleft, hright, -⟩ := exists_of_fill hfill
  refine ⟨hcheck.trans h.check, fun side => ((h.hasUsed side).fill hfill).1, fun side => ?_⟩
  have hcomparator : filled.comparator = m.comparator := congrArg MergeRule.comparator hrule
  rw [h.check] at hleft hright
  cases side with
  | left =>
    have hordered : filled.left.Ordered m.comparator (used .left) :=
      (h.ordered .left).fill hleft
    rwa [← hcomparator] at hordered
  | right =>
    have hordered : filled.right.Ordered m.comparator (used .right) :=
      (h.ordered .right).fill hright
    rwa [← hcomparator] at hordered

/-- Using up the row in hand on a side adds it to the rows that the side has used up. -/
theorem Stage.take (h : m.Stage rows used) (hhand : m.lookahead taken = some row) :
    (m.take taken).Stage rows (Function.update used taken (used taken ++ [row])) := by
  have hcheck : (m.take taken).checkOrder = true := by
    cases taken <;> exact h.check
  refine ⟨hcheck, fun side => ?_, fun side => ?_⟩
  · by_cases hside : side = taken
    · subst hside
      rw [Function.update_self]
      exact (h.hasUsed side).take_self hhand
    · rw [Function.update_of_ne hside]
      exact (h.hasUsed side).take_of_ne (Ne.symm hside)
  · by_cases hside : side = taken
    · subst hside
      rw [Function.update_self]
      cases side with
      | left => exact (h.ordered .left).take hhand
      | right => exact (h.ordered .right).take hhand
    · rw [Function.update_of_ne hside]
      have hordered := h.ordered side
      cases side <;> cases taken <;> first | exact hordered | exact absurd rfl hside

theorem Stage.withStats (h : m.Stage rows used) (stats : MergeStats) :
    { m with stats }.Stage rows used := by
  refine ⟨h.check, h.hasUsed, fun side => ?_⟩
  have hordered := h.ordered side
  cases side <;> exact hordered

theorem Stage.emit (h : m.Stage rows used) (hhand : m.lookahead taken = some row) (isMatch : Bool) :
    (m.emit taken isMatch).Stage rows (Function.update used taken (used taken ++ [row])) := by
  cases isMatch <;> exact (h.take hhand).withStats _

/-- The rows that a side has used up ascend. -/
theorem Stage.pairwise (h : m.Stage rows used) (side : Side) :
    (used side).Pairwise fun e f =>
      m.comparator.NotAfter e.values (m.offset side) f.values (m.offset side) := by
  have hordered := h.ordered side
  cases side with
  | left => exact (List.pairwise_append.mp hordered.ascending.pairwise).1
  | right => exact (List.pairwise_append.mp hordered.ascending.pairwise).1

end

/-! ### Partners -/

/-- A row of the output side and one of the other side have equal keys. -/
def Partners (m : Intersection L R) (row partner : Row) : Prop :=
  m.comparator.compareRuns row.values (m.offset m.output) partner.values
    (m.offset m.output.other) = .ok .eq

omit [Cursor L] [Cursor R] in
theorem partners_eq_of_rule_eq {m' : Intersection L R} (h : m.rule = m'.rule) :
    m.Partners = m'.Partners := by
  have hcomparator : m.comparator = m'.comparator := congrArg MergeRule.comparator h
  have houtput : m.output = m'.output := congrArg MergeRule.output h
  have hoffset : m.offset = m'.offset := funext (offset_eq_of_rule_eq h)
  unfold Partners
  rw [hcomparator, houtput, hoffset]

omit [Cursor L] [Cursor R] in
/-- An inner join emits a row while a partner is in hand on the other side. -/
theorem exists_partner_of_emit {isMatch : Bool} (hinner : m.join = .inner)
    (hverdict : m.verdict = .ok (.emit m.output isMatch))
    (hhand : m.lookahead m.output = some row) :
    ∃ partner, m.lookahead m.output.other = some partner ∧ m.Partners row partner := by
  obtain ⟨l, r, hl, hr, heq⟩ := partners_of_emit hinner hverdict
  unfold Partners
  cases houtput : m.output with
  | left =>
    rw [houtput] at hhand
    obtain rfl : l = row := Option.some.inj (hl.symm.trans hhand)
    exact ⟨r, hr, heq⟩
  | right =>
    rw [houtput] at hhand
    obtain rfl : r = row := Option.some.inj (hr.symm.trans hhand)
    exact ⟨l, hl, KeyComparator.compareRuns_swap heq⟩

/-! ### What has been emitted -/

/-- What an intersection with the rule of `start` has emitted of the rows that count on each
side. -/
structure Sound (start : Intersection L R) (rows : Side → List Row) (emitted : List Row)
    (m : Intersection L R) : Prop where
  follows : m.rule = start.rule
  stage : ∃ used, m.Stage rows used ∧ emitted.Sublist (used start.output)
  partners : start.join = .inner →
    ∀ row ∈ emitted, ∃ partner ∈ rows start.output.other, start.Partners row partner

section

variable {start : Intersection L R} {rows : Side → List Row} {emitted : List Row}

theorem Sound.fill (h : Sound start rows emitted m)
    (hfill : m.fill context = ⟨.ok (), filled, events⟩) : Sound start rows emitted filled := by
  obtain ⟨used, hstage, hsublist⟩ := h.stage
  exact ⟨(frame_of_fill hfill).1.trans h.follows, ⟨used, hstage.fill hfill, hsublist⟩, h.partners⟩

/-- A row that is dropped is used up and not emitted. -/
theorem Sound.discard (h : Sound start rows emitted m)
    (hverdict : m.verdict = .ok (.discard side)) : Sound start rows emitted (m.discard side) := by
  obtain ⟨used, hstage, hsublist⟩ := h.stage
  obtain ⟨row, hhand⟩ := lookahead_of_discard hverdict
  refine ⟨(m.rule_discard side).trans h.follows,
    ⟨_, (hstage.take hhand).withStats _, hsublist.trans ?_⟩, h.partners⟩
  by_cases hside : start.output = side
  · subst hside
    rw [Function.update_self]
    exact List.sublist_append_left _ _
  · rw [Function.update_of_ne hside]

/-- A row that is emitted is used up on the output side, and in an inner join it has a partner. -/
theorem Sound.emit {isMatch : Bool} (hsupports : start.join.supports start.output)
    (h : Sound start rows emitted m) (hverdict : m.verdict = .ok (.emit side isMatch))
    (hhand : m.lookahead side = some row) :
    Sound start rows (emitted ++ [row]) (m.emit side isMatch) := by
  have hjoin : m.join = start.join := congrArg MergeRule.join h.follows
  have houtput : m.output = start.output := congrArg MergeRule.output h.follows
  obtain ⟨used, hstage, hsublist⟩ := h.stage
  rw [← hjoin, ← houtput] at hsupports
  obtain rfl : side = m.output := eq_output_of_emit hsupports hverdict
  refine ⟨(m.rule_emit _ _).trans h.follows, ⟨_, hstage.emit hhand isMatch, ?_⟩,
    fun hinner e he => ?_⟩
  · rw [houtput, Function.update_self]
    exact hsublist.append (List.Sublist.refl _)
  · rcases List.mem_append.mp he with he | he
    · exact h.partners hinner e he
    · obtain rfl := List.mem_singleton.mp he
      obtain ⟨partner, hpartner, hequal⟩ :=
        exists_partner_of_emit (hjoin.trans hinner) hverdict hhand
      rw [partners_eq_of_rule_eq h.follows] at hequal
      rw [← houtput]
      exact ⟨partner, (hstage.hasUsed _).mem_of_lookahead hpartner, hequal⟩

theorem keeps_sound (hsupports : start.join.supports start.output) (rows : Side → List Row) :
    Keeps (Sound start rows) (fun _ => True) where
  stats stats h := by
    obtain ⟨used, hstage, hsublist⟩ := h.stage
    exact ⟨h.follows, ⟨used, hstage.withStats stats, hsublist⟩, h.partners⟩
  row := by
    intro context emitted m after row events h hcall
    have hrequested : Requested (Sound start rows emitted) (m.nextRow context) :=
      Requested.nextRow (fun _ _ _ hm hfill => hm.fill hfill)
        (fun _ _ hfilled hverdict => hfilled.discard hverdict) h
    rw [hcall] at hrequested
    cases hrequested with
    | failed hresult => cases hresult
    | finished _ _ hresult => cases hresult
    | emitted hlast hverdict hhand hresult hcursor =>
      cases hresult
      dsimp only at hcursor
      rw [hcursor]
      exact hlast.emit hsupports hverdict hhand
  ended _ _ := trivial

end

/-- **Intersections are sound on arbitrary inputs.**  Take an accepted intersection
(`IntersectionRequest.supports_of_build`) that is opened with the check of the order, over inputs
that provide any rows at all.  In any session with it, whatever requests fail, the rows returned so
far are a sublist of the rows of the output side that count.  The keys of any two of them can be
compared and do not come in the wrong order.  If the join is inner, each of them has the key of a
row of the other side that counts. -/
theorem rows_sound_of_openOn {stores : Stores} {opened : Intersection L R}
    {streams : Side → List Row} (hsupports : m.join.supports m.output)
    (hcheck : context.config.checkInputOrder = true)
    (hreads : ∀ side, m.Reads stores context side (streams side))
    (hopen : Cursor.openOn stores context m = ⟨.ok (), opened, events⟩)
    (steps : List SessionStep) :
    let emitted := (Session.run ⟨stores, opened, []⟩ steps).rows
    emitted.Sublist (m.counted m.output (streams m.output)) ∧
      (emitted.Pairwise fun e f =>
        m.comparator.NotAfter e.values (m.offset m.output) f.values (m.offset m.output)) ∧
      (m.join = .inner → ∀ e ∈ emitted,
        ∃ partner ∈ m.counted m.output.other (streams m.output.other),
          m.comparator.compareRuns e.values (m.offset m.output) partner.values
            (m.offset m.output.other) = .ok .eq) := by
  intro emitted
  have hstart : Sound m (fun side => m.counted side (streams side)) [] opened := by
    have hused : ∀ side, opened.HasUsed side [] (m.counted side (streams side)) :=
      fun side => hasUsed_of_openOn (hreads side) hopen
    refine ⟨rule_of_openOn hopen, ⟨fun _ => [], ⟨?_, hused, ?_⟩, List.Sublist.refl _⟩, by simp⟩
    · obtain ⟨_, _, _, _, _, _, rfl⟩ := exists_of_openOn hopen
      exact hcheck
    · obtain ⟨_, _, _, _, _, _, rfl⟩ := exists_of_openOn hopen
      rintro (_ | _)
      · exact ⟨rfl, List.isChain_nil⟩
      · exact ⟨rfl, List.isChain_nil⟩
  obtain ⟨⟨last, hlast⟩, -⟩ := run_of_keeps (keeps_sound hsupports _) hopen hstart steps
  obtain ⟨used, hstage, hsublist⟩ := hlast.stage
  refine ⟨hsublist.trans (hstage.hasUsed _).isPrefix.sublist, ?_, hlast.partners⟩
  have hcomparator : last.comparator = m.comparator := congrArg MergeRule.comparator hlast.follows
  have hpairwise := (hstage.pairwise m.output).sublist hsublist
  rw [hcomparator, offset_eq_of_rule_eq hlast.follows] at hpairwise
  exact hpairwise

end Intersection

namespace IntersectionRequest

/-- Values of any kind, with a row of another type among them. -/
def anyValues (name : String) (values : List Value) : InputRequest RowsCursor where
  cursor := .ofRows (.derived name [.any])
    (⟨.derived "note" [], []⟩ :: values.map fun value => ⟨.derived name [.any], [value]⟩)
  rowType := .derived name [.any]
  orderingFields := 1

/-- Values that ascend as long as they can be compared, and values that do not. -/
def uneven : Intersection RowsCursor RowsCursor :=
  made (anyValues "left" [.int 3, .int 5, .int 4])
    (anyValues "right" [.int 3, .int 3, .int 4, .int 5, .text "a", .int 1]) [.asc] .inner .right

/-- Three rows are returned before the text is met, which cannot be compared with a number. -/
theorem rows_sound_uneven :
    build ⟨some (anyValues "left" [.int 3, .int 5, .int 4]),
        some (anyValues "right" [.int 3, .int 3, .int 4, .int 5, .text "a", .int 1]), 1, [.asc],
        some (.inner, .right)⟩ = .ok uneven ∧
      ∃ opened events, Cursor.openOn (fun _ => .empty) .standard uneven =
          ⟨.ok (), opened, events⟩ ∧
        let session := Session.run ⟨fun _ => .empty, opened, []⟩ (.replicate 5 (.advance .standard))
        session.rows.map (·.values) = [[.int 3], [.int 3], [.int 5]] ∧
          session.answers[3]? =
            some (.error (.comparison (.incomparable (.int 5) (.text "a")))) ∧
          (session.rows.Pairwise fun e f =>
            KeyComparator.NotAfter ⟨[.asc]⟩ e.values 0 f.values 0) ∧
          ∀ e ∈ session.rows, ∃ partner ∈ uneven.counted .left uneven.left.cursor.rows,
            KeyComparator.compareRuns ⟨[.asc]⟩ e.values 0 partner.values 0 = .ok .eq := by
  have hbuild : build ⟨some (anyValues "left" [.int 3, .int 5, .int 4]),
      some (anyValues "right" [.int 3, .int 3, .int 4, .int 5, .text "a", .int 1]), 1, [.asc],
      some (.inner, .right)⟩ = .ok uneven := rfl
  have hreads : ∀ side, uneven.Reads (fun _ => .empty) .standard side
      (side.select uneven.left.cursor.rows uneven.right.cursor.rows) := by
    rintro (_ | _)
    · exact RowsCursor.provides_of_openOn _ _ uneven.left.cursor
    · exact RowsCursor.provides_of_openOn _ _ uneven.right.cursor
  obtain ⟨-, hpairwise, hpartners⟩ := Intersection.rows_sound_of_openOn
    (supports_of_build hbuild) rfl hreads rfl (.replicate 5 (.advance .standard))
  exact ⟨hbuild, _, _, rfl, by decide +kernel, by decide +kernel, hpairwise, hpartners rfl⟩

end IntersectionRequest

end TableGroups
