import Mathlib.Data.List.Chain
import TableGroups.Proofs.Cursor.Semijoin

/-!
# Merges read backwards

Turning every direction round swaps what a comparison of keys says and keeps its failures
(`compareRuns_reversed`).  So rows that ascend one way ascend the other way when they are reversed,
and rows are partners either way.

The two merges go through the rows from opposite ends and drop different rows on their way.  They
are compared through what they emit, which does not depend on the way (`merge_of_ascending`): all
rows of the output side if unmatched rows are kept, and its rows with a partner if they are not.
Each of these is reversed if the rows of both sides are (`joined_reversed`).
-/

namespace TableGroups

namespace KeyComparator

variable {comparator : KeyComparator} {l r : List Value} {i j : Nat}

theorem agree_reversed (comparator : KeyComparator) (l : List Value) (i : Nat) (r : List Value)
    (j : Nat) : comparator.reversed.agree l i r j = comparator.agree l i r j := by
  unfold agree
  rw [compareRuns_reversed]
  cases comparator.compareRuns l i r j with
  | error e => rfl
  | ok o => cases o <;> rfl

/-- What does not come after a key one way does not come before it the other way. -/
theorem NotAfter.reversed (h : comparator.NotAfter l i r j) :
    comparator.reversed.NotAfter r j l i := by
  obtain ⟨o, ho, hle⟩ := h
  refine ⟨o, ?_, hle⟩
  rw [compareRuns_reversed, compareRuns_swap ho]
  exact congrArg Except.ok o.swap_swap

theorem Ascending.reversed {offset : Nat} {rows : List Row}
    (h : comparator.Ascending offset rows) :
    comparator.reversed.Ascending offset rows.reverse :=
  List.isChain_reverse.mpr (h.imp fun _ _ hrows => hrows.reversed)

end KeyComparator

namespace MergeRule

variable {rule : MergeRule} {ls rs : List Row}

/-- The rule with every direction turned round. -/
def reversed (rule : MergeRule) : MergeRule :=
  { rule with comparator := rule.comparator.reversed }

theorem Comparable.reversed (h : rule.Comparable ls rs) :
    rule.reversed.Comparable ls.reverse rs.reverse := by
  intro l hl r hr
  obtain ⟨o, ho⟩ := h l (List.mem_reverse.mp hl) r (List.mem_reverse.mp hr)
  have hswapped : rule.comparator.reversed.compareRuns l.values rule.leftOffset r.values
      rule.rightOffset = .ok o.swap := by
    rw [KeyComparator.compareRuns_reversed, ho]
    rfl
  exact ⟨o.swap, hswapped⟩

/-- Rows are partners whichever way they are compared. -/
theorem partners_reversed (l r : Row) : rule.reversed.partners l r = rule.partners l r :=
  KeyComparator.agree_reversed ..

theorem semijoin_reversed (rule : MergeRule) (ls rs : List Row) :
    rule.reversed.semijoin ls.reverse rs.reverse = (rule.semijoin ls rs).reverse := by
  have houtput : rule.reversed.output = rule.output := rfl
  simp only [semijoin, partners_reversed, houtput]
  cases rule.output <;> simp only [List.filter_reverse, List.any_reverse]

theorem emitted_reversed (rule : MergeRule) (ls rs : List Row) :
    rule.reversed.emitted ls.reverse rs.reverse = (rule.emitted ls rs).reverse := by
  have houtput : rule.reversed.output = rule.output := rfl
  simp only [emitted, houtput]
  cases rule.output <;> rfl

/-! ### What a merge emits -/

/-- What a merge of ascending rows emits: all rows of the output side if the unmatched ones are
kept, and those that have a partner if they are not. -/
def joined (rule : MergeRule) (ls rs : List Row) : List Row :=
  if rule.join.keepsUnmatched then rule.emitted ls rs else rule.semijoin ls rs

theorem joined_reversed (rule : MergeRule) (ls rs : List Row) :
    rule.reversed.joined ls.reverse rs.reverse = (rule.joined ls rs).reverse := by
  have hjoin : rule.reversed.join = rule.join := rfl
  simp only [joined, hjoin, emitted_reversed, semijoin_reversed]
  split <;> rfl

/-- An outer join keeps the rows of its output side and no others. -/
theorem join_eq_iff_of_keepsUnmatched (hkeeps : rule.join.keepsUnmatched)
    (hsupports : rule.join.supports rule.output) :
    (rule.join = .left ↔ rule.output = .left) ∧ (rule.join = .right ↔ rule.output = .right) := by
  cases hjoin : rule.join <;> cases houtput : rule.output <;>
    simp_all [JoinType.keepsUnmatched, JoinType.supports]

/-- An outer merge emits all rows of its output side, in whatever order they come. -/
theorem merge_outer (hkeeps : rule.join.keepsUnmatched)
    (hsupports : rule.join.supports rule.output) (hcomparable : rule.Comparable ls rs) :
    rule.merge none none ls rs = ⟨rule.emitted ls rs, none⟩ := by
  obtain ⟨hleft, hright⟩ := join_eq_iff_of_keepsUnmatched hkeeps hsupports
  have hleftover (side : Side) (rows : List Row) :
      rule.leftover side rows none = ⟨if rule.output = side then rows else [], none⟩ := by
    cases rows with
    | nil => simp [leftover]
    | cons row rest => by_cases h : rule.output = side <;> simp [leftover, hkeeps, h]
  have hone : rule.output = .left ∨ rule.output = .right := by
    cases rule.output <;> simp
  fun_induction MergeRule.merge rule none none ls rs with
  | case1 rs e h => cases h
  | case2 rs _ =>
    rw [hleftover, emitted]
    cases rule.output <;> rfl
  | case3 l ls e h => cases h
  | case4 l ls _ =>
    rw [hleftover, emitted]
    cases rule.output <;> rfl
  | case5 l ls r rs e herror =>
    obtain ⟨o, ho⟩ := hcomparable l List.mem_cons_self r List.mem_cons_self
    rw [herror] at ho
    cases ho
  | case6 l ls r rs heq houtput ih =>
    rw [ih hcomparable.tail_left]
    simp [emitted, houtput, Supply.cons]
  | case7 l ls r rs heq houtput ih =>
    rw [ih hcomparable.tail_right]
    simp [emitted, houtput, Supply.cons]
  | case8 l ls r rs hlt hjoin ih =>
    -- the row has no partner, and it is of the side whose rows are kept
    have houtput := hleft.mp hjoin
    rw [ih hcomparable.tail_left]
    simp [emitted, houtput, Supply.cons]
  | case9 l ls r rs hlt hjoin ih =>
    -- the row has no partner, and it is of the other side
    have houtput := hone.resolve_left (hleft.not.mp hjoin)
    rw [ih hcomparable.tail_left]
    simp [emitted, houtput]
  | case10 l ls r rs hgt hjoin ih =>
    have houtput := hright.mp hjoin
    rw [ih hcomparable.tail_right]
    simp [emitted, houtput, Supply.cons]
  | case11 l ls r rs hgt hjoin ih =>
    have houtput := hone.resolve_right (hright.not.mp hjoin)
    rw [ih hcomparable.tail_right]
    simp [emitted, houtput]

/-- What an accepted merge of ascending rows emits. -/
theorem merge_of_ascending (hfull : rule.join ≠ .full) (hsupports : rule.join.supports rule.output)
    (hls : rule.comparator.Ascending rule.leftOffset ls)
    (hrs : rule.comparator.Ascending rule.rightOffset rs) (hcomparable : rule.Comparable ls rs) :
    rule.merge none none ls rs = ⟨rule.joined ls rs, none⟩ := by
  unfold joined
  split
  · next hkeeps => exact merge_outer hkeeps hsupports hcomparable
  · next hdrops =>
    have hjoin : rule.join = .inner := by
      cases h : rule.join <;> simp_all [JoinType.keepsUnmatched]
    exact merge_inner hjoin hls hrs hcomparable

end MergeRule

end TableGroups
