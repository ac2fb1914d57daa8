import Mathlib.Data.List.Forall2
import TableGroups.Proofs.HKey.Ancestry

/-!
# The order of keys is total

Keys are lists of segments and the values of a segment are a list, and both are compared
lexicographically, a shorter list before its extensions.  The laws of the order of values pass
through both levels.  Lists compare equal exactly if they are equally long and compare equal place
by place (`compareLex_eq_eq_iff`), so two keys compare equal exactly if their segments match one by
one (`HKey.order_eq_eq_iff`).

* `HKey.order_total`: the order of keys is oriented and transitive, and keys that compare equal have
  matching segments, and are equal.
-/

namespace TableGroups

section

variable {α : Type} {cmp : α → α → Ordering} {as bs : List α}

/-- Lists compare equal if they do place by place and nothing is left over. -/
theorem compareLex_eq_eq_iff :
    List.compareLex cmp as bs = .eq ↔ List.Forall₂ (fun a b => cmp a b = .eq) as bs := by
  induction as generalizing bs with
  | nil => cases bs <;> simp [List.compareLex]
  | cons a as ih =>
    cases bs with
    | nil => simp [List.compareLex]
    | cons b bs => rw [List.compareLex_cons_cons, Ordering.then_eq_eq, ih, List.forall₂_cons]

/-- Two equal outcomes one after the other make a third. -/
theorem outcome_trans [Std.TransCmp cmp] {a b c : α} {outcome : Ordering}
    (hab : cmp a b = outcome) (hbc : cmp b c = outcome) : cmp a c = outcome := by
  cases outcome with
  | lt => exact Std.TransCmp.lt_trans hab hbc
  | eq => exact Std.TransCmp.eq_trans hab hbc
  | gt => exact Std.TransCmp.gt_trans hab hbc

end

/-- Segments match if they have one ordinal and equally many values, which compare equal one by
one. -/
def HKeySegment.Matches (s t : HKeySegment) : Prop :=
  s.ordinal = t.ordinal ∧ s.values.length = t.values.length ∧
    List.Forall₂ (fun v w => v.canonicalCompare w = .eq) s.values t.values

theorem HKeySegment.order_eq_eq_iff {s t : HKeySegment} : s.order t = .eq ↔ s.Matches t := by
  rw [order, Ordering.then_eq_eq, Nat.compare_eq_eq, compareLex_eq_eq_iff, Matches]
  refine and_congr_right fun _ => ?_
  exact ⟨fun hvalues => ⟨hvalues.length_eq, hvalues⟩, fun hvalues => hvalues.2⟩

namespace HKey

variable {a b c : HKey}

theorem order_eq_eq_iff :
    a.order b = .eq ↔ List.Forall₂ HKeySegment.Matches a.segments b.segments := by
  simp only [order, compareLex_eq_eq_iff, HKeySegment.order_eq_eq_iff]

instance : Std.LawfulEqCmp order where
  compare_self := Std.ReflCmp.compare_self
  eq_of_compare {a b} h := by
    have hsegments : a.segments = b.segments := Std.LawfulEqCmp.eq_of_compare h
    cases a
    cases b
    exact congrArg HKey.mk hsegments

/-- **The order of keys is total.**  Swapping two keys swaps the outcome.  A key that does not lie
behind a second one does not lie behind a third one that the second does not lie behind, and two
equal outcomes one after the other make a third.  Keys compare equal exactly if their segments match
one by one, in ordinals, numbers of values and values, and then they are the same key. -/
theorem order_total (a b c : HKey) :
    a.order b = (b.order a).swap ∧
      ((a.order b).isLE → (b.order c).isLE → (a.order c).isLE) ∧
      (∀ outcome, a.order b = outcome → b.order c = outcome → a.order c = outcome) ∧
      (a.order b = .eq ↔ List.Forall₂ HKeySegment.Matches a.segments b.segments) ∧
      (a.order b = .eq ↔ a = b) := by
  refine ⟨Std.OrientedCmp.eq_swap, Std.TransCmp.isLE_trans, ?_, order_eq_eq_iff,
    Std.LawfulEqCmp.compare_eq_iff_eq⟩
  intro outcome hab hbc
  exact outcome_trans hab hbc

/-- A segment without its last value comes first, and a number before a text, whatever comes after
them. -/
theorem order_total_sample :
    let short : HKey := ⟨[⟨1, [.int 7]⟩, ⟨2, []⟩]⟩
    let long : HKey := ⟨[⟨1, [.int 7, .null]⟩]⟩
    let text : HKey := ⟨[⟨1, [.text "7"]⟩, ⟨2, [.int 3]⟩, ⟨3, []⟩]⟩
    short.order long = .lt ∧ long.order text = .lt ∧ short.order text = .lt ∧
      text.order short = .gt ∧ ¬ List.Forall₂ HKeySegment.Matches short.segments text.segments := by
  intro short long text
  have hshort : short.order long = .lt := by decide
  have hlong : long.order text = .lt := by decide
  obtain ⟨-, -, htrans, -, -⟩ := order_total short long text
  obtain ⟨-, -, -, hsame, -⟩ := order_total short text long
  have hends := htrans .lt hshort hlong
  refine ⟨hshort, hlong, hends, ?_, fun hall => ?_⟩
  · rw [(order_total text short long).1, hends]
    rfl
  · rw [hsame.mpr hall] at hends
    cases hends

end HKey

end TableGroups
