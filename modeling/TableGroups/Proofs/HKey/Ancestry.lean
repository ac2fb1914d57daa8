import TableGroups.HKey
import TableGroups.Proofs.Value.Agreement

/-!
# Descendants lie behind their ancestor

In the order of keys a key lies before the keys that extend it, and nothing else lies between it and
them.  So a scan in key order comes to a row and then to all its descendants.

Ancestry is judged by equality of fields and the order by the order of values, and the two differ in
the zeros of the floats, which are equal as fields and lie apart.  What is true is true of keys that
extend others value by value (`contiguous_iff_isPrefix`).  An ancestor in the sense of the program
is such a key unless it has one zero where the descendant has the other
(`isPrefix_iff_not_straddlesZero`).

* `HKey.descendants_contiguous_iff`: the descendant lies behind its ancestor, and only descendants
  of the ancestor lie between the two, exactly if no zero of the one stands against the other zero
  in the other.
* `HKey.ancestor_behind_descendant`: if one does, the descendant may lie before its ancestor, and
  a key of another family may lie between them.
-/

namespace TableGroups

/-! ### Between a list and its extensions -/

section

variable {α : Type} {cmp : α → α → Ordering} {as bs cs : List α}

/-- A list lies before its extensions. -/
theorem compareLex_append_cons [Std.ReflCmp cmp] (as : List α) (b : α) (bs : List α) :
    List.compareLex cmp as (as ++ b :: bs) = .lt := by
  induction as with
  | nil => rfl
  | cons a as ih =>
    have hsame : cmp a a = .eq := Std.ReflCmp.compare_self
    rw [List.cons_append, List.compareLex_cons_cons, hsame, ih]
    rfl

/-- Whatever lies between a list and one of its extensions extends the list. -/
theorem isPrefix_of_between [Std.TransCmp cmp] [Std.LawfulEqCmp cmp]
    (hlow : (List.compareLex cmp as bs).isLE) (hhigh : (List.compareLex cmp bs (as ++ cs)).isLE) :
    as <+: bs := by
  induction as generalizing bs with
  | nil => exact List.nil_prefix
  | cons a as ih =>
    cases bs with
    | nil => cases hlow
    | cons b bs =>
      rw [List.compareLex_cons_cons, Ordering.isLE_then_iff_and] at hlow
      rw [List.cons_append, List.compareLex_cons_cons, Ordering.isLE_then_iff_and] at hhigh
      -- the first elements lie on both sides of each other, so they are equal and do not decide
      have heq : cmp a b = .eq := Std.OrientedCmp.isLE_antisymm hlow.1 hhigh.1
      obtain rfl : a = b := Std.LawfulEqCmp.eq_of_compare heq
      have hrestLow : (List.compareLex cmp as bs).isLE := hlow.2.resolve_left (by simp [heq])
      have hrestHigh : (List.compareLex cmp bs (as ++ cs)).isLE :=
        hhigh.2.resolve_left (by simp [heq])
      exact List.cons_prefix_cons.mpr ⟨rfl, ih hrestLow hrestHigh⟩

/-- Comparing as far as the first list goes is comparing with the beginning of the other. -/
theorem all_zip_eq_isEqv_take {r : α → α → Bool} (h : as.length ≤ bs.length) :
    ((as.zip bs).all fun (a, b) => r a b) = as.isEqv (bs.take as.length) r := by
  induction as generalizing bs with
  | nil => rfl
  | cons a as ih =>
    cases bs with
    | nil => cases h
    | cons b bs =>
      rw [List.zip_cons_cons, List.all_cons, ih (Nat.le_of_succ_le_succ h)]
      rfl

end

/-! ### Segments -/

namespace HKeySegment

instance : Std.TransCmp fun a b : HKeySegment =>
    List.compareLex Value.canonicalCompare a.values b.values where
  eq_swap := Std.OrientedCmp.eq_swap
  isLE_trans := Std.TransCmp.isLE_trans

instance : Std.TransCmp order :=
  inferInstanceAs (Std.TransCmp (compareLex (compareOn HKeySegment.ordinal) fun a b =>
    List.compareLex Value.canonicalCompare a.values b.values))

instance : Std.LawfulEqCmp order where
  compare_self := Std.ReflCmp.compare_self
  eq_of_compare {a b} h := by
    obtain ⟨hordinal, hvalues⟩ := Ordering.then_eq_eq.mp h
    cases a
    cases b
    exact (HKeySegment.mk.injEq ..).mpr
      ⟨Nat.compare_eq_eq.mp hordinal, Std.LawfulEqCmp.eq_of_compare hvalues⟩

/-- Whether one segment has one zero where the other has the other. -/
def StraddlesZero (s t : HKeySegment) : Prop :=
  ∃ (q : Nat) (v w : Value), s.values[q]? = some v ∧ t.values[q]? = some w ∧ v.AreZeros w

variable {s t : HKeySegment}

/-- A segment straddles no zero with itself. -/
theorem not_straddlesZero_self (s : HKeySegment) : ¬ s.StraddlesZero s := by
  rintro ⟨q, v, w, hv, hw, hzeros⟩
  exact hzeros.ne (Option.some.inj (hv.symm.trans hw))

/-- Segments that are equal as fields are equal, unless they straddle zero. -/
theorem eq_or_straddlesZero_of_agrees (h : s.agrees t) : s = t ∨ s.StraddlesZero t := by
  obtain ⟨hordinal, hvalues⟩ := (Bool.and_eq_true _ _).mp h
  refine (eq_or_exists_of_isEqv (fun _ _ => Value.eq_or_zeros_of_agrees) hvalues).imp_left ?_
  intro hsame
  cases s
  cases t
  exact (HKeySegment.mk.injEq ..).mpr ⟨beq_iff_eq.mp hordinal, hsame⟩

theorem agrees_self_of_agrees (h : s.agrees t) : s.agrees s := by
  obtain ⟨-, hvalues⟩ := (Bool.and_eq_true _ _).mp h
  exact (Bool.and_eq_true _ _).mpr
    ⟨beq_iff_eq.mpr rfl, isEqv_self_of_isEqv (fun _ _ => Value.agrees_self_of_agrees) hvalues⟩

end HKeySegment

/-! ### Keys -/

namespace HKey

instance : Std.TransCmp order where
  eq_swap {a b} := by
    unfold order
    exact Std.OrientedCmp.eq_swap
  isLE_trans {a b c} hab hbc := by
    unfold order at hab hbc ⊢
    exact Std.TransCmp.isLE_trans hab hbc

variable {a b d : HKey}

/-- The first segments of a key. -/
def cut (key : HKey) (length : Nat) : HKey :=
  ⟨key.segments.take length⟩

/-- An ancestor is shorter and equal, as fields are, to the beginning of its descendant. -/
theorem isAncestorOf_iff :
    a.isAncestorOf d ↔
      a.segments.length < d.segments.length ∧ a.agrees (d.cut a.segments.length) := by
  rw [isAncestorOf, Bool.and_eq_true, decide_eq_true_iff]
  refine and_congr_right fun hlength => ?_
  rw [all_zip_eq_isEqv_take (Nat.le_of_lt hlength)]
  rfl

/-- Whether one key has one zero where the other has the other. -/
def StraddlesZero (a d : HKey) : Prop :=
  ∃ (p : Nat) (s t : HKeySegment),
    a.segments[p]? = some s ∧ d.segments[p]? = some t ∧ s.StraddlesZero t

/-- **Ancestors**: the segments of an ancestor are the first ones of its descendant, value by value,
exactly if the two do not straddle zero. -/
theorem isPrefix_iff_not_straddlesZero (h : a.isAncestorOf d) :
    a.segments <+: d.segments ↔ ¬ a.StraddlesZero d := by
  constructor
  · rintro ⟨rest, hrest⟩ ⟨p, s, t, hs, ht, hzeros⟩
    -- the two segments are the same one
    have hp : p < a.segments.length := (List.getElem?_eq_some_iff.mp hs).1
    rw [← hrest, List.getElem?_append_left hp, hs] at ht
    obtain rfl := Option.some.inj ht
    exact s.not_straddlesZero_self hzeros
  · intro hzeros
    obtain ⟨-, hagrees⟩ := isAncestorOf_iff.mp h
    rcases eq_or_exists_of_isEqv (fun _ _ => HKeySegment.eq_or_straddlesZero_of_agrees) hagrees
      with hsame | ⟨p, s, t, hs, ht, hdiffer⟩
    · rw [hsame]
      exact List.take_prefix _ _
    · have ht : d.segments[p]? = some t := by
        have hcut : (d.segments.take a.segments.length)[p]? = some t := ht
        rw [List.getElem?_take] at hcut
        split at hcut
        · exact hcut
        · cases hcut
      exact absurd ⟨p, s, t, hs, ht, hdiffer⟩ hzeros

/-- What extends an ancestor of anything is equal to it or one of its descendants. -/
theorem eq_or_isAncestorOf_of_isPrefix (h : a.isAncestorOf d)
    (hextends : a.segments <+: b.segments) :
    a = b ∨ a.isAncestorOf b := by
  obtain ⟨-, hagrees⟩ := isAncestorOf_iff.mp h
  rcases Nat.eq_or_lt_of_le hextends.length_le with hlength | hlength
  · left
    cases a
    cases b
    exact (HKey.mk.injEq ..).mpr (hextends.eq_of_length hlength)
  · right
    have hcut : b.cut a.segments.length = a := by
      obtain ⟨rest, hrest⟩ := hextends
      rw [cut, ← hrest, List.take_left]
    rw [isAncestorOf_iff, hcut]
    exact ⟨hlength, isEqv_self_of_isEqv (fun _ _ => HKeySegment.agrees_self_of_agrees) hagrees⟩

/-- The descendant lies behind its ancestor, and only descendants of the ancestor lie between them,
exactly if it extends the ancestor value by value. -/
theorem contiguous_iff_isPrefix (h : a.isAncestorOf d) :
    (a.order d = .lt ∧ ∀ b, (a.order b).isLE → (b.order d).isLE →
        a.order b = .eq ∨ a.isAncestorOf b) ↔
      a.segments <+: d.segments := by
  obtain ⟨hlength, -⟩ := isAncestorOf_iff.mp h
  constructor
  · rintro ⟨hbehind, hbetween⟩
    -- the key to look at is as long as the ancestor and begins the descendant
    obtain ⟨t, rest, hrest⟩ : ∃ t rest, d.segments.drop a.segments.length = t :: rest :=
      List.exists_cons_of_ne_nil (by rw [Ne, List.drop_eq_nil_iff]; omega)
    have hsplit : (d.cut a.segments.length).segments ++ t :: rest = d.segments := by
      rw [← hrest]
      exact List.take_append_drop _ _
    have hcut : (d.cut a.segments.length).segments.length = a.segments.length :=
      List.length_take_of_le (Nat.le_of_lt hlength)
    have hbefore : (d.cut a.segments.length).order d = .lt := by
      rw [order, ← hsplit]
      exact compareLex_append_cons _ _ _
    suffices heq : a.segments = (d.cut a.segments.length).segments by
      rw [heq]
      exact List.take_prefix _ _
    by_cases hlow : (a.order (d.cut a.segments.length)).isLE
    · rcases hbetween _ hlow (by rw [hbefore]; rfl) with heq | hancestor
      · exact Std.LawfulEqCmp.eq_of_compare heq
      · have hlonger := (isAncestorOf_iff.mp hancestor).1
        omega
    · -- otherwise the ancestor lies between that key and the descendant, and so begins with it
      have hbelow : ((d.cut a.segments.length).order a).isLE := by
        rw [Std.OrientedCmp.lt_of_not_isLE hlow]
        rfl
      have habove : (List.compareLex HKeySegment.order a.segments
          ((d.cut a.segments.length).segments ++ t :: rest)).isLE := by
        rw [order] at hbehind
        rw [hsplit, hbehind]
        rfl
      exact ((isPrefix_of_between hbelow habove).eq_of_length hcut).symm
  · rintro ⟨rest, hrest⟩
    cases rest with
    | nil =>
      rw [List.append_nil] at hrest
      rw [hrest] at hlength
      exact absurd hlength (Nat.lt_irrefl _)
    | cons t rest =>
      refine ⟨?_, fun b hlow hhigh => ?_⟩
      · rw [order, ← hrest]
        exact compareLex_append_cons _ _ _
      · rw [order, ← hrest] at hhigh
        rcases eq_or_isAncestorOf_of_isPrefix h (isPrefix_of_between hlow hhigh) with rfl | hab
        · exact .inl Std.ReflCmp.compare_self
        · exact .inr hab

/-- **Descendants lie together behind their ancestor.**  Let one key be an ancestor of another.
Then the other lies behind it, and whatever lies between the two is the ancestor itself or one of
its descendants, exactly if the two keys nowhere have the two zeros of the floats in one place. -/
theorem descendants_contiguous_iff (h : a.isAncestorOf d) :
    (a.order d = .lt ∧ ∀ b, (a.order b).isLE → (b.order d).isLE →
        a.order b = .eq ∨ a.isAncestorOf b) ↔
      ¬ a.StraddlesZero d :=
  (contiguous_iff_isPrefix h).trans (isPrefix_iff_not_straddlesZero h)

/-- A key at zero, one of its children, and the children before it. -/
theorem descendants_contiguous_iff_zero :
    let parent : HKey := ⟨[⟨1, [.float64 ⟨0⟩]⟩]⟩
    let child : HKey := ⟨[⟨1, [.float64 ⟨0⟩]⟩, ⟨2, [.int 7]⟩]⟩
    let earlier : HKey := ⟨[⟨1, [.float64 ⟨0⟩]⟩, ⟨2, [.int 3]⟩]⟩
    parent.isAncestorOf child ∧ parent.order child = .lt ∧
      (parent.order earlier).isLE ∧ (earlier.order child).isLE ∧
      (parent.order earlier = .eq ∨ parent.isAncestorOf earlier) := by
  intro parent child earlier
  have hancestor : parent.isAncestorOf child := by decide
  have hzeros : ¬ parent.StraddlesZero child :=
    (isPrefix_iff_not_straddlesZero hancestor).mp ⟨_, rfl⟩
  have hlow : (parent.order earlier).isLE := by decide
  have hhigh : (earlier.order child).isLE := by decide
  obtain ⟨hbehind, hbetween⟩ := (descendants_contiguous_iff hancestor).mpr hzeros
  exact ⟨hancestor, hbehind, hlow, hhigh, hbetween earlier hlow hhigh⟩

/-- **Around zero a descendant may lie before its ancestor.**  A key at the positive zero is an
ancestor of a key below the negative zero, and lies behind it.  The other way round the descendant
lies behind its ancestor, but the key at the positive zero lies between the two, and it is neither
the ancestor nor one of its descendants. -/
theorem ancestor_behind_descendant :
    let zero : HKey := ⟨[⟨1, [.float64 ⟨0⟩]⟩]⟩
    let negative : HKey := ⟨[⟨1, [.float64 ⟨0x8000000000000000⟩]⟩]⟩
    let belowZero : HKey := ⟨[⟨1, [.float64 ⟨0⟩]⟩, ⟨2, [.int 7]⟩]⟩
    let belowNegative : HKey := ⟨[⟨1, [.float64 ⟨0x8000000000000000⟩]⟩, ⟨2, [.int 7]⟩]⟩
    (zero.isAncestorOf belowNegative ∧ zero.order belowNegative = .gt) ∧
      negative.isAncestorOf belowZero ∧ negative.order zero = .lt ∧ zero.order belowZero = .lt ∧
        ¬ (negative.order zero = .eq ∨ negative.isAncestorOf zero) := by
  decide

end HKey

end TableGroups
