import TableGroups.Value.Order

/-!
# The canonical order is a total order

`Value.canonicalCompare` is oriented and transitive, and only a value itself compares equal to it.
Floats are told apart by their bits, so this holds of NaNs and of the two zeros as well.

The strict order is the canonical one where it is defined: `strictCompare?_eq_some_iff` says that it
compares two values exactly when one of them is null or both are of one kind (`Comparable`).
-/

namespace TableGroups

namespace Binary64

instance : Std.TransCmp totalCompare :=
  inferInstanceAs (Std.TransCmp (compareOn rank))

instance : Std.LawfulEqCmp totalCompare where
  compare_self {x} := by
    unfold totalCompare
    exact Std.ReflCmp.compare_self
  eq_of_compare {x y} h := rank_injective (Std.LawfulEqCmp.eq_of_compare h)

end Binary64

namespace Value

/-- Whether two values have a strict order: a null has one with every value, and other values with
those of their own kind. -/
def Comparable (v w : Value) : Prop :=
  v = .null ∨ w = .null ∨ v.kindRank = w.kindRank

theorem Comparable.symm {v w : Value} (h : Comparable v w) : Comparable w v := by
  rcases h with h | h | h
  · exact Or.inr (Or.inl h)
  · exact Or.inl h
  · exact Or.inr (Or.inr h.symm)

/-- Only the null is of the lowest rank. -/
theorem eq_null_of_kindRank_eq_zero {v : Value} (h : v.kindRank = 0) : v = .null := by
  cases v <;> simp [kindRank] at h ⊢

/-! ### The canonical order -/

/-- Values of different kinds are ordered by their kinds. -/
theorem canonicalCompare_of_kindRank_lt {v w : Value} (h : v.kindRank < w.kindRank) :
    v.canonicalCompare w = .lt := by
  have hlt : compare v.kindRank w.kindRank = .lt := Nat.compare_eq_lt.mpr h
  rw [canonicalCompare, hlt]
  rfl

/-- Values of one kind are ordered by their contents. -/
theorem canonicalCompare_of_kindRank_eq {v w : Value} (h : v.kindRank = w.kindRank) :
    v.canonicalCompare w = (v.strictCompare? w).getD .eq := by
  have heq : compare v.kindRank w.kindRank = .eq := Nat.compare_eq_eq.mpr h
  rw [canonicalCompare, heq]
  rfl

/-- A value is not above another only if its kind is not. -/
theorem kindRank_le_of_isLE {v w : Value} (h : (v.canonicalCompare w).isLE) :
    v.kindRank ≤ w.kindRank := by
  rw [canonicalCompare, Ordering.isLE_then_iff_and] at h
  exact Nat.isLE_compare.mp h.1

theorem canonicalCompare_swap (v w : Value) :
    v.canonicalCompare w = (w.canonicalCompare v).swap := by
  rcases Nat.lt_trichotomy v.kindRank w.kindRank with hlt | heq | hgt
  · have hgt : compare w.kindRank v.kindRank = .gt := Nat.compare_eq_gt.mpr hlt
    rw [canonicalCompare_of_kindRank_lt hlt, canonicalCompare, hgt]
    rfl
  · -- values of one kind are swapped with their contents
    rw [canonicalCompare_of_kindRank_eq heq, canonicalCompare_of_kindRank_eq heq.symm]
    cases v <;> cases w <;> simp only [kindRank, Nat.reduceEqDiff] at heq
    · rfl
    all_goals
      simp only [strictCompare?, Option.getD_some]
      exact Std.OrientedCmp.eq_swap
  · have hgt' : compare v.kindRank w.kindRank = .gt := Nat.compare_eq_gt.mpr hgt
    rw [canonicalCompare_of_kindRank_lt hgt, canonicalCompare, hgt']
    rfl

theorem canonicalCompare_isLE_trans {u v w : Value} (huv : (u.canonicalCompare v).isLE)
    (hvw : (v.canonicalCompare w).isLE) : (u.canonicalCompare w).isLE := by
  have h1 := kindRank_le_of_isLE huv
  have h2 := kindRank_le_of_isLE hvw
  by_cases hlt : u.kindRank < w.kindRank
  · rw [canonicalCompare_of_kindRank_lt hlt]
    rfl
  · -- all three are of one kind
    have huv' : u.kindRank = v.kindRank := by omega
    have hvw' : v.kindRank = w.kindRank := by omega
    rw [canonicalCompare_of_kindRank_eq huv'] at huv
    rw [canonicalCompare_of_kindRank_eq hvw'] at hvw
    rw [canonicalCompare_of_kindRank_eq (huv'.trans hvw')]
    cases u <;> cases v <;> simp only [kindRank, Nat.reduceEqDiff] at huv'
    all_goals cases w <;> simp only [kindRank, Nat.reduceEqDiff] at hvw'
    · rfl
    all_goals
      simp only [strictCompare?, Option.getD_some] at huv hvw ⊢
      exact Std.TransCmp.isLE_trans huv hvw

instance : Std.TransCmp canonicalCompare where
  eq_swap {v w} := canonicalCompare_swap v w
  isLE_trans := canonicalCompare_isLE_trans

@[simp] theorem canonicalCompare_self (v : Value) : v.canonicalCompare v = .eq :=
  Std.ReflCmp.compare_self

/-- Only a value itself compares equal to it. -/
theorem eq_of_canonicalCompare {v w : Value} (h : v.canonicalCompare w = .eq) : v = w := by
  obtain ⟨hrank, hstrict⟩ := Ordering.then_eq_eq.mp h
  have heq : v.kindRank = w.kindRank := Nat.compare_eq_eq.mp hrank
  cases v <;> cases w <;> simp only [kindRank, Nat.reduceEqDiff] at heq
  · rfl
  all_goals
    simp only [strictCompare?, Option.getD_some] at hstrict
    exact congrArg _ (Std.LawfulEqCmp.eq_of_compare hstrict)

instance : Std.LawfulEqCmp canonicalCompare where
  compare_self := Std.ReflCmp.compare_self
  eq_of_compare := eq_of_canonicalCompare

/-! ### The strict order -/

/-- Where two values have a strict order it is the canonical one. -/
theorem strictCompare?_eq_some_iff {v w : Value} {o : Ordering} :
    v.strictCompare? w = some o ↔ Comparable v w ∧ v.canonicalCompare w = o := by
  unfold Comparable
  cases v <;> cases w <;>
    simp [strictCompare?, canonicalCompare, kindRank, Nat.compare_eq_ite_lt]

theorem strictCompare?_self (v : Value) : v.strictCompare? v = some .eq :=
  strictCompare?_eq_some_iff.mpr ⟨.inr (.inr rfl), canonicalCompare_self v⟩

/-- The strict order of two values is that of the exchanged values, swapped. -/
theorem strictCompare?_swap (v w : Value) :
    w.strictCompare? v = (v.strictCompare? w).map Ordering.swap := by
  apply Option.ext
  intro o
  rw [strictCompare?_eq_some_iff, Option.map_eq_some_iff]
  constructor
  · rintro ⟨hwv, rfl⟩
    exact ⟨_, strictCompare?_eq_some_iff.mpr ⟨hwv.symm, rfl⟩, (canonicalCompare_swap w v).symm⟩
  · rintro ⟨o', hstrict, rfl⟩
    obtain ⟨hvw, rfl⟩ := strictCompare?_eq_some_iff.mp hstrict
    exact ⟨hvw.symm, canonicalCompare_swap w v⟩

/-- Two values have no strict order exactly if they are of two kinds, and neither is null. -/
theorem strictCompare?_eq_none_iff {v w : Value} :
    v.strictCompare? w = none ↔ v ≠ .null ∧ w ≠ .null ∧ v.kind? ≠ w.kind? := by
  cases v <;> cases w <;> simp [strictCompare?, kind?]

/-- Two values that fit a column of a kind of its own have a strict order. -/
theorem comparable_of_fits {v w : Value} {kind : FieldKind} (hkind : kind ≠ .any)
    (hv : v.fits kind) (hw : w.fits kind) : Comparable v w := by
  unfold Comparable
  cases kind <;> cases v <;> cases w <;> simp_all [fits, kind?, kindRank]

end Value

end TableGroups
