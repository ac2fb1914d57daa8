import Mathlib.Logic.Basic
import Mathlib.Tactic.ByContra
import TableGroups.Proofs.Value.Order

/-!
# The order of index rows

`compareAlong ds` compares rows column by column on as many columns as both have.  On rows of the
full width it is a total order (`eq_of_compareAlong_eq`, `compareAlong_isLE_trans`).  A bound gives
values for the leading columns only, and comparing with one is not transitive through a short row in
the middle; what remains true, and is all that a search needs, is transitivity through a row with at
least as many fields as there are directions.
-/

namespace TableGroups

variable {d : Direction} {ds : List Direction} {a b c : Value} {as bs cs : List Value}

/-! ### One column -/

@[simp] theorem Direction.orient_swap (d : Direction) (o : Ordering) :
    d.orient o.swap = (d.orient o).swap := by
  cases d <;> rfl

/-- A column in either direction orders the values transitively. -/
theorem Direction.orient_isLE_trans (h1 : (d.orient (a.canonicalCompare b)).isLE)
    (h2 : (d.orient (b.canonicalCompare c)).isLE) : (d.orient (a.canonicalCompare c)).isLE := by
  cases d with
  | asc =>
    simp only [orient] at h1 h2 ⊢
    exact Std.TransCmp.isLE_trans h1 h2
  | desc =>
    simp only [orient, ← Value.canonicalCompare_swap] at h1 h2 ⊢
    exact Std.TransCmp.isLE_trans h2 h1

instance (d : Direction) : Std.TransCmp fun a b : Value => d.orient (a.canonicalCompare b) where
  eq_swap {a b} := by
    rw [← d.orient_swap, ← Value.canonicalCompare_swap]
  isLE_trans := Direction.orient_isLE_trans

/-! ### Rows -/

@[simp] theorem compareAlong_nil_right (ds : List Direction) (as : List Value) :
    compareAlong ds as [] = .eq := by
  cases ds <;> cases as <;> rfl

@[simp] theorem compareAlong_nil_left (ds : List Direction) (bs : List Value) :
    compareAlong ds [] bs = .eq := by
  cases ds <;> rfl

theorem compareAlong_cons :
    compareAlong (d :: ds) (a :: as) (b :: bs) =
      (d.orient (a.canonicalCompare b)).then (compareAlong ds as bs) := rfl

theorem compareAlong_swap (ds : List Direction) (as bs : List Value) :
    compareAlong ds as bs = (compareAlong ds bs as).swap := by
  induction ds generalizing as bs with
  | nil => rfl
  | cons d ds ih =>
    cases as with
    | nil => simp
    | cons a as =>
      cases bs with
      | nil => simp
      | cons b bs =>
        rw [compareAlong_cons, compareAlong_cons, ih as bs, Ordering.swap_then, ← d.orient_swap,
          ← Value.canonicalCompare_swap]

@[simp] theorem compareAlong_self (ds : List Direction) (as : List Value) :
    compareAlong ds as as = .eq := by
  have h := compareAlong_swap ds as as
  cases hc : compareAlong ds as as <;> simp_all

/-- The order is transitive through a row that has a field for every direction. -/
theorem compareAlong_isLE_trans (hlen : ds.length ≤ bs.length)
    (h1 : (compareAlong ds as bs).isLE) (h2 : (compareAlong ds bs cs).isLE) :
    (compareAlong ds as cs).isLE := by
  induction ds generalizing as bs cs with
  | nil => rfl
  | cons d ds ih =>
    cases as with
    | nil => simp
    | cons a as =>
      cases cs with
      | nil => simp
      | cons c cs =>
        cases bs with
        | nil => simp at hlen
        | cons b bs =>
          rw [List.length_cons, List.length_cons, Nat.add_le_add_iff_right] at hlen
          rw [compareAlong_cons, Ordering.isLE_then_iff_and] at h1 h2 ⊢
          refine ⟨Direction.orient_isLE_trans h1.1 h2.1, ?_⟩
          -- unless one of the first columns decides, the later columns do
          have hlt := @Std.TransCmp.lt_of_lt_of_isLE _
            (fun a b : Value => d.orient (a.canonicalCompare b)) _ a b c
          have hlt' := @Std.TransCmp.lt_of_isLE_of_lt _
            (fun a b : Value => d.orient (a.canonicalCompare b)) _ a b c
          rcases h1.2 with h1' | h1'
          · exact Or.inl (hlt h1' h2.1)
          rcases h2.2 with h2' | h2'
          · exact Or.inl (hlt' h1.1 h2')
          · exact Or.inr (ih hlen h1' h2')

/-- What does not come after a row that comes before another comes before the other, if it has a
field for every direction. -/
theorem compareAlong_lt_of_isLE_of_lt (hlen : ds.length ≤ as.length)
    (h1 : (compareAlong ds as bs).isLE) (h2 : compareAlong ds bs cs = .lt) :
    compareAlong ds as cs = .lt := by
  by_contra hne
  -- otherwise `cs` does not come after `as`, and so not after `bs`
  have h3 : (compareAlong ds cs as).isLE := by
    rw [compareAlong_swap]
    cases h : compareAlong ds as cs <;> simp_all
  have h4 := compareAlong_isLE_trans hlen h3 h1
  rw [compareAlong_swap, h2] at h4
  cases h4

/-- A row agrees with a bound exactly when it begins with the bound's values. -/
theorem compareAlong_eq_iff_begins (hds : bs.length ≤ ds.length) (has : bs.length ≤ as.length) :
    compareAlong ds as bs = .eq ↔ bs <+: as := by
  induction ds generalizing as bs with
  | nil =>
    obtain rfl := List.eq_nil_of_length_eq_zero (Nat.le_zero.mp hds)
    simp
  | cons d ds ih =>
    cases bs with
    | nil => simp
    | cons b bs =>
      cases as with
      | nil => simp at has
      | cons a as =>
        simp only [List.length_cons, Nat.add_le_add_iff_right] at hds has
        rw [compareAlong_cons, Ordering.then_eq_eq, Direction.orient_eq_eq_iff, ih hds has,
          Std.LawfulEqCmp.compare_eq_iff_eq, List.cons_prefix_cons]
        exact and_congr_left' eq_comm

/-- Only a row itself compares equal to it, among rows of the full width. -/
theorem eq_of_compareAlong_eq (has : as.length = ds.length) (hbs : bs.length = ds.length)
    (h : compareAlong ds as bs = .eq) : as = bs := by
  rw [compareAlong_eq_iff_begins (by omega) (by omega)] at h
  exact (h.eq_of_length (by omega)).symm

/-- Rows agree as far as they are compared exactly if they begin with the same values. -/
theorem compareAlong_eq_iff_take (has : ds.length ≤ as.length) (hbs : ds.length ≤ bs.length) :
    compareAlong ds as bs = .eq ↔ as.take ds.length = bs.take ds.length := by
  induction ds generalizing as bs with
  | nil => simp [compareAlong]
  | cons d ds ih =>
    cases as with
    | nil => simp at has
    | cons a as =>
      cases bs with
      | nil => simp at hbs
      | cons b bs =>
        rw [List.length_cons, List.length_cons, Nat.add_le_add_iff_right] at has hbs
        rw [compareAlong_cons, Ordering.then_eq_eq, Direction.orient_eq_eq_iff, ih has hbs,
          Std.LawfulEqCmp.compare_eq_iff_eq, List.length_cons, List.take_succ_cons,
          List.take_succ_cons, List.cons.injEq]

/-- Columns in which two rows agree do not count. -/
theorem compareAlong_append (ds es : List Direction) (hlen : ds.length = cs.length) :
    compareAlong (ds ++ es) (cs ++ as) (cs ++ bs) = compareAlong es as bs := by
  induction ds generalizing cs with
  | nil =>
    obtain rfl := List.eq_nil_of_length_eq_zero hlen.symm
    rfl
  | cons d ds ih =>
    cases cs with
    | nil => simp at hlen
    | cons c cs =>
      rw [List.length_cons, List.length_cons, Nat.add_right_cancel_iff] at hlen
      rw [List.cons_append, List.cons_append, List.cons_append, compareAlong_cons, ih hlen,
        Value.canonicalCompare_self, Direction.orient_eq]
      rfl

/-- Turning every column round turns the order round. -/
theorem compareAlong_map_reverse (ds : List Direction) (as bs : List Value) :
    compareAlong (ds.map Direction.reverse) as bs = compareAlong ds bs as := by
  induction ds generalizing as bs with
  | nil => rfl
  | cons d ds ih =>
    cases as with
    | nil => simp
    | cons a as =>
      cases bs with
      | nil => simp
      | cons b bs =>
        rw [List.map_cons, compareAlong_cons, compareAlong_cons, ih, Value.canonicalCompare_swap]
        cases d <;> simp [Direction.orient, Direction.reverse]

/-- Values without a direction are not compared. -/
theorem compareAlong_take_right (ds : List Direction) (as bs : List Value) :
    compareAlong ds as (bs.take ds.length) = compareAlong ds as bs := by
  induction ds generalizing as bs with
  | nil => cases as <;> rfl
  | cons d ds ih =>
    cases as with
    | nil => simp
    | cons a as =>
      cases bs with
      | nil => rfl
      | cons b bs =>
        rw [List.length_cons, List.take_succ_cons, compareAlong_cons, compareAlong_cons, ih]

/-- What does not come after a row does not come after it on the first columns. -/
theorem compareAlong_isLE_of_append {es : List Direction}
    (h : (compareAlong (ds ++ es) as bs).isLE) : (compareAlong ds as bs).isLE := by
  induction ds generalizing as bs with
  | nil => rfl
  | cons d ds ih =>
    cases as with
    | nil => simp
    | cons a as =>
      cases bs with
      | nil => simp
      | cons b bs =>
        rw [List.cons_append, compareAlong_cons, Ordering.isLE_then_iff_and] at h
        rw [compareAlong_cons, Ordering.isLE_then_iff_and]
        exact ⟨h.1, h.2.imp_right ih⟩

end TableGroups
