import TableGroups.Proofs.Value.RowOrder

/-!
# Rows by places

Orders of rows that name their fields by position are all of one kind: the first of certain places
at which the rows differ decides (`firstDifference`).  `compareAt` says how two rows compare at one
place, and `compareAlong_eq_firstDifference` brings the order of index rows into this form.
-/

namespace TableGroups

/-! ### The first difference -/

/-- What decides at the first of the places where something does. -/
def firstDifference (decides : Nat → Ordering) : List Nat → Ordering
  | [] => .eq
  | p :: ps => (decides p).then (firstDifference decides ps)

section FirstDifference

variable {f g : Nat → Ordering} {ps qs : List Nat}

theorem firstDifference_append :
    firstDifference f (ps ++ qs) = (firstDifference f ps).then (firstDifference f qs) := by
  induction ps with
  | nil => rfl
  | cons p ps ih => rw [List.cons_append, firstDifference, firstDifference, ih, Ordering.then_assoc]

theorem firstDifference_map (i : Nat → Nat) :
    firstDifference f (ps.map i) = firstDifference (fun p => f (i p)) ps := by
  induction ps with
  | nil => rfl
  | cons p ps ih => rw [List.map_cons, firstDifference, firstDifference, ih]

theorem firstDifference_congr (h : ∀ p ∈ ps, f p = g p) :
    firstDifference f ps = firstDifference g ps := by
  induction ps with
  | nil => rfl
  | cons p ps ih =>
    rw [List.forall_mem_cons] at h
    rw [firstDifference, firstDifference, h.1, ih h.2]

theorem firstDifference_of_forall_eq (h : ∀ p ∈ ps, f p = .eq) : firstDifference f ps = .eq := by
  induction ps with
  | nil => rfl
  | cons p ps ih =>
    rw [List.forall_mem_cons] at h
    rw [firstDifference, h.1, ih h.2]
    rfl

end FirstDifference

/-! ### Rows by places -/

/-- How two rows compare at a place; a place that one of them lacks is not compared. -/
def compareAt (r s : List Value) (p : Nat) : Ordering :=
  match r[p]?, s[p]? with
  | some v, some w => v.canonicalCompare w
  | _, _ => .eq

variable {r s : List Value} {p : Nat}

theorem compareAt_drop (r s : List Value) (k p : Nat) :
    compareAt (r.drop k) (s.drop k) p = compareAt r s (k + p) := by
  rw [compareAt, compareAt, List.getElem?_drop, List.getElem?_drop]

theorem compareAt_of_lt (hr : p < r.length) (hs : p < s.length) :
    compareAt r s p = (r[p]).canonicalCompare s[p] := by
  rw [compareAt, List.getElem?_eq_getElem hr, List.getElem?_eq_getElem hs]

/-- Rows are compared at all places in turn, each in the direction of its column. -/
theorem compareAlong_eq_firstDifference (ds : List Direction) (r s : List Value) :
    compareAlong ds r s =
      firstDifference (fun p => (ds[p]?.getD .asc).orient (compareAt r s p))
        (List.range ds.length) := by
  induction ds generalizing r s with
  | nil => rfl
  | cons d ds ih =>
    cases r with
    | nil =>
      rw [compareAlong_nil_left, firstDifference_of_forall_eq]
      simp [compareAt]
    | cons v r =>
      cases s with
      | nil =>
        rw [compareAlong_nil_right, firstDifference_of_forall_eq]
        simp [compareAt]
      | cons w s =>
        rw [List.length_cons, List.range_succ_eq_map, firstDifference, firstDifference_map,
          compareAlong_cons, ih]
        rfl

/-- The rest of two rows is compared at the places from there on. -/
theorem compareAlong_drop_eq_firstDifference (ds : List Direction) (r s : List Value) (k : Nat) :
    compareAlong (ds.drop k) (r.drop k) (s.drop k) =
      firstDifference (fun p => (ds[p]?.getD .asc).orient (compareAt r s p))
        (List.range' k (ds.length - k)) := by
  rw [compareAlong_eq_firstDifference, List.range'_eq_map_range, firstDifference_map,
    List.length_drop]
  apply firstDifference_congr
  intro p _
  rw [List.getElem?_drop, compareAt_drop]

end TableGroups
