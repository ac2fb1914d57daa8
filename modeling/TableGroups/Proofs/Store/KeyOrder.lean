import TableGroups.Proofs.KeyComparator
import TableGroups.Proofs.Store.Fit
import TableGroups.Proofs.Value.Places

/-!
# A merge compares as the index does

An index keeps its rows by a total order of values, column by column (`Index.compareRows`).  A merge
of index rows compares the columns from some place on by the partial order of values, in the
directions of the index, and fails where that order is not defined (`Index.keyComparator`).  Beside
the two stands `Index.compareFrom`, which only says that the first of the columns in which two rows
differ decides.

* `Index.compareRuns_eq_compareFrom`: where the merge has an outcome it is this one, so from the
  first column on it is the order of the index.  It has none exactly where two values of different
  kinds meet first.
* `IndexSnapshot.Ordered.pairwise_notAfter`: entries that fit an index whose columns have kinds of
  their own are in order for a merge because they are in the order of the index.
-/

namespace TableGroups

namespace Index

variable {index : Index} {r s : List Value} {k : Nat}

/-- The order of two rows by the columns from `k` on: the first of these columns in which the rows
differ decides, in its direction. -/
def compareFrom (index : Index) (k : Nat) (r s : List Value) : Ordering :=
  firstDifference (fun p => (index.directions[p]?.getD .asc).orient (compareAt r s p))
    (List.range' k (index.width - k))

/-- The comparator of the columns from `k` on, each in its direction. -/
def keyComparator (index : Index) (k : Nat) : KeyComparator :=
  ⟨index.directions.drop k⟩

@[simp] theorem width_keyComparator (index : Index) (k : Nat) :
    (index.keyComparator k).width = index.width - k := by
  rw [KeyComparator.width, keyComparator, List.length_drop, length_directions]

theorem compareFrom_eq (index : Index) (k : Nat) (r s : List Value) :
    index.compareFrom k r s =
      compareAlong (index.directions.drop k) (r.drop k) (s.drop k) := by
  rw [compareAlong_drop_eq_firstDifference, length_directions, compareFrom]

/-- All columns together are in the order of the index. -/
theorem compareFrom_zero (index : Index) (r s : List Value) :
    index.compareFrom 0 r s = index.compareRows r s :=
  index.compareFrom_eq 0 r s

/-- **A merge compares as the index does.**  Take two rows of the width of an index, and compare the
columns from `k` on in their directions.  An outcome is that of the first of these columns in which
the rows differ in the total order of values, and if the comparison takes in all columns it is that
of the index.  There is no outcome exactly if the two rows are equal from `k` up to a place where
two values clash, and then the failure names these. -/
theorem compareRuns_eq_compareFrom (hk : k ≤ index.width) (hr : r.length = index.width)
    (hs : s.length = index.width) :
    (∀ o, (index.keyComparator k).compareRuns r k s k = .ok o →
        index.compareFrom k r s = o ∧ (k = 0 → index.compareRows r s = o)) ∧
      ∀ e, (index.keyComparator k).compareRuns r k s k = .error e ↔
        ∃ a b, e = .incomparable a b ∧ (index.keyComparator k).Clash r k s k a b := by
  constructor
  · intro o ho
    have hfrom : index.compareFrom k r s = o := by
      rw [compareFrom_eq]
      exact KeyComparator.compareAlong_of_compareFields ho
    refine ⟨hfrom, ?_⟩
    rintro rfl
    rw [← compareFrom_zero, hfrom]
  · intro e
    apply KeyComparator.compareRuns_eq_error_iff
    · rw [width_keyComparator, hr]
      omega
    · rw [width_keyComparator, hs]
      omega

/-- Two of these lines have the same shop and region and are told apart by the sale, the third has
another kind of number there. -/
theorem compareRuns_eq_compareFrom_linesByPrice :
    let r : List Value := [.int 250, .int 3, .int 10, .int 77, .int 2]
    let s : List Value := [.null, .int 3, .int 10, .int 76, .int 2]
    let t : List Value := [.uint 250, .int 3, .int 10, .uint 77, .int 1]
    linesByPrice.Built ∧ linesByPrice.compareRows r s = .lt ∧
      linesByPrice.compareFrom 1 r s = .gt ∧
      (linesByPrice.keyComparator 1).Clash r 1 t 1 (.int 77) (.uint 77) := by
  intro r s t
  obtain ⟨hall, -⟩ := @compareRuns_eq_compareFrom linesByPrice r s 0 (by decide) rfl rfl
  obtain ⟨hrest, -⟩ := @compareRuns_eq_compareFrom linesByPrice r s 1 (by decide) rfl rfl
  obtain ⟨-, hfails⟩ := @compareRuns_eq_compareFrom linesByPrice r t 1 (by decide) rfl rfl
  refine ⟨built_linesByPrice, (hall .lt rfl).2 rfl, (hrest .gt rfl).1, ?_⟩
  obtain ⟨a, b, he, hclash⟩ := (hfails (.incomparable (.int 77) (.uint 77))).mp rfl
  cases he
  exact hclash

/-! ### Rows that fit -/

/-- A row that fits an index begins with values of the kinds of the columns, from each column on. -/
theorem Fits.beginsWith (h : index.Fits r) (k : Nat) :
    KeyComparator.BeginsWith ((index.allColumns.drop k).map (·.column.kind)) (r.drop k) := by
  intro p kind hkind
  rw [List.getElem?_map, Option.map_eq_some_iff] at hkind
  obtain ⟨column, hcolumn, rfl⟩ := hkind
  rw [List.getElem?_drop] at hcolumn
  obtain ⟨value, hvalue, hfits⟩ := exists_getElem?_of_forall₂ h hcolumn
  exact ⟨value, List.getElem?_drop.trans hvalue, hfits⟩

/-- Rows that fit can be compared from each column on, unless the kind of a column says nothing. -/
theorem compareRuns_of_fits (hr : index.Fits r) (hs : index.Fits s)
    (hkinds : ∀ column ∈ index.allColumns, column.column.kind ≠ .any) (k : Nat) :
    (index.keyComparator k).compareRuns r k s k = .ok (index.compareFrom k r s) := by
  rw [compareFrom_eq]
  refine KeyComparator.compareFields_of_beginsWith ?_ ?_ (hr.beginsWith k) (hs.beginsWith k) 0
  · rw [keyComparator, List.length_drop, length_directions, List.length_map, List.length_drop,
      width]
  · intro kind hkind
    obtain ⟨column, hcolumn, rfl⟩ := List.mem_map.mp hkind
    exact hkinds column (List.mem_of_mem_drop hcolumn)

end Index

/-- Entries in index order are in order for a merge that compares all columns, if they fit the index
and the kinds of its columns all say something. -/
theorem IndexSnapshot.Ordered.pairwise_notAfter {slot : IndexSnapshot} (h : slot.Ordered)
    (hfits : ∀ entry ∈ slot.entries, slot.index.Fits entry)
    (hkinds : ∀ column ∈ slot.index.allColumns, column.column.kind ≠ .any) :
    slot.entries.Pairwise fun a b => (slot.index.keyComparator 0).NotAfter a 0 b 0 := by
  refine h.sorted.imp_of_mem fun {a b} ha hb hle => ?_
  refine ⟨_, Index.compareRuns_of_fits (hfits a ha) (hfits b hb) hkinds 0, ?_⟩
  rw [Index.compareFrom_zero]
  exact hle

end TableGroups
