import TableGroups.Proofs.Index.Build
import TableGroups.Proofs.Store.Run

/-!
# Bounds of stored entries

Two comparisons have to be total orders for an index to keep its entries: that of values, and that
of the rows of an index (`TotalOn`).  Rows of the full width are ordered totally whatever the
directions of the columns are (`Index.totalOn_compareRows`).

A bound gives values for the leading columns only, so it is no row of the index, and entries are
compared with it as far as it goes.  Along entries in index order this comparison goes one way all
the same: those before the bound come first, then those that agree with it, then those behind it
(`Ordered.splits_lt`, `Ordered.splits_isLE`).  So the entries that pass either test are the first
ones, and the searches count them.

* `IndexSnapshot.bounds_of_ordered`: both orders are total, and the two bounds of a probe are the
  lengths of the two initial segments.
-/

namespace TableGroups

/-- A comparison is a total order of the things with a property: swapping two of them swaps the
outcome, it is transitive, and only a thing itself compares equal to it. -/
structure TotalOn {α : Type} (cmp : α → α → Ordering) (P : α → Prop) : Prop where
  eq_swap : ∀ a b, P a → P b → cmp a b = (cmp b a).swap
  isLE_trans : ∀ a b c, P a → P b → P c → (cmp a b).isLE → (cmp b c).isLE → (cmp a c).isLE
  eq_iff : ∀ a b, P a → P b → (cmp a b = .eq ↔ a = b)

theorem Value.totalOn_canonicalCompare : TotalOn Value.canonicalCompare fun _ => True where
  eq_swap v w _ _ := canonicalCompare_swap v w
  isLE_trans _ _ _ _ _ _ := canonicalCompare_isLE_trans
  eq_iff _ _ _ _ := Std.LawfulEqCmp.compare_eq_iff_eq

/-- Floats are told apart by their bits. -/
theorem Binary64.totalCompare_eq_eq_iff {x y : Binary64} :
    x.totalCompare y = .eq ↔ x.bits = y.bits := by
  rw [Std.LawfulEqCmp.compare_eq_iff_eq]
  cases x
  cases y
  exact Iff.of_eq (mk.injEq ..)

/-- Rows of the full width are ordered totally, in whichever directions the columns run. -/
theorem Index.totalOn_compareRows (index : Index) :
    TotalOn index.compareRows fun row => row.length = index.width where
  eq_swap a b _ _ := index.compareRows_swap a b
  isLE_trans _ _ _ _ hb _ := Index.compareRows_isLE_trans (Nat.le_of_eq hb.symm)
  eq_iff a b ha hb := by
    constructor
    · intro h
      refine eq_of_compareAlong_eq ?_ ?_ h
      · rw [ha, index.length_directions]
      · rw [hb, index.length_directions]
    · rintro rfl
      exact compareAlong_self _ _

/-- What passes a test that splits a list is an initial segment of the list. -/
theorem Splits.filter_isPrefix {α : Type} {p : α → Bool} {xs : List α} (h : Splits p xs) :
    xs.filter p <+: xs := by
  rw [← h.takeWhile_eq_filter]
  exact List.takeWhile_prefix p

namespace IndexSnapshot

variable {slot : IndexSnapshot}

/-- Fewer entries lie before a probe than do not lie behind it. -/
theorem length_filter_lt_le (slot : IndexSnapshot) (probe : List Value → Ordering) :
    (slot.entries.filter fun entry => probe entry == .lt).length ≤
      (slot.entries.filter fun entry => probe entry != .gt).length := by
  refine (List.monotone_filter_right slot.entries fun entry hlt => ?_).length_le
  rw [beq_iff_eq.mp hlt]
  rfl

/-- **Bounds.**  The order of values is total, and floats compare equal exactly if their bits are
equal.  The order of the full rows of any index is total.  Take entries of an index in index order,
and a bound that gives values for any number of its leading columns.  Then the entries before the
bound are an initial segment of the entries, and so are those that are not behind it, and the lower
and the upper bound are the lengths of these segments. -/
theorem bounds_of_ordered :
    TotalOn Value.canonicalCompare (fun _ => True) ∧
    (∀ x y : Binary64, (Value.float64 x).canonicalCompare (.float64 y) = x.totalCompare y ∧
      (x.totalCompare y = .eq ↔ x.bits = y.bits)) ∧
    (∀ index : Index, TotalOn index.compareRows fun row => row.length = index.width) ∧
    ∀ slot : IndexSnapshot, slot.Ordered → ∀ bound : List Value,
      let probe := fun entry => slot.index.compareRows entry bound
      slot.entries.filter (fun entry => probe entry == .lt) <+: slot.entries ∧
        slot.entries.filter (fun entry => probe entry != .gt) <+: slot.entries ∧
        slot.lowerBound probe = (slot.entries.filter fun entry => probe entry == .lt).length ∧
        slot.upperBound probe = (slot.entries.filter fun entry => probe entry != .gt).length ∧
        slot.lowerBound probe ≤ slot.upperBound probe := by
  refine ⟨Value.totalOn_canonicalCompare, fun x y => ⟨rfl, Binary64.totalCompare_eq_eq_iff⟩,
    Index.totalOn_compareRows, ?_⟩
  intro slot h bound probe
  have hlt := h.splits_lt bound
  have hle := h.splits_isLE bound
  have hlower : slot.lowerBound probe = _ := boundary_eq_length_filter hlt
  have hupper : slot.upperBound probe = _ := boundary_eq_length_filter hle
  refine ⟨hlt.filter_isPrefix, hle.filter_isPrefix, hlower, hupper, ?_⟩
  rw [hlower, hupper]
  exact slot.length_filter_lt_le probe

/-- Lines by price, highest first, two of them at one price and one without a price. -/
def pricedLines : IndexSnapshot where
  index := .linesByPrice
  entries :=
    [[.int 9, .int 3, .int 10, .int 77, .int 2],
      [.int 5, .int 3, .int 10, .int 77, .int 1],
      [.int 5, .int 3, .int 11, .int 70, .int 1],
      [.null, .int 3, .int 10, .int 77, .int 3]]

theorem ordered_pricedLines : pricedLines.Ordered where
  width := by decide
  sorted := by decide

/-- Of four lines one comes before the price 5, and three do not come behind it.  The order of these
lines is that of the shops and regions where the prices are equal. -/
theorem bounds_of_ordered_pricedLines :
    pricedLines.Ordered ∧
      pricedLines.lowerBound (pricedLines.index.compareRows · [.int 5]) = 1 ∧
      pricedLines.upperBound (pricedLines.index.compareRows · [.int 5]) = 3 ∧
      pricedLines.upperBound (pricedLines.index.compareRows · []) = 4 ∧
      (Index.linesByPrice.compareRows [.int 5, .int 3, .int 11, .int 70, .int 1]
        [.int 5, .int 3, .int 10, .int 77, .int 1]).swap = .lt := by
  obtain ⟨-, -, hrows, hbounds⟩ := bounds_of_ordered
  obtain ⟨-, -, hlower, hupper, -⟩ := hbounds pricedLines ordered_pricedLines [.int 5]
  obtain ⟨-, -, -, hall, -⟩ := hbounds pricedLines ordered_pricedLines []
  have hswap := (hrows .linesByPrice).eq_swap [.int 5, .int 3, .int 10, .int 77, .int 1]
    [.int 5, .int 3, .int 11, .int 70, .int 1] rfl rfl
  refine ⟨ordered_pricedLines, ?_, ?_, ?_, ?_⟩
  · exact hlower.trans (by decide)
  · exact hupper.trans (by decide)
  · exact hall.trans (by decide)
  · exact hswap.symm.trans (by decide)

end IndexSnapshot

end TableGroups
