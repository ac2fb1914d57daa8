import Mathlib.Data.List.TakeWhile
import TableGroups.Proofs.Cursor.Scan
import TableGroups.Proofs.Value.Agreement

/-!
# Scans of one key

A scan of `KeyRange.equal values` returns the entries that begin with these values
(`covers_equal`).  The range pins as many columns as it has values, if none of them is NaN, so the
scan may be asked for the order of all further columns; where these are kept ascending it is
accepted in either direction (`plan_equal`), and what it returns is in order of the further columns
in that direction (`pairwise_window_equal`).
-/

namespace TableGroups

/-! ### The range -/

namespace KeyRange

variable {values entry : List Value} {index : Index}

theorem width_equal (values : List Value) : (equal values).width = values.length := by
  simp [width, equal, bounds]

/-- The range pins the columns that it has a value for, up to the first NaN. -/
theorem equalityPrefix_equal (values : List Value) :
    (equal values).equalityPrefix = (values.takeWhile fun v => !v.isNaN).length := by
  show (List.takeWhile _ (values.zip values)).length = _
  induction values with
  | nil => rfl
  | cons v values ih =>
    rw [List.zip_cons_cons, List.takeWhile_cons, List.takeWhile_cons]
    cases hv : v.isNaN with
    | true => simp [Value.agrees_self, hv]
    | false => simp [Value.agrees_self, hv, ih]

/-- The range pins every column that it has a value for exactly if no value is NaN. -/
theorem length_le_equalityPrefix_equal :
    values.length ≤ (equal values).equalityPrefix ↔ ∀ v ∈ values, v.isNaN = false := by
  have hself : values.length ≤ (values.takeWhile fun v => !v.isNaN).length ↔
      values.takeWhile (fun v => !v.isNaN) = values :=
    ⟨(List.takeWhile_prefix _).eq_of_length_le, fun hall => hall.symm ▸ Nat.le_refl _⟩
  rw [equalityPrefix_equal, hself, List.takeWhile_eq_self_iff]
  simp only [Bool.not_eq_true']

/-- The entries with the key are those that begin with its values. -/
theorem covers_equal (hvalues : values.length ≤ index.width) (hentry : entry.length = index.width) :
    (equal values).covers index entry ↔ values <+: entry := by
  have hcompare : index.compareRows entry values = .eq ↔ values <+: entry :=
    compareAlong_eq_iff_begins (by simpa using hvalues) (by omega)
  rw [← hcompare]
  cases h : index.compareRows entry values <;>
    simp [covers, startsBefore, stopsAfter, equal, KeyBound.admitsAbove, KeyBound.admitsBelow, h]

end KeyRange

/-! ### The order of the further columns -/

namespace RowOrdering

variable {positions : List Nat} {d : Direction}

@[simp] theorem length_uniform : (uniform positions d).length = positions.length :=
  List.length_map ..

@[simp] theorem map_position_uniform : (uniform positions d).map (·.position) = positions := by
  rw [uniform, List.map_map]
  exact List.map_id positions

@[simp] theorem directions_uniform :
    (uniform positions d).directions = List.replicate positions.length d := by
  rw [directions, uniform, List.map_map]
  exact List.map_const ..

end RowOrdering

namespace Index

variable {index : Index} {values : List Value} {d : Direction}

theorem checkRange_equal (hvalues : values.length ≤ index.width)
    (hfits : ∀ p ∈ index.allColumns.zip values, p.2.fits p.1.column.kind) :
    index.checkRange (.equal values) = .ok () := by
  have hmisfit : ∀ inclusive, index.misfit? ⟨values, inclusive⟩ = none := by
    intro inclusive
    rw [misfit?, List.find?_eq_none]
    intro p hp
    simp [hfits p hp]
  unfold checkRange
  rw [KeyRange.width_equal, if_neg (by omega)]
  simp [KeyRange.bounds, KeyRange.equal, hmisfit]

/-- If the columns without a value are kept ascending, their order is delivered both ways. -/
theorem scansBackward_equal (hvalues : values.length < index.width)
    (hnumbers : ∀ v ∈ values, v.isNaN = false)
    (hascending : index.directions.drop values.length =
      List.replicate (index.width - values.length) .asc) :
    index.scansBackward (.equal values)
      (.uniform (List.range' values.length (index.width - values.length)) d) =
        .ok (d == .desc) := by
  have hfirst : index.width - (index.width - values.length) = values.length := by omega
  have hne : RowOrdering.uniform (List.range' values.length (index.width - values.length)) d ≠
      [] := by
    rw [← List.length_pos_iff, RowOrdering.length_uniform, List.length_range']
    omega
  rw [scansBackward_eq_ok_iff hne, RowOrdering.Trails, RowOrdering.Repeats, RowOrdering.Flips,
    RowOrdering.length_uniform, RowOrdering.directions_uniform, RowOrdering.map_position_uniform,
    List.length_range', hfirst, hascending]
  refine ⟨⟨Nat.sub_le .., rfl, KeyRange.length_le_equalityPrefix_equal.mpr hnumbers⟩, ?_⟩
  cases d with
  | asc => exact Or.inl ⟨rfl, rfl⟩
  | desc => exact Or.inr ⟨rfl, hne, by simp [Direction.reverse]⟩

end Index

namespace IndexScan

variable {id : StoreId} {slot : IndexSnapshot} {values : List Value} {d : Direction}

/-- The scan of one key in the order of the further columns. -/
def ofKey (id : StoreId) (index : Index) (values : List Value) (d : Direction) : IndexScan :=
  ⟨id, index, .equal values, d == .desc, [], 0, .initial⟩

theorem plan_equal {index : Index} (hvalues : values.length < index.width)
    (hfits : ∀ p ∈ index.allColumns.zip values, p.2.fits p.1.column.kind)
    (hnumbers : ∀ v ∈ values, v.isNaN = false)
    (hascending : index.directions.drop values.length =
      List.replicate (index.width - values.length) .asc) :
    plan id index (.equal values)
      (.uniform (List.range' values.length (index.width - values.length)) d) =
        .ok (ofKey id index values d) :=
  plan_eq_ok_iff.mpr ⟨Index.checkRange_equal (by omega) hfits, _,
    Index.scansBackward_equal hvalues hnumbers hascending, rfl⟩

/-- A scan of one key is the stream of its window. -/
theorem streams_ofKey {stores : Stores} {context : QueryContext}
    (hslot : (stores id).snapshot slot.index.name = .ok slot)
    (hgo : context.interruption? = none) :
    Cursor.Streams stores context (ofKey id slot.index values d)
      (((ofKey id slot.index values d).window slot).map (Row.mk (.ofIndex slot.index))) none :=
  streams_window rfl hslot hgo

/-- The entries that begin with the values, in either direction. -/
theorem window_equal (hordered : slot.Ordered) (hvalues : values.length ≤ slot.index.width) :
    (ofKey id slot.index values d).window slot =
      if d = .asc then slot.entries.filter (values.isPrefixOf ·)
      else (slot.entries.filter (values.isPrefixOf ·)).reverse := by
  have hcovers : slot.entries.filter ((KeyRange.equal values).covers slot.index) =
      slot.entries.filter (values.isPrefixOf ·) := by
    apply List.filter_congr
    intro entry hentry
    rw [Bool.eq_iff_iff, List.isPrefixOf_iff_prefix]
    exact KeyRange.covers_equal hvalues (hordered.width entry hentry)
  have hwindow := @window_eq (ofKey id slot.index values d) slot hordered rfl
  rw [hwindow]
  show (if d == .desc then (slot.entries.filter ((KeyRange.equal values).covers slot.index)).reverse
    else slot.entries.filter ((KeyRange.equal values).covers slot.index)) = _
  rw [hcovers]
  cases d <;> rfl

/-- Entries with one key are in order of the columns behind it. -/
theorem compareAlong_drop_of_begins {ds : List Direction} {e f : List Value}
    (hlen : values.length ≤ ds.length) (he : values <+: e) (hf : values <+: f) :
    compareAlong (ds.drop values.length) (e.drop values.length) (f.drop values.length) =
      compareAlong ds e f := by
  obtain ⟨as, rfl⟩ := he
  obtain ⟨bs, rfl⟩ := hf
  have hsplit := List.take_append_drop values.length ds
  rw [List.drop_left, List.drop_left]
  conv_rhs => rw [← hsplit]
  rw [compareAlong_append _ _ (List.length_take_of_le hlen)]

/-- Entries that all begin with certain values are kept in order of the columns behind these. -/
theorem pairwise_filter_of_begins {p : List Value → Bool} (hordered : slot.Ordered)
    (hvalues : values.length ≤ slot.index.width)
    (hbegins : ∀ entry ∈ slot.entries, p entry → values <+: entry) :
    (slot.entries.filter p).Pairwise fun e f =>
      (compareAlong (slot.index.directions.drop values.length) (e.drop values.length)
        (f.drop values.length)).isLE := by
  refine (hordered.sorted.filter _).imp_of_mem fun {e f} he hf hle => ?_
  obtain ⟨he, hpe⟩ := List.mem_filter.mp he
  obtain ⟨hf, hpf⟩ := List.mem_filter.mp hf
  rw [compareAlong_drop_of_begins (by simpa using hvalues) (hbegins e he hpe) (hbegins f hf hpf)]
  exact hle

/-- What a scan of one key returns is in order of the further columns. -/
theorem pairwise_window_equal (hordered : slot.Ordered)
    (hvalues : values.length ≤ slot.index.width)
    (hascending : slot.index.directions.drop values.length =
      List.replicate (slot.index.width - values.length) .asc) :
    ((ofKey id slot.index values d).window slot).Pairwise fun e f =>
      (compareAlong (List.replicate (slot.index.width - values.length) d) (e.drop values.length)
        (f.drop values.length)).isLE := by
  have hforward : (slot.entries.filter (values.isPrefixOf ·)).Pairwise fun e f =>
      (compareAlong (List.replicate (slot.index.width - values.length) .asc) (e.drop values.length)
        (f.drop values.length)).isLE := by
    rw [← hascending]
    exact pairwise_filter_of_begins hordered hvalues fun _ _ => List.isPrefixOf_iff_prefix.mp
  rw [window_equal hordered hvalues]
  cases d with
  | asc => exact hforward
  | desc =>
    have hturned : List.replicate (slot.index.width - values.length) Direction.desc =
        (List.replicate (slot.index.width - values.length) Direction.asc).map
          Direction.reverse := by
      rw [List.map_replicate]
      rfl
    rw [if_neg (by decide), List.pairwise_reverse, hturned]
    simpa only [compareAlong_map_reverse] using hforward

end IndexScan

end TableGroups
