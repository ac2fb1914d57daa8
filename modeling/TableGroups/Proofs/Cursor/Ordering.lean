import Mathlib.Data.List.Basic
import TableGroups.Proofs.Cursor.Equality
import TableGroups.Proofs.KeyComparator
import TableGroups.Proofs.Value.Places

/-!
# Scans deliver their orderings

A scan that is accepted with an ordering returns its rows in that ordering.  The ordering names the
trailing columns, and the entries are sorted by all of them, so this rests on the leading columns
being the same in all entries that the range covers.

The range pins them by giving both ends values that agree as fields.  Values that agree are the same
value (`Value.eq_or_zeros_of_agrees`), except that the two zeros of the floats agree and are kept in
different places.  So the ordering is delivered unless the ends of the range are the two zeros in a
pinned column (`KeyRange.StraddlesZero`).

* `IndexScan.scan_delivers_ordering`: away from the zeros every accepted scan delivers its ordering,
  and its rows pass the check of an intersection for the order of its inputs.
* `IndexScan.scan_around_zero_out_of_order`: between the two zeros an accepted scan does not.
-/

namespace TableGroups

/-! ### Orderings of rows -/

namespace RowOrdering

/-- How two rows lie in an ordering: the first of its fields in which they differ decides, in the
direction that is asked for. -/
def compareRows : RowOrdering → List Value → List Value → Ordering
  | [], _, _ => .eq
  | field :: rest, r, s =>
    (field.direction.orient (compareAt r s field.position)).then (compareRows rest r s)

variable {ordering : RowOrdering} {first : Nat} {r s : List Value}

/-- An ordering of trailing fields compares the ends of the rows. -/
theorem compareRows_of_trailing
    (h : ordering.map (·.position) = List.range' first ordering.length) :
    ordering.compareRows r s =
      compareAlong ordering.directions (r.drop first) (s.drop first) := by
  induction ordering generalizing first with
  | nil => cases r.drop first <;> rfl
  | cons field rest ih =>
    rw [List.map_cons, List.length_cons, List.range'_succ, List.cons.injEq] at h
    obtain ⟨hfield, hrest⟩ := h
    have hr : r.drop (first + 1) = (r.drop first).tail := List.tail_drop.symm
    have hs : s.drop (first + 1) = (s.drop first).tail := List.tail_drop.symm
    have hvalue : ∀ row : List Value, row[first]? = (row.drop first).head? :=
      fun row => List.head?_drop.symm
    rw [compareRows, ih hrest, hr, hs, compareAt, hfield, hvalue r, hvalue s]
    cases r.drop first with
    | nil => simp
    | cons v r =>
      cases s.drop first with
      | nil => simp
      | cons w s => rfl

end RowOrdering

/-! ### Pinned columns -/

namespace KeyRange

variable {range : KeyRange} {index : Index} {entry : List Value} {n : Nat}

/-- Whether the ends of the range are the two zeros in one of the first columns. -/
def StraddlesZero (range : KeyRange) (n : Nat) : Prop :=
  ∃ low high p x y, range.low = some low ∧ range.high = some high ∧ p < n ∧
    low.values[p]? = some (.float64 x) ∧ high.values[p]? = some (.float64 y) ∧
    x.isZero ∧ y.isZero ∧ x ≠ y

/-- What a range pins, both ends give values that agree. -/
theorem agrees_of_le_equalityPrefix (h : n ≤ range.equalityPrefix) (hn : 0 < n) :
    ∃ low high, range.low = some low ∧ range.high = some high ∧ low.inclusive ∧ high.inclusive ∧
      ∀ p < n, ∃ v w, low.values[p]? = some v ∧ high.values[p]? = some w ∧ v.agrees w := by
  unfold equalityPrefix at h
  split at h
  · next low high hlow hhigh =>
    split at h
    · next hinclusive =>
      rw [Bool.and_eq_true] at hinclusive
      refine ⟨low, high, hlow, hhigh, hinclusive.1, hinclusive.2, fun p hp => ?_⟩
      -- the pair at the place is one of those that were counted
      have hlt := Nat.lt_of_lt_of_le hp h
      have hpair := (List.takeWhile_prefix _).getElem hlt
      have hagrees := List.all_eq_true.mp List.all_takeWhile _ (List.getElem_mem hlt)
      have hzip := List.getElem?_eq_some_iff.mpr ⟨_, hpair.symm⟩
      obtain ⟨hv, hw⟩ := List.getElem?_zip_eq_some.mp hzip
      exact ⟨_, _, hv, hw, hagrees⟩
    · omega
  · omega

/-- Away from the zeros both ends give the same values to what they pin. -/
theorem take_eq_of_not_straddlesZero {low high : KeyBound} (hlow : range.low = some low)
    (hhigh : range.high = some high) (hzero : ¬ range.StraddlesZero n)
    (h : ∀ p < n, ∃ v w, low.values[p]? = some v ∧ high.values[p]? = some w ∧ v.agrees w) :
    high.values.take n = low.values.take n := by
  apply List.ext_getElem?
  intro p
  rw [List.getElem?_take, List.getElem?_take]
  split
  · next hp =>
    obtain ⟨v, w, hv, hw, hagrees⟩ := h p hp
    rcases Value.eq_or_zeros_of_agrees hagrees with rfl | ⟨x, y, rfl, rfl, hx, hy, hne⟩
    · rw [hv, hw]
    · exact absurd ⟨low, high, p, x, y, hlow, hhigh, hp, hv, hw, hx, hy, hne⟩ hzero
  · rfl

/-- An entry between two inclusive ends that begin with the same values begins with them. -/
theorem begins_of_covers {low high : KeyBound} (hlow : range.low = some low)
    (hhigh : range.high = some high) (hsame : high.values.take n = low.values.take n)
    (hlength : n ≤ low.values.length) (hwidth : n ≤ index.width)
    (hentry : entry.length = index.width) (h : range.covers index entry) :
    low.values.take n <+: entry := by
  have hds : (index.directions.take n).length = n :=
    List.length_take_of_le (by simpa using hwidth)
  have htake : (low.values.take n).length = n := List.length_take_of_le hlength
  have hsplit := List.take_append_drop n index.directions
  rw [covers, Bool.and_eq_true, startsBefore, stopsAfter, hlow, hhigh, Option.all_some,
    Option.all_some] at h
  -- the entry is not below the low end and not above the high one, on the first columns
  have hnotBelow : (compareAlong (index.directions.take n) (low.values.take n) entry).isLE := by
    have hle : (index.compareRows low.values entry).isLE := by
      rw [Index.compareRows_swap]
      cases hc : index.compareRows entry low.values <;> simp_all [KeyBound.admitsAbove]
    rw [Index.compareRows, ← hsplit] at hle
    have hfirst := compareAlong_isLE_of_append hle
    rw [compareAlong_swap, ← compareAlong_take_right, hds] at hfirst
    rwa [compareAlong_swap]
  have hnotAbove : (compareAlong (index.directions.take n) entry (low.values.take n)).isLE := by
    have hle : (index.compareRows entry high.values).isLE := by
      cases hc : index.compareRows entry high.values <;> simp_all [KeyBound.admitsBelow]
    rw [Index.compareRows, ← hsplit] at hle
    have hfirst := compareAlong_isLE_of_append hle
    rwa [← compareAlong_take_right, hds, hsame] at hfirst
  have heq : compareAlong (index.directions.take n) entry (low.values.take n) = .eq := by
    rw [compareAlong_swap] at hnotBelow
    cases hc : compareAlong (index.directions.take n) entry (low.values.take n) <;> simp_all
  exact (compareAlong_eq_iff_begins (by omega) (by omega)).mp heq

/-- Away from the zeros, all entries in a range begin with the values that it pins. -/
theorem exists_begins_of_covers (h : n ≤ range.equalityPrefix) (hzero : ¬ range.StraddlesZero n)
    (hwidth : n ≤ index.width) :
    ∃ values : List Value, values.length = n ∧
      ∀ entry : List Value, entry.length = index.width → range.covers index entry →
        values <+: entry := by
  rcases Nat.eq_zero_or_pos n with rfl | hn
  · exact ⟨[], rfl, fun _ _ _ => List.nil_prefix⟩
  · obtain ⟨low, high, hlow, hhigh, -, -, hagree⟩ := agrees_of_le_equalityPrefix h hn
    have hlength : n ≤ low.values.length := by
      obtain ⟨v, _, hv, -⟩ := hagree (n - 1) (by omega)
      have := (List.getElem?_eq_some_iff.mp hv).1
      omega
    have hsame := take_eq_of_not_straddlesZero hlow hhigh hzero hagree
    exact ⟨low.values.take n, List.length_take_of_le hlength, fun entry hentry hcovers =>
      begins_of_covers hlow hhigh hsame hlength hwidth hentry hcovers⟩

end KeyRange

/-! ### What a scan returns -/

namespace IndexScan

variable {id : StoreId} {range : KeyRange} {ordering : RowOrdering} {scan : IndexScan}
  {slot : IndexSnapshot}

/-- What is due in an ordering that is accepted is in order of the trailing columns, as the ordering
asks for them. -/
theorem pairwise_due (hordered : slot.Ordered) (htrails : ordering.Trails slot.index range)
    (hdirections : ordering.Repeats slot.index ∨ ordering.Flips slot.index)
    (hzero : ¬ range.StraddlesZero (slot.index.width - ordering.length)) :
    (due slot range ordering).Pairwise fun r s =>
      (compareAlong ordering.directions (r.drop (slot.index.width - ordering.length))
        (s.drop (slot.index.width - ordering.length))).isLE := by
  obtain ⟨values, hvalues, hbegins⟩ :=
    KeyRange.exists_begins_of_covers htrails.2.2 hzero (Nat.sub_le ..)
  have hwidth : values.length ≤ slot.index.width := by omega
  have hforward := pairwise_filter_of_begins hordered hwidth fun entry hentry =>
    hbegins entry (hordered.width entry hentry)
  rw [hvalues] at hforward
  unfold due
  rcases hdirections with hrep | hflip
  · rw [if_pos hrep, hrep]
    exact hforward
  · rw [if_neg hflip.not_repeats, List.pairwise_reverse, hflip.2]
    simpa only [compareAlong_map_reverse] using hforward

/-- **Scans deliver their orderings.**  Take an index of a store after any calls, and a scan of it
that is accepted with an ordering, whose range does not have the two zeros as its ends in a column
before the ordering.  Whatever happens while the scan is open, of the rows that it returns no later
one lies before an earlier one in the ordering; and no comparison along a beginning of the ordering
finds them out of order, so that an intersection never refuses them for their order. -/
theorem scan_delivers_ordering {calls : List StoreCall} {stores : Stores} {name : IndexName}
    (context : QueryContext) (hstore : stores id = IndexStore.run calls)
    (hslot : (stores id).snapshot name = .ok slot)
    (hplan : plan id slot.index range ordering = .ok scan) (hne : ordering ≠ [])
    (hzero : ¬ range.StraddlesZero (slot.index.width - ordering.length)) :
    Cursor.Serves stores context scan
        ((due slot range ordering).map (Row.mk (.ofIndex slot.index))) ∧
      (due slot range ordering).Pairwise fun r s =>
        ordering.compareRows r s ≠ .gt ∧
          ∀ directions, directions <+: ordering.directions →
            (KeyComparator.mk directions).compareRuns r (slot.index.width - ordering.length) s
              (slot.index.width - ordering.length) ≠ .ok .gt := by
  have hsound := IndexStore.sound_run calls
  rw [← hstore] at hsound
  obtain ⟨hname, hordered⟩ := hsound.of_snapshot hslot
  rw [← hname] at hslot
  obtain ⟨-, backward, hback, -⟩ := plan_eq_ok_iff.mp hplan
  obtain ⟨htrails, hdirections⟩ := (Index.scansBackward_eq_ok_iff hne).mp hback
  refine ⟨serves_due context hslot hordered hplan, ?_⟩
  refine (pairwise_due hordered htrails (hdirections.imp And.right And.right) hzero).imp ?_
  intro r s hle
  refine ⟨?_, fun directions hdirections hgt => ?_⟩
  · rw [RowOrdering.compareRows_of_trailing htrails.2.1]
    exact Ordering.isLE_iff_ne_gt.mp hle
  · obtain ⟨more, hmore⟩ := hdirections
    rw [← hmore] at hle
    have hfirst := compareAlong_isLE_of_append hle
    rw [KeyComparator.compareAlong_of_compareFields hgt] at hfirst
    cases hfirst

/-- The lines at 250 from shop 3 on, the last ones first. -/
theorem scan_delivers_ordering_sample :
    ∃ scan, plan 0 .linesByPrice ⟨some ⟨[.int 250, .int 3], true⟩, some ⟨[.int 250], true⟩⟩
        (.uniform [1, 2, 3, 4] .desc) = .ok scan ∧
      Cursor.Serves (fun _ => IndexStore.run sampleCalls) .standard scan
        ([[.int 250, .int 3, .int 10, .int 78, .int 1],
          [.int 250, .int 3, .int 10, .int 77, .int 2]].map (Row.mk (.ofIndex .linesByPrice))) ∧
      RowOrdering.compareRows (.uniform [1, 2, 3, 4] .desc)
        [.int 250, .int 3, .int 10, .int 78, .int 1]
        [.int 250, .int 3, .int 10, .int 77, .int 2] ≠ .gt := by
  have hslot : (IndexStore.run sampleCalls).snapshot Index.linesByPrice.name =
      .ok ⟨.linesByPrice,
        [[.int 250, .int 3, .int 10, .int 77, .int 2], [.int 250, .int 3, .int 10, .int 78, .int 1],
          [.int 100, .int 3, .int 10, .int 77, .int 3],
          [.int 90, .int 3, .int 10, .int 77, .int 1]]⟩ := by
    decide +kernel
  have hplan : plan 0 .linesByPrice
      ⟨some ⟨[.int 250, .int 3], true⟩, some ⟨[.int 250], true⟩⟩ (.uniform [1, 2, 3, 4] .desc) =
        .ok ⟨0, .linesByPrice, ⟨some ⟨[.int 250, .int 3], true⟩, some ⟨[.int 250], true⟩⟩, true,
          [], 0, .initial⟩ := by
    decide +kernel
  have hzero : ¬ KeyRange.StraddlesZero
      ⟨some ⟨[.int 250, .int 3], true⟩, some ⟨[.int 250], true⟩⟩ 1 := by
    rintro ⟨low, high, p, x, y, hlow, -, hp, hx, -⟩
    obtain rfl := Option.some.inj hlow
    obtain rfl : p = 0 := by omega
    simp at hx
  obtain ⟨hserves, hpairwise⟩ := @scan_delivers_ordering 0 _ _ _ _ sampleCalls
    (fun _ => IndexStore.run sampleCalls) _ .standard rfl hslot hplan (by decide) hzero
  exact ⟨_, hplan, hserves, (List.pairwise_pair.mp hpairwise).1⟩

end IndexScan

/-! ### Around zero -/

/-- Readings of a meter. -/
def Table.readings : Table :=
  .root ⟨⟨"db", "readings"⟩, [⟨"id", 0, .int, false⟩, ⟨"level", 1, .float64, true⟩], [0]⟩

theorem Table.declared_readings : Table.readings.Declared := by
  have hresolve : TableDeclaration.resolve
      ⟨⟨"db", "readings"⟩, [⟨"id", .int, false⟩, ⟨"level", .float64, true⟩], ["id"], none⟩ =
        .ok readings := rfl
  exact .resolved (by simp) hresolve

/-- Readings by their level. -/
def Index.readingsByLevel : Index where
  name := ⟨⟨"db", "readings"⟩, "by_level"⟩
  id := none
  unique := false
  constraint := .key
  span := .table
  valid := true
  treeName := "db.readings.by_level"
  leaf := .readings
  rootDepth := 0
  keyColumns := [⟨⟨"db", "readings"⟩, ⟨"level", 1, .float64, true⟩, 0, .asc⟩]
  allColumns :=
    [⟨⟨"db", "readings"⟩, ⟨"level", 1, .float64, true⟩, 0, .asc⟩,
      ⟨⟨"db", "readings"⟩, ⟨"id", 0, .int, false⟩, 1, .asc⟩]

theorem Index.built_readingsByLevel : readingsByLevel.Built := by
  refine ⟨{ IndexDraft.overTable .readings "by_level" false .key with
    keyColumns := readingsByLevel.keyColumns }, rfl, ?_⟩
  decide +kernel

namespace IndexScan

/-- From the negative zero to the positive one. -/
def zeros : KeyRange :=
  ⟨some ⟨[.float64 ⟨0x8000000000000000⟩], true⟩, some ⟨[.float64 ⟨0⟩], true⟩⟩

/-- Two readings of level zero, the later one below the earlier. -/
def zeroCalls : List StoreCall :=
  [.register .readingsByLevel,
    .insertTableRow .readings [.int 2, .float64 ⟨0x8000000000000000⟩],
    .insertTableRow .readings [.int 1, .float64 ⟨0⟩]]

/-- **Between the zeros a scan breaks its ordering.**  A scan from the negative zero to the positive
one is accepted with the order of the ids, and returns the readings in another. -/
theorem scan_around_zero_out_of_order :
    Index.readingsByLevel.Built ∧ Table.readings.Declared ∧
      ∃ scan, plan 0 .readingsByLevel zeros [⟨1, .asc⟩] = .ok scan ∧
        Cursor.Serves (fun _ => IndexStore.run zeroCalls) .standard scan
          ([[.float64 ⟨0x8000000000000000⟩, .int 2], [.float64 ⟨0⟩, .int 1]].map
            (Row.mk (.ofIndex .readingsByLevel))) ∧
        RowOrdering.compareRows [⟨1, .asc⟩] [.float64 ⟨0x8000000000000000⟩, .int 2]
          [.float64 ⟨0⟩, .int 1] = .gt := by
  have hslot : (IndexStore.run zeroCalls).snapshot Index.readingsByLevel.name =
      .ok ⟨.readingsByLevel,
        [[.float64 ⟨0x8000000000000000⟩, .int 2], [.float64 ⟨0⟩, .int 1]]⟩ := by
    decide +kernel
  have hordered : IndexSnapshot.Ordered ⟨.readingsByLevel,
      [[.float64 ⟨0x8000000000000000⟩, .int 2], [.float64 ⟨0⟩, .int 1]]⟩ :=
    ((IndexStore.sound_run zeroCalls).of_snapshot hslot).2
  have hplan : plan 0 .readingsByLevel zeros [⟨1, .asc⟩] =
      .ok ⟨0, .readingsByLevel, zeros, false, [], 0, .initial⟩ := by
    decide +kernel
  have hdue : due ⟨.readingsByLevel,
      [[.float64 ⟨0x8000000000000000⟩, .int 2], [.float64 ⟨0⟩, .int 1]]⟩ zeros [⟨1, .asc⟩] =
        [[.float64 ⟨0x8000000000000000⟩, .int 2], [.float64 ⟨0⟩, .int 1]] := by
    decide +kernel
  have hserves := @serves_due 0 _ _ _ (fun _ => IndexStore.run zeroCalls) _ .standard hslot hordered
    hplan
  rw [hdue] at hserves
  exact ⟨Index.built_readingsByLevel, Table.declared_readings, _, hplan, hserves, by decide⟩

end IndexScan

end TableGroups
