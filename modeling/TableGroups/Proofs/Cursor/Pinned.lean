import TableGroups.Proofs.Cursor.Ordering

/-!
# The columns that a key pins

The range `KeyRange.equal values` is meant to pin the columns that it has values for, so that a scan
may be asked for the order of all others.  What lies in the range is judged by the order of the
stores, in which every value is equal to itself and to nothing else (`KeyRange.covers_equal_eq`).
What the range pins is judged by equality of fields, in which NaN is not equal to itself.  So the
two do not come to the same:

* `IndexScan.plan_equal_iff`: without NaN the scan is accepted and returns the entries that begin
  with the values, in the order that was asked for.  With NaN it is accepted only if no column is
  left over.
* `IndexScan.plan_equal_nan`: the readings without a level all have the level NaN and are in order
  of their ids, but a scan of them in this order is refused.
-/

namespace TableGroups

/-! ### Entries that begin with values -/

namespace KeyRange

/-- Whether the first values of an entry and these values are equal in the order of the stores. -/
def begins (values entry : List Value) : Bool :=
  List.isEqv values (entry.take values.length) fun v w => v.canonicalCompare w == .eq

variable {values entry : List Value} {index : Index}

/-- Only equal values are equal in the order of the stores. -/
theorem begins_iff : begins values entry ↔ values <+: entry := by
  induction values generalizing entry with
  | nil => simp [begins]
  | cons v values ih =>
    cases entry with
    | nil => simp [begins]
    | cons w entry =>
      have hrest : begins (v :: values) (w :: entry) =
          (v.canonicalCompare w == .eq && begins values entry) := rfl
      rw [hrest, Bool.and_eq_true, beq_iff_eq, Std.LawfulEqCmp.compare_eq_iff_eq, ih,
        List.cons_prefix_cons]

/-- The range of a key covers the entries that begin with its values. -/
theorem covers_equal_eq (hvalues : values.length ≤ index.width)
    (hentry : entry.length = index.width) :
    (equal values).covers index entry = begins values entry := by
  rw [Bool.eq_iff_iff, covers_equal hvalues hentry, begins_iff]

end KeyRange

/-! ### Acceptance -/

namespace Index

variable {index : Index} {range : KeyRange} {ordering : RowOrdering}

/-- An ordering of trailing columns is refused if the range does not pin all columns before them. -/
theorem scansBackward_of_unbound (hne : ordering ≠ []) (hlength : ordering.length ≤ index.width)
    (hpositions : ordering.map (·.position) =
      List.range' (index.width - ordering.length) ordering.length)
    (hshort : range.equalityPrefix < index.width - ordering.length) :
    index.scansBackward range ordering =
      .error (.orderingUnbound index.name (index.width - ordering.length - 1)) := by
  have hempty : ¬ List.isEmpty ordering = true := by simpa using hne
  unfold scansBackward
  dsimp only
  rw [if_neg hempty, if_neg (by omega), if_neg (not_not.mpr hpositions), if_pos hshort]

end Index

namespace RowOrdering

variable {index : Index} {values : List Value} {ordering : RowOrdering}

/-- An ordering of all columns behind a key has as many fields as there are such columns. -/
theorem length_of_behind
    (h : ordering.map (·.position) =
      List.range' values.length (index.width - values.length)) :
    ordering.length = index.width - values.length := by
  simpa using congrArg List.length h

end RowOrdering

namespace IndexScan

variable {id : StoreId} {slot : IndexSnapshot} {values : List Value} {ordering : RowOrdering}

/-- The entries of a slot that begin with the values, in the order that is asked for. -/
def pinned (slot : IndexSnapshot) (values : List Value) (ordering : RowOrdering) :
    List (List Value) :=
  if ordering.Repeats slot.index then slot.entries.filter (KeyRange.begins values)
  else (slot.entries.filter (KeyRange.begins values)).reverse

/-- They are what a scan of the key is to return. -/
theorem due_equal (hordered : slot.Ordered) (hvalues : values.length ≤ slot.index.width) :
    due slot (.equal values) ordering = pinned slot values ordering := by
  have hcovers : slot.entries.filter ((KeyRange.equal values).covers slot.index) =
      slot.entries.filter (KeyRange.begins values) :=
    List.filter_congr fun entry hentry =>
      KeyRange.covers_equal_eq hvalues (hordered.width entry hentry)
  rw [due, pinned, hcovers]

section

variable (hvalues : values.length ≤ slot.index.width)
  (hpositions : ordering.map (·.position) =
    List.range' values.length (slot.index.width - values.length))
  (hdirections : ordering.Repeats slot.index ∨ ordering.Flips slot.index)

include hvalues hpositions hdirections

/-- All of them have the same values before the columns of the ordering, and so they are in its
order. -/
theorem pairwise_pinned (hordered : slot.Ordered) :
    (pinned slot values ordering).Pairwise fun r s => ordering.compareRows r s ≠ .gt := by
  have hlength := RowOrdering.length_of_behind hpositions
  have hfirst : slot.index.width - ordering.length = values.length := by omega
  have hforward := pairwise_filter_of_begins hordered hvalues fun entry _ hbegins =>
    KeyRange.begins_iff.mp hbegins
  have hcompare : ∀ r s, ordering.compareRows r s ≠ .gt ↔
      (compareAlong ordering.directions (r.drop values.length) (s.drop values.length)).isLE := by
    intro r s
    rw [RowOrdering.compareRows_of_trailing (hlength ▸ hpositions), Ordering.isLE_iff_ne_gt]
  simp only [hcompare]
  unfold pinned
  rcases hdirections with hrepeats | hflips
  · rw [if_pos hrepeats, hrepeats, hfirst]
    exact hforward
  · rw [if_neg hflips.not_repeats, List.pairwise_reverse, hflips.2, hfirst]
    simpa only [compareAlong_map_reverse] using hforward

variable (hfits : ∀ p ∈ slot.index.allColumns.zip values, p.2.fits p.1.column.kind)

include hfits

/-- A scan in the order of the columns behind the key is accepted if there are none, or if no value
of the key is NaN. -/
theorem exists_plan_equal
    (h : values.length = slot.index.width ∨ ∀ v ∈ values, v.isNaN = false) :
    ∃ scan, plan id slot.index (.equal values) ordering = .ok scan := by
  have hrange := Index.checkRange_equal hvalues hfits
  have hlength := RowOrdering.length_of_behind hpositions
  by_cases hne : ordering = []
  · subst hne
    exact ⟨_, plan_eq_ok_iff.mpr ⟨hrange, _, Index.scansBackward_nil, rfl⟩⟩
  · have hpos : 0 < ordering.length := List.length_pos_of_ne_nil hne
    have hnumbers : ∀ v ∈ values, v.isNaN = false := h.resolve_left (by omega)
    have hfirst : slot.index.width - ordering.length = values.length := by omega
    have htrails : ordering.Trails slot.index (.equal values) := by
      refine ⟨by omega, ?_, ?_⟩
      · rw [hfirst, hlength]
        exact hpositions
      · rw [hfirst]
        exact KeyRange.length_le_equalityPrefix_equal.mpr hnumbers
    rcases hdirections with hrepeats | hflips
    · have hback : slot.index.scansBackward (.equal values) ordering = .ok false :=
        (Index.scansBackward_eq_ok_iff hne).mpr ⟨htrails, .inl ⟨rfl, hrepeats⟩⟩
      exact ⟨_, plan_eq_ok_iff.mpr ⟨hrange, _, hback, rfl⟩⟩
    · have hback : slot.index.scansBackward (.equal values) ordering = .ok true :=
        (Index.scansBackward_eq_ok_iff hne).mpr ⟨htrails, .inr ⟨rfl, hflips⟩⟩
      exact ⟨_, plan_eq_ok_iff.mpr ⟨hrange, _, hback, rfl⟩⟩

omit hdirections in
/-- Otherwise the last column of the key is said to be unbound. -/
theorem plan_equal_of_nan (hleft : values.length < slot.index.width)
    (hnan : ∃ v ∈ values, v.isNaN) :
    plan id slot.index (.equal values) ordering =
      .error (.orderingUnbound slot.index.name (values.length - 1)) := by
  have hrange := Index.checkRange_equal hvalues hfits
  have hlength := RowOrdering.length_of_behind hpositions
  have hfirst : slot.index.width - ordering.length = values.length := by omega
  have hne : ordering ≠ [] := by
    rw [← List.length_pos_iff]
    omega
  have hshort : (KeyRange.equal values).equalityPrefix < values.length := by
    rw [← Nat.not_le, KeyRange.length_le_equalityPrefix_equal]
    intro hnumbers
    obtain ⟨v, hv, hvnan⟩ := hnan
    exact Bool.false_ne_true ((hnumbers v hv).symm.trans hvnan)
  have hback : slot.index.scansBackward (.equal values) ordering =
      .error (.orderingUnbound slot.index.name (values.length - 1)) := by
    have hunbound := @Index.scansBackward_of_unbound slot.index (.equal values) ordering hne
      (by omega) (by rw [hfirst, hlength]; exact hpositions) (by omega)
    rwa [hfirst] at hunbound
  rw [plan, hrange, hback]
  rfl

end

/-- **Ranges of one key.**  Take an index of a store after any calls, values that fit its first
columns, and the ordering that names all columns behind them, either in the declared directions or
in their reverses.  A scan of the key in this ordering is accepted exactly if no column is behind
the values or none of them is NaN.  If it is, it returns the entries whose first values are equal to
the given ones in the order of the stores, each once, whatever happens to the stores while it is
open, and they are in the ordering. -/
theorem plan_equal_iff {calls : List StoreCall} {stores : Stores} {name : IndexName}
    (context : QueryContext) (hstore : stores id = IndexStore.run calls)
    (hslot : (stores id).snapshot name = .ok slot) (hvalues : values.length ≤ slot.index.width)
    (hfits : ∀ p ∈ slot.index.allColumns.zip values, p.2.fits p.1.column.kind)
    (hpositions : ordering.map (·.position) =
      List.range' values.length (slot.index.width - values.length))
    (hdirections : ordering.Repeats slot.index ∨ ordering.Flips slot.index) :
    ((∃ scan, plan id slot.index (.equal values) ordering = .ok scan) ↔
        values.length = slot.index.width ∨ ∀ v ∈ values, v.isNaN = false) ∧
      ∀ scan, plan id slot.index (.equal values) ordering = .ok scan →
        Cursor.Serves stores context scan
            ((pinned slot values ordering).map (Row.mk (.ofIndex slot.index))) ∧
          (pinned slot values ordering).Pairwise fun r s => ordering.compareRows r s ≠ .gt := by
  have hsound := IndexStore.sound_run calls
  rw [← hstore] at hsound
  obtain ⟨hname, hordered⟩ := hsound.of_snapshot hslot
  rw [← hname] at hslot
  refine ⟨⟨?_, exists_plan_equal hvalues hpositions hdirections hfits⟩, fun scan hplan => ?_⟩
  · rintro ⟨scan, hplan⟩
    by_contra hrefused
    obtain ⟨hleft, hnan⟩ := not_or.mp hrefused
    have hnan : ∃ v ∈ values, v.isNaN := by simpa using hnan
    rw [plan_equal_of_nan hvalues hpositions hfits (by omega) hnan] at hplan
    cases hplan
  · have hserves := serves_due context hslot hordered hplan
    rw [due_equal hordered hvalues] at hserves
    exact ⟨hserves, pairwise_pinned hvalues hpositions hdirections hordered⟩

/-- Four readings, two of them at the negative zero. -/
def levelCalls : List StoreCall :=
  [.register .readingsByLevel,
    .insertTableRow .readings [.int 2, .float64 ⟨0x8000000000000000⟩],
    .insertTableRow .readings [.int 1, .float64 ⟨0⟩],
    .insertTableRow .readings [.int 5, .float64 ⟨0x8000000000000000⟩],
    .insertTableRow .readings [.int 3, .float64 ⟨0x7ff8000000000000⟩]]

/-- The readings at the negative zero, the last one first.  The positive zero is another value. -/
theorem plan_equal_iff_negativeZero :
    ∃ scan, plan 0 .readingsByLevel (.equal [.float64 ⟨0x8000000000000000⟩]) [⟨1, .desc⟩] =
        .ok scan ∧
      Cursor.Serves (fun _ => IndexStore.run levelCalls) .standard scan
        ([[.float64 ⟨0x8000000000000000⟩, .int 5], [.float64 ⟨0x8000000000000000⟩, .int 2]].map
          (Row.mk (.ofIndex .readingsByLevel))) ∧
      RowOrdering.compareRows [⟨1, .desc⟩] [.float64 ⟨0x8000000000000000⟩, .int 5]
        [.float64 ⟨0x8000000000000000⟩, .int 2] ≠ .gt := by
  have hslot : (IndexStore.run levelCalls).snapshot Index.readingsByLevel.name =
      .ok ⟨.readingsByLevel,
        [[.float64 ⟨0x8000000000000000⟩, .int 2], [.float64 ⟨0x8000000000000000⟩, .int 5],
          [.float64 ⟨0⟩, .int 1], [.float64 ⟨0x7ff8000000000000⟩, .int 3]]⟩ := by
    decide +kernel
  obtain ⟨haccepted, hscan⟩ := @plan_equal_iff 0 _ [.float64 ⟨0x8000000000000000⟩] [⟨1, .desc⟩]
    levelCalls (fun _ => IndexStore.run levelCalls) _ .standard rfl hslot (by decide) (by decide)
    (by decide) (.inr ⟨by decide, by decide⟩)
  obtain ⟨scan, hplan⟩ := haccepted.mpr (.inr (by decide))
  obtain ⟨hserves, hpairwise⟩ := hscan scan hplan
  have hturned := List.pairwise_pair.mp hpairwise
  exact ⟨scan, hplan, hserves, hturned⟩

/-- **A key with NaN is refused.**  The readings by level are kept in order of level and id, and a
reading of level NaN is among them.  NaN fits the level, and an ordering by the id names all columns
behind it in the declared direction, but a scan of this level is not planned: the level is said to
be unbound. -/
theorem plan_equal_nan :
    Index.readingsByLevel.Built ∧ Table.readings.Declared ∧
      ∃ slot, (IndexStore.run levelCalls).snapshot Index.readingsByLevel.name = .ok slot ∧
        slot.index = .readingsByLevel ∧
        slot.entries.filter (KeyRange.begins [.float64 ⟨0x7ff8000000000000⟩]) =
          [[.float64 ⟨0x7ff8000000000000⟩, .int 3]] ∧
        (∀ p ∈ Index.readingsByLevel.allColumns.zip [Value.float64 ⟨0x7ff8000000000000⟩],
          p.2.fits p.1.column.kind) ∧
        RowOrdering.Repeats [⟨1, .asc⟩] .readingsByLevel ∧
        plan 0 .readingsByLevel (.equal [.float64 ⟨0x7ff8000000000000⟩]) [⟨1, .asc⟩] =
          .error (.orderingUnbound Index.readingsByLevel.name 0) := by
  refine ⟨Index.built_readingsByLevel, Table.declared_readings, ⟨.readingsByLevel,
    [[.float64 ⟨0x8000000000000000⟩, .int 2], [.float64 ⟨0x8000000000000000⟩, .int 5],
      [.float64 ⟨0⟩, .int 1], [.float64 ⟨0x7ff8000000000000⟩, .int 3]]⟩, ?_, rfl, ?_⟩
  · decide +kernel
  · decide +kernel

end IndexScan

end TableGroups
