import Mathlib.Data.List.Forall2
import TableGroups.Proofs.Cursor.Equality
import TableGroups.Proofs.Cursor.Merge
import TableGroups.Proofs.Index.OverTable
import TableGroups.Proofs.Store.Insert

/-!
# Scans of one key over inserted rows

An index is `Keyed` if it has, behind a single key column, certain columns of its table; a slot
`Holds` rows if its entries are what its index makes of them.  For a scan of one value of the key
column this means: it is accepted, with the order of all further columns in either direction
(`Keyed.plan_ofKey`); it returns the entries of the rows that have the value (`Keyed.window_perm`);
and these ascend along the columns behind the key column, so that they can be merged by them
(`Keyed.ascending_keyInput`).
-/

namespace TableGroups

/-- The columns at these positions are of these kinds, each of which says something. -/
def Table.KindsAt (table : Table) (ps : List Nat) (kinds : List FieldKind) : Prop :=
  List.Forall₂ (fun kind p => kind ≠ .any ∧ ∃ column,
    table.columns[p]? = some column ∧ column.kind = kind) kinds ps

theorem Table.KindsAt.ne_any {table : Table} {ps : List Nat} {kinds : List FieldKind}
    (h : table.KindsAt ps kinds) : ∀ kind ∈ kinds, kind ≠ .any := by
  intro kind hkind
  obtain ⟨p, -, hne, -⟩ := exists_of_mem_left h hkind
  exact hne

/-- The slot is in order, and its entries are what its index makes of these rows. -/
structure IndexSnapshot.Holds (slot : IndexSnapshot) (rows : List (List Value)) : Prop where
  ordered : slot.Ordered
  entries : ∃ entries, rows.mapM (Composition.ofIndex slot.index).indexRow? = some entries ∧
    slot.entries.Perm entries

/-- After insertions, an index over a table that had no entries holds the rows of its table. -/
theorem IndexStore.exists_holds {store after : IndexStore} {index : Index}
    {inserts : List (Table × List Value)} (hsound : store.Sound)
    (hslot : store.slots.find? index.name = some ⟨index, []⟩)
    (hinserts : insertRows inserts store = some after) (hspan : index.span = .table) :
    ∃ slot, after.snapshot index.name = .ok slot ∧ slot.index = index ∧
      slot.Holds (rowsOf index.leaf.name inserts) := by
  obtain ⟨hafter, -, slot, entries, hfind, hindex, hentries, hperm⟩ :=
    insertRows_spec hsound hinserts hslot
  have htable : index.isTableIndex = true := by
    rw [Index.isTableIndex, Index.kind, hspan]
    rfl
  have hover : (inserts.filter fun insert => index.isOver insert.1.name) =
      inserts.filter (·.1.name == index.leaf.name) := by
    apply List.filter_congr
    intro insert _
    rw [Index.isOver, htable, Bool.true_and, Bool.beq_comm]
  refine ⟨slot, snapshot_eq_ok_iff.mpr hfind, hindex, (hafter _ _ hfind).2, entries, ?_, hperm⟩
  rw [rowsOf, List.mapM_map, hindex, ← hover]
  exact hentries

namespace Index

/-- The index has, behind its one key column, the columns at these positions of its table. -/
structure Keyed (index : Index) (table : Table) (key : IndexColumn) (ps : List Nat) : Prop
    extends index.OverColumn table key where
  sound : table.Sound
  positions : ∃ rest, index.positions = key.column.position :: (ps ++ rest)

/-- A scan of the index as an input that is ordered on all columns behind the first. -/
def keyInput (index : Index) (scan : IndexScan) : InputRequest IndexScan :=
  ⟨scan, .ofIndex index, index.width - 1⟩

@[simp] theorem counted_keyInput {index : Index} {scan : IndexScan} (entries : List (List Value)) :
    (index.keyInput scan).counted (entries.map (Row.mk (.ofIndex index))) =
      entries.map (Row.mk (.ofIndex index)) := by
  rw [InputRequest.counted, List.filter_eq_self]
  intro row hrow
  obtain ⟨entry, -, rfl⟩ := List.mem_map.mp hrow
  exact beq_self_eq_true _

namespace Keyed

variable {index : Index} {table : Table} {key : IndexColumn} {ps : List Nat}
  {kinds : List FieldKind} {row entry : List Value} {v : Value} {d : Direction} {id : StoreId}

/-! ### One entry -/

theorem length_lt_width (h : index.Keyed table key ps) : ps.length < index.width := by
  obtain ⟨rest, hpositions⟩ := h.positions
  have hlength := congrArg List.length hpositions
  rw [Index.positions, List.length_map, List.length_cons, List.length_append] at hlength
  rw [width]
  omega

theorem length_singleton_le (h : index.Keyed table key ps) (v : Value) :
    [v].length ≤ index.width :=
  Nat.succ_le_of_lt (Nat.zero_lt_of_lt h.length_lt_width)

/-- The columns behind the first begin with the second. -/
theorem keyStart_keyInput (h : index.Keyed table key ps) (scan : IndexScan) :
    (index.keyInput scan).keyStart = 1 := by
  have hlt := h.length_lt_width
  show (index.allColumns.map _).length - (index.allColumns.length - 1) = 1
  rw [width] at hlt
  rw [List.length_map]
  omega

/-- An entry is a value of the row, and then its fields at the positions. -/
theorem entry_spec (h : index.Keyed table key ps)
    (hentry : (Composition.ofIndex index).indexRow? row = some entry) :
    ∃ v fields rest, entry = v :: (fields ++ rest) ∧ row[key.column.position]? = some v ∧
      ps.mapM (row[·]?) = some fields := by
  obtain ⟨more, hpositions⟩ := h.positions
  rw [h.built.indexRow?_eq_positions (h.leaf ▸ h.sound) h.span, hpositions, mapM_eq_some_iff,
    List.forall₂_cons_left_iff] at hentry
  obtain ⟨v, tail, hv, htail, rfl⟩ := hentry
  have hfields := (List.forall₂_take_append _ _ _ htail.flip).flip
  refine ⟨v, tail.take ps.length, tail.drop ps.length, ?_, hv, mapM_eq_some_iff.mpr hfields⟩
  rw [List.take_append_drop]

/-- The entries that begin with a value are those of the rows with the value. -/
theorem prefix_iff (h : index.Keyed table key ps)
    (hentry : (Composition.ofIndex index).indexRow? row = some entry) :
    [v] <+: entry ↔ row[key.column.position]? = some v := by
  obtain ⟨w, fields, rest, rfl, hw, -⟩ := h.entry_spec hentry
  rw [List.cons_prefix_cons, hw, Option.some.injEq, eq_comm]
  exact and_iff_left List.nil_prefix

/-- Behind the key, an entry has values of the columns' kinds. -/
theorem beginsWith (h : index.Keyed table key ps) (hkinds : table.KindsAt ps kinds)
    (hrow : checkTableRow table row = .ok ())
    (hentry : (Composition.ofIndex index).indexRow? row = some entry) :
    KeyComparator.BeginsWith kinds (entry.drop 1) := by
  intro i kind hkind
  obtain ⟨v, fields, rest, rfl, -, hfields⟩ := h.entry_spec hentry
  obtain ⟨p, hp, -, column, hcolumn, rfl⟩ := exists_getElem?_of_forall₂ hkinds hkind
  obtain ⟨value, hvalue, hfits⟩ := exists_fits_of_checkTableRow hrow hcolumn
  have hfield : fields[i]? = some value := by
    rw [getElem?_of_mapM_eq_some hfields hp, hvalue]
  refine ⟨value, ?_, hfits⟩
  rw [List.drop_succ_cons, List.drop_zero,
    List.getElem?_append_left (List.getElem?_eq_some_iff.mp hfield).1, hfield]

/-! ### The scan -/

/-- The columns behind the key column are kept ascending. -/
theorem directions_drop (h : index.Keyed table key ps) :
    index.directions.drop [v].length = List.replicate (index.width - [v].length) .asc := by
  have hdrop := h.built.directions_drop
  rwa [h.keyColumns] at hdrop

/-- A scan of one value is accepted, with the order of all further columns in either direction. -/
theorem plan_ofKey (h : index.Keyed table key ps) (hps : ps ≠ []) (hfits : v.fits key.column.kind)
    (hnumber : v.isNaN = false) :
    IndexScan.plan id index (.equal [v]) (.uniform (List.range' 1 (index.width - 1)) d) =
      .ok (.ofKey id index [v] d) := by
  have hwide : [v].length < index.width := by
    have hpos := List.length_pos_iff.mpr hps
    have hlt := h.length_lt_width
    rw [List.length_singleton]
    omega
  refine IndexScan.plan_equal hwide ?_ (by simpa using hnumber) h.directions_drop
  intro p hp
  obtain ⟨more, hcolumns, -⟩ := h.built.allColumns_eq
  rw [hcolumns, h.keyColumns, List.singleton_append, List.zip_cons_cons, List.zip_nil_right,
    List.mem_singleton] at hp
  rw [hp]
  exact hfits

section

variable {slot : IndexSnapshot} {rows : List (List Value)}

/-- A scan of one value returns the entries of the rows that have it. -/
theorem window_perm (h : slot.index.Keyed table key ps) (hslot : slot.Holds rows) :
    ∃ entries,
      (rows.filter (·[key.column.position]? == some v)).mapM
        (Composition.ofIndex slot.index).indexRow? = some entries ∧
      ((IndexScan.ofKey id slot.index [v] d).window slot).Perm entries := by
  obtain ⟨entries, hentries, hperm⟩ := hslot.entries
  refine ⟨entries.filter ([v].isPrefixOf ·), mapM_filter hentries ?_, ?_⟩
  · intro row _ entry hentry
    rw [Bool.eq_iff_iff, beq_iff_eq, List.isPrefixOf_iff_prefix, h.prefix_iff hentry]
  · rw [IndexScan.window_equal hslot.ordered (h.length_singleton_le v)]
    split
    · exact hperm.filter _
    · exact (List.reverse_perm _).trans (hperm.filter _)

/-- What a scan of one value returns is in order of all columns behind the key column. -/
theorem pairwise_window (h : slot.index.Keyed table key ps) (hslot : slot.Holds rows) :
    ((IndexScan.ofKey id slot.index [v] d).window slot).Pairwise fun e f =>
      (compareAlong (List.replicate (slot.index.width - 1) d) (e.drop 1) (f.drop 1)).isLE :=
  IndexScan.pairwise_window_equal hslot.ordered (h.length_singleton_le v) h.directions_drop

/-- Behind the key, what a scan returns has values of the columns' kinds. -/
theorem beginsWith_of_mem_window (h : slot.index.Keyed table key ps)
    (hkinds : table.KindsAt ps kinds) (hslot : slot.Holds rows)
    (hrows : ∀ row ∈ rows, checkTableRow table row = .ok ())
    (hentry : entry ∈ (IndexScan.ofKey id slot.index [v] d).window slot) :
    KeyComparator.BeginsWith kinds (entry.drop 1) := by
  obtain ⟨entries, hentries, hperm⟩ := @h.window_perm _ _ _ _ _ _ _ _ hslot
  obtain ⟨row, hrow, hmakes⟩ :=
    exists_of_mem_right (mapM_eq_some_iff.mp hentries) (hperm.mem_iff.mp hentry)
  exact h.beginsWith hkinds (hrows row (List.mem_of_mem_filter hrow)) hmakes

/-- As an input, a scan of one value ascends along the columns behind the key column. -/
theorem ascending_keyInput (h : slot.index.Keyed table key ps) (hkinds : table.KindsAt ps kinds)
    (hslot : slot.Holds rows) (hrows : ∀ row ∈ rows, checkTableRow table row = .ok ())
    (id : StoreId) (v : Value) (d : Direction) :
    KeyComparator.Ascending ⟨List.replicate ps.length d⟩
      (slot.index.keyInput (.ofKey id slot.index [v] d)).keyStart
      ((slot.index.keyInput (.ofKey id slot.index [v] d)).counted
        (((IndexScan.ofKey id slot.index [v] d).window slot).map
          (Row.mk (.ofIndex slot.index)))) := by
  have hlt := h.length_lt_width
  have hlength : (List.replicate ps.length d).length = kinds.length := by
    rw [List.length_replicate, hkinds.length_eq]
  have hsplit : List.replicate (slot.index.width - 1) d =
      List.replicate ps.length d ++ List.replicate (slot.index.width - 1 - ps.length) d := by
    rw [List.replicate_append_replicate]
    congr 1
    omega
  rw [h.keyStart_keyInput, counted_keyInput]
  apply List.Pairwise.isChain
  rw [List.pairwise_map]
  refine (h.pairwise_window hslot).imp_of_mem fun {e f} he hf hle => ?_
  rw [hsplit] at hle
  exact ⟨_, KeyComparator.compareFields_of_beginsWith hlength hkinds.ne_any
    (h.beginsWith_of_mem_window hkinds hslot hrows he)
    (h.beginsWith_of_mem_window hkinds hslot hrows hf) 0, compareAlong_isLE_of_append hle⟩

end

end Keyed

end Index

end TableGroups
