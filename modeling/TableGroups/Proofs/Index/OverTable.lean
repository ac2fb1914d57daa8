import Mathlib.Data.List.Forall2
import Mathlib.Data.List.Nodup
import TableGroups.Index.Composition
import TableGroups.Proofs.Index.Build

/-!
# Indexes over one table

An index over one table has columns of its leaf only, so its rows are made of fields of the leaf's
rows (`Built.indexRow?_eq`) and its columns are told by their positions in the leaf.  After the key
columns come, ascending, the positions at which the leaf holds the hierarchical key, each where it
is first missing (`Built.positions_eq`).
-/

namespace TableGroups

/-! ### Adding what is missing -/

/-- The positions, with those of the second list added that are not there yet. -/
def addMissing (ps qs : List Nat) : List Nat :=
  qs.foldl (fun ps q => if q ∈ ps then ps else ps ++ [q]) ps

variable {ps qs rs : List Nat}

theorem addMissing_cons {q : Nat} :
    addMissing ps (q :: qs) = addMissing (if q ∈ ps then ps else ps ++ [q]) qs := rfl

theorem addMissing_append : addMissing ps (qs ++ rs) = addMissing (addMissing ps qs) rs :=
  List.foldl_append

theorem exists_addMissing_eq_append : ∃ added, addMissing ps qs = ps ++ added := by
  induction qs generalizing ps with
  | nil => exact ⟨[], (List.append_nil ps).symm⟩
  | cons q qs ih =>
    rw [addMissing_cons]
    split
    · exact ih
    · obtain ⟨added, hadded⟩ := @ih (ps ++ [q])
      exact ⟨q :: added, by rw [hadded, List.append_assoc]; rfl⟩

theorem mem_addMissing {p : Nat} : p ∈ addMissing ps qs ↔ p ∈ ps ∨ p ∈ qs := by
  induction qs generalizing ps with
  | nil => simp [addMissing]
  | cons q qs ih =>
    rw [addMissing_cons, ih, List.mem_cons]
    split
    · next hmem =>
      constructor
      · rintro (hps | hqs)
        · exact .inl hps
        · exact .inr (.inr hqs)
      · rintro (hps | rfl | hqs)
        · exact .inl hps
        · exact .inl hmem
        · exact .inr hqs
    · rw [List.mem_append, List.mem_singleton, or_assoc]

/-- If all are missing, all are added. -/
theorem addMissing_of_disjoint (hqs : qs.Nodup) (hdisjoint : ∀ q ∈ qs, q ∉ ps) :
    addMissing ps qs = ps ++ qs := by
  induction qs generalizing ps with
  | nil => exact (List.append_nil ps).symm
  | cons q qs ih =>
    rw [List.nodup_cons] at hqs
    rw [List.forall_mem_cons] at hdisjoint
    have hrest : ∀ q' ∈ qs, q' ∉ ps ++ [q] := by
      intro q' hq' hmem
      rcases List.mem_append.mp hmem with hps | hq
      · exact hdisjoint.2 q' hq' hps
      · exact hqs.1 (List.mem_singleton.mp hq ▸ hq')
    rw [addMissing_cons, if_neg hdisjoint.1, ih hqs.2 hrest, List.append_assoc]
    rfl

/-! ### Columns by position -/

variable {leaf : Table} {columns all : List IndexColumn} {column : IndexColumn}
  {target : ColumnRef}

/-- In a table's own branch, a column of the table carries what the table holds in it. -/
theorem IndexColumn.carries_singleton (hname : column.table = leaf.name) :
    column.carries [leaf] target ↔ leaf.localEquivalent? target = some column.column.position := by
  rw [carries_iff, hname]
  simp

/-- Completing an index over one table adds the missing positions of the hierarchical key. -/
theorem IndexDraft.positions_complete {name : IndexName} {targets : List ColumnRef}
    (hsound : leaf.Sound) (hcolumns : ∀ column ∈ columns, column.table = leaf.name)
    (h : complete name [leaf] targets columns = .ok all) :
    ∃ qs, targets.mapM leaf.localEquivalent? = some qs ∧
      all.map (·.column.position) = addMissing (columns.map (·.column.position)) qs := by
  induction targets generalizing columns with
  | nil =>
    cases h
    exact ⟨[], rfl, rfl⟩
  | cons target rest ih =>
    have hcarried : (sourcePosition? [leaf] columns target).isSome ↔
        ∃ q, leaf.localEquivalent? target = some q ∧ q ∈ columns.map (·.column.position) := by
      rw [isSome_sourcePosition?_iff]
      constructor
      · rintro ⟨column, hcolumn, hcarries⟩
        exact ⟨_, (IndexColumn.carries_singleton (hcolumns column hcolumn)).mp hcarries,
          List.mem_map_of_mem hcolumn⟩
      · rintro ⟨q, hq, hmem⟩
        obtain ⟨column, hcolumn, rfl⟩ := List.mem_map.mp hmem
        exact ⟨column, hcolumn,
          (IndexColumn.carries_singleton (hcolumns column hcolumn)).mpr hq⟩
    rw [complete] at h
    split at h
    · next hthere =>
      obtain ⟨q, hq, hmem⟩ := hcarried.mp hthere
      obtain ⟨qs, hqs, hpositions⟩ := ih hcolumns h
      refine ⟨q :: qs, mapM_eq_some_iff.mpr (.cons hq (mapM_eq_some_iff.mp hqs)), ?_⟩
      rw [addMissing_cons, if_pos hmem, hpositions]
    next hmissing =>
    split at h
    · cases h
    next name' column hsupplier =>
    obtain ⟨table, htable, rfl, q, hq, hfound⟩ := supplier?_spec hsupplier
    obtain rfl := List.mem_singleton.mp htable
    have hposition : column.position = q := hsound.shape.numbered hfound
    have hmem : q ∉ columns.map (·.column.position) := fun hmem =>
      hmissing (hcarried.mpr ⟨q, hq, hmem⟩)
    have hcolumns' : ∀ c ∈ columns ++ [⟨table.name, column, columns.length, .asc⟩],
        c.table = table.name := by
      intro c hc
      rcases List.mem_append.mp hc with hc | hc
      · exact hcolumns c hc
      · rw [List.mem_singleton.mp hc]
    obtain ⟨qs, hqs, hpositions⟩ := ih hcolumns' h
    refine ⟨q :: qs, mapM_eq_some_iff.mpr (.cons hq (mapM_eq_some_iff.mp hqs)), ?_⟩
    rw [addMissing_cons, if_neg hmem, hpositions, List.map_append, List.map_singleton, hposition]

namespace Index

variable {index : Index}

/-- The columns of an index over one table are columns of its leaf. -/
theorem Built.column_of_table (h : index.Built) (hsound : index.leaf.Sound)
    (hspan : index.span = .table) :
    ∀ column ∈ index.allColumns, column.table = index.leaf.name ∧
      index.leaf.columns[column.column.position]? = some column.column := by
  intro column hcolumn
  obtain ⟨table, htable, hname, hfound⟩ := h.placed hsound column hcolumn
  rw [h.branch_eq hspan, List.mem_singleton] at htable
  subst htable
  exact ⟨hname.symm, hfound⟩

/-- An index over one table takes all fields of its rows from the row of its leaf. -/
theorem Built.indexRow?_eq (h : index.Built) (hsound : index.leaf.Sound)
    (hspan : index.span = .table) (leafRow : List Value) :
    (Composition.ofIndex index).indexRow? leafRow =
      index.allColumns.mapM fun column => leafRow[column.column.position]? := by
  rw [Composition.indexRow?, Composition.ofIndex, List.mapM_map]
  apply mapM_congr
  intro column hcolumn
  obtain ⟨hname, hfound⟩ := h.column_of_table hsound hspan column hcolumn
  have hlt := (List.getElem?_eq_some_iff.mp hfound).1
  rw [Function.comp_apply, (hsound.localEquivalent?_own_eq_some_iff hname).mpr ⟨rfl, hlt⟩,
    Option.bind_some]

/-- The positions in the leaf that the columns of an index over one table stand for. -/
def positions (index : Index) : List Nat :=
  index.allColumns.map (·.column.position)

/-- The key columns come first, and then what is missing of the hierarchical key. -/
theorem Built.positions_eq (h : index.Built) (hsound : index.leaf.Sound)
    (hspan : index.span = .table) :
    ∃ qs, index.hkeyLayout.columns.mapM index.leaf.localEquivalent? = some qs ∧
      index.positions = addMissing (index.keyColumns.map (·.column.position)) qs := by
  have hbranch := h.branch_eq hspan
  have hcolumn := h.column_of_table hsound hspan
  obtain ⟨draft, -, hbuild⟩ := h
  obtain ⟨_, -, -, -, -, -, hcomplete⟩ := IndexDraft.build_spec hbuild
  obtain ⟨added, hall, -⟩ := IndexDraft.complete_spec hcomplete
  rw [hbranch] at hcomplete
  refine IndexDraft.positions_complete hsound (fun column hkey => ?_) hcomplete
  exact (hcolumn column (hall ▸ List.mem_append_left _ hkey)).1

/-- The columns after the key columns are kept ascending. -/
theorem Built.directions_drop (h : index.Built) :
    index.directions.drop index.keyColumns.length =
      List.replicate (index.width - index.keyColumns.length) .asc := by
  obtain ⟨added, hall, hadded⟩ := h.allColumns_eq
  have hwidth : index.width - index.keyColumns.length = added.length := by
    rw [width, hall, List.length_append]
    omega
  rw [directions, hall, List.map_append, List.drop_left' (List.length_map ..), hwidth,
    List.eq_replicate_iff]
  refine ⟨List.length_map .., fun d hd => ?_⟩
  obtain ⟨column, hcolumn, rfl⟩ := List.mem_map.mp hd
  exact hadded column hcolumn

/-- What an index over one table makes of a row of its leaf. -/
theorem Built.indexRow?_eq_positions (h : index.Built) (hsound : index.leaf.Sound)
    (hspan : index.span = .table) (leafRow : List Value) :
    (Composition.ofIndex index).indexRow? leafRow = index.positions.mapM (leafRow[·]?) := by
  rw [h.indexRow?_eq hsound hspan, positions, List.mapM_map]
  rfl

/-! ### One key column -/

/-- The index is a built index over a table with a single key column. -/
structure OverColumn (index : Index) (table : Table) (key : IndexColumn) : Prop where
  built : index.Built
  leaf : index.leaf = table
  span : index.span = .table
  keyColumns : index.keyColumns = [key]

variable {shape parentShape : TableShape} {pairs : List JoinPair} {key : IndexColumn}

/-- After a key column outside the primary key, an index of a root table has the primary key. -/
theorem OverColumn.positions_root (h : index.OverColumn (.root shape) key)
    (hsound : (Table.root shape).Sound) (hkey : shape.primaryKey.Nodup)
    (hcolumn : key.column.position ∉ shape.primaryKey) :
    index.positions = key.column.position :: shape.primaryKey := by
  obtain ⟨qs, hqs, hpositions⟩ := h.built.positions_eq (h.leaf ▸ hsound) h.span
  have hlayout : (Table.root shape).hkeyLayout.columns =
      (Table.root shape).primaryKey.map (ColumnRef.mk (Table.root shape).name) :=
    List.append_nil _
  rw [hkeyLayout, h.leaf, hlayout, hsound.mapM_localEquivalent?_primaryKey,
    Option.some.injEq] at hqs
  rw [hpositions, h.keyColumns, ← hqs]
  refine addMissing_of_disjoint hkey fun q hq hmem => hcolumn ?_
  obtain rfl : q = key.column.position := List.mem_singleton.mp hmem
  exact hq

/-- The columns joined to distinct columns are distinct. -/
theorem nodup_of_joined {ps js : List Nat} (hps : ps.Nodup)
    (hjoined : (pairs.map (·.child)).Nodup)
    (h : List.Forall₂ (fun p j => JoinPair.mk j p ∈ pairs) ps js) : js.Nodup := by
  induction h with
  | nil => exact List.nodup_nil
  | @cons p j ps js hpair hrest ih =>
    rw [List.nodup_cons] at hps ⊢
    refine ⟨fun hmem => ?_, ih hps.2⟩
    -- a pair with the same child column would have the same parent column
    obtain ⟨q, hq, hother⟩ := exists_of_mem_right hrest hmem
    have hsame := List.inj_on_of_nodup_map hjoined hpair hother rfl
    obtain rfl : p = q := congrArg JoinPair.parent hsame
    exact hps.1 hq

/-- After a key column that is not joined, an index of a child table has the columns joined to the
primary key of the parent, in the order of that key. -/
theorem OverColumn.positions_child
    (h : index.OverColumn (.child shape (.root parentShape) pairs) key)
    (hsound : (Table.child shape (.root parentShape) pairs).Sound)
    (hparent : (Table.root parentShape).Sound) (hname : parentShape.name ≠ shape.name)
    (hkey : parentShape.primaryKey.Nodup) (hjoined : (pairs.map (·.child)).Nodup)
    (hcolumn : key.column.position ∉ pairs.map (·.child)) :
    ∃ js rest, index.positions = key.column.position :: (js ++ rest) ∧
      List.Forall₂ (fun p j => JoinPair.mk j p ∈ pairs) parentShape.primaryKey js := by
  obtain ⟨qs, hqs, hpositions⟩ := h.built.positions_eq (h.leaf ▸ hsound) h.span
  have hlayout : (Table.child shape (.root parentShape) pairs).hkeyLayout.columns =
      parentShape.primaryKey.map (ColumnRef.mk parentShape.name) ++
        shape.primaryKey.map (ColumnRef.mk shape.name) :=
    congrArg _ (List.append_nil _)
  rw [hkeyLayout, h.leaf, hlayout, mapM_eq_some_iff] at hqs
  -- the first positions found are those joined to the parent's primary key
  have hjs := (List.forall₂_take_append _ _ _ hqs.flip).flip
  rw [List.length_map, List.forall₂_map_left_iff] at hjs
  have hpairs := hjs.imp fun p j => hparent.mem_pairs_of_localEquivalent? hname
  have hmissing : ∀ j ∈ qs.take parentShape.primaryKey.length, j ∉ [key.column.position] := by
    intro j hj hmem
    obtain rfl := List.mem_singleton.mp hmem
    obtain ⟨p, -, hpair⟩ := exists_of_mem_right hpairs hj
    exact hcolumn (List.mem_map_of_mem hpair)
  have hadded := addMissing_of_disjoint (nodup_of_joined hkey hjoined hpairs) hmissing
  obtain ⟨rest, hrest⟩ := @exists_addMissing_eq_append
    ([key.column.position] ++ qs.take parentShape.primaryKey.length)
    (qs.drop parentShape.primaryKey.length)
  refine ⟨_, rest, ?_, hpairs⟩
  rw [hpositions, h.keyColumns, List.map_singleton,
    ← List.take_append_drop parentShape.primaryKey.length qs, addMissing_append, hadded, hrest,
    List.take_append_drop]
  rfl

end Index

end TableGroups
