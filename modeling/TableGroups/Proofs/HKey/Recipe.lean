import Mathlib.Data.List.Forall2
import TableGroups.HKey.Recipe
import TableGroups.Proofs.Index.OverTable

/-!
# Recipes rebuild the keys of the rows

An index row is made of values from the rows of a lineage: each column holds a field of the row of
its own table (`IndexColumn.read`).  The hierarchical key of the leaf's row lists the primary keys
of all of these rows (`Table.segment?`), and an index need not have read them from where they
belong: a recipe takes every value from the first column that carries it.

Along a chain of rows that makes no difference (`Chain.read_of_carries`), so the recipe of an index
rebuilds the key from the index row alone (`Index.Built.hkey_of_chain`).
-/

namespace TableGroups

/-- The field that a column holds, given a row for each table. -/
def IndexColumn.read (rows : TableName → List Value) (column : IndexColumn) : Option Value :=
  (rows column.table)[column.column.position]?

/-- The segment of a table's row in a hierarchical key, given a row for each table. -/
def Table.segment? (ordinals : Ordinals) (rows : TableName → List Value) (table : Table) :
    Option HKeySegment :=
  match ordinals.ordinal? table.name, table.primaryKey.mapM ((rows table.name)[·]?) with
  | some number, some values => some ⟨number, values⟩
  | _, _ => none

/-- The segment that a recipe makes from an index row. -/
def SegmentRecipe.read (recipe : SegmentRecipe) (row : List Value) : HKeySegment :=
  ⟨recipe.ordinal, recipe.positions.filterMap (row[·]?)⟩

variable {index : Index} {ordinals : Ordinals} {rows : TableName → List Value} {row : List Value}
  {branch : List Table} {column : IndexColumn} {target : ColumnRef} {table : Table}

/-- A column that carries another holds its value. -/
theorem Table.Chain.read_of_carries (hsound : ∀ table ∈ branch, table.Sound)
    (hchain : ∀ table ∈ branch, table.Chain rows) (h : column.carries branch target) :
    column.read rows = (rows target.table)[target.position]? := by
  obtain ⟨table, hfound, hequivalent⟩ := IndexColumn.carries_iff.mp h
  have htable := List.mem_of_find?_eq_some hfound
  have hname : table.name = column.table := by
    simpa using List.find?_some hfound
  rw [IndexColumn.read, ← hname]
  exact (hchain table htable).getElem?_of_localEquivalent? (hsound table htable) hequivalent

/-- A column of a table is a field of the table's row. -/
theorem IndexColumn.Placed.isSome_read (h : column.Placed branch)
    (hchain : ∀ table ∈ branch, table.Chain rows) : (column.read rows).isSome := by
  obtain ⟨table, htable, hname, hcolumn⟩ := h
  have hlt : column.column.position < (rows column.table).length := by
    rw [← hname, (hchain table htable).length]
    exact (List.getElem?_eq_some_iff.mp hcolumn).1
  rw [IndexColumn.read, List.getElem?_eq_getElem hlt]
  rfl

/-- The primary keys of the lineage are the columns of the hierarchical key. -/
theorem Table.mem_columns_hkeyLayout {leaf : Table} {p : Nat} (htable : table ∈ leaf.lineage)
    (hp : p ∈ table.primaryKey) : ⟨table.name, p⟩ ∈ leaf.hkeyLayout.columns :=
  List.mem_flatMap.mpr ⟨_, List.mem_map_of_mem htable, List.mem_map_of_mem hp⟩

namespace Index

/-- The chain of rows has an index row. -/
theorem Built.exists_row (h : index.Built) (hsound : index.leaf.Sound)
    (hchain : index.leaf.Chain rows) : ∃ row, index.allColumns.mapM (·.read rows) = some row := by
  apply exists_mapM_eq_some
  intro column hcolumn
  exact (h.placed hsound column hcolumn).isSome_read
    fun _ htable => hchain.of_mem_lineage (mem_lineage_of_mem_branch htable)

/-- The recipe's place of a key column holds the column's value. -/
theorem Built.position_spec (h : index.Built) (hsound : index.leaf.Sound)
    (hnames : (index.leaf.lineage.map (·.name)).Nodup) (hchain : index.leaf.Chain rows)
    (hrow : index.allColumns.mapM (·.read rows) = some row)
    (htarget : target ∈ index.hkeyLayout.columns) :
    ∃ p, HKeyRecipe.position index target = .ok p ∧
      row[p]? = (rows target.table)[target.position]? := by
  have hcarried := isSome_sourcePosition?_iff.mpr (h.exists_carries hsound hnames target htarget)
  obtain ⟨p, hp⟩ := Option.isSome_iff_exists.mp hcarried
  obtain ⟨column, hcolumn, hcarries⟩ := carries_of_sourcePosition? hp
  refine ⟨p, by rw [HKeyRecipe.position, hp], ?_⟩
  rw [getElem?_of_mapM_eq_some hrow hcolumn]
  exact Table.Chain.read_of_carries
    (fun _ htable => hsound.of_mem_lineage (mem_lineage_of_mem_branch htable))
    (fun _ htable => hchain.of_mem_lineage (mem_lineage_of_mem_branch htable)) hcarries

/-- Reading a segment's places from the index row gives the segment. -/
theorem Built.segment_spec (h : index.Built) (hsound : index.leaf.Sound)
    (hnames : (index.leaf.lineage.map (·.name)).Nodup) (hchain : index.leaf.Chain rows)
    (hrow : index.allColumns.mapM (·.read rows) = some row) (htable : table ∈ index.leaf.lineage)
    (hordinal : (ordinals.ordinal? table.name).isSome) :
    ∃ recipe, HKeyRecipe.segment index ordinals table.segmentLayout = .ok recipe ∧
      table.segment? ordinals rows =
        some (recipe.read row) := by
  obtain ⟨number, hnumber⟩ := Option.isSome_iff_exists.mp hordinal
  have hfields : ∀ p ∈ table.primaryKey, ∃ place,
      HKeyRecipe.position index ⟨table.name, p⟩ = .ok place ∧
        row[place]? = (rows table.name)[p]? ∧ ((rows table.name)[p]?).isSome := by
    intro p hp
    obtain ⟨place, hplace, hvalue⟩ := h.position_spec hsound hnames hchain hrow
      (Table.mem_columns_hkeyLayout htable hp)
    have hlt : p < (rows table.name).length := by
      rw [(hchain.of_mem_lineage htable).length]
      exact (hsound.of_mem_lineage htable).shape.primaryKey_lt p hp
    exact ⟨place, hplace, hvalue, by simpa using hlt⟩
  obtain ⟨places, hplaces, hvalues⟩ := exists_mapM_filterMap hfields
  refine ⟨⟨number, places⟩, ?_, ?_⟩
  · have hcolumns :
        table.segmentLayout.columns.mapM (HKeyRecipe.position index) = .ok places := by
      rw [Table.segmentLayout, List.mapM_map]
      exact hplaces
    have hname : ordinals.ordinal? table.segmentLayout.table = some number := hnumber
    simp only [HKeyRecipe.segment, hname, hcolumns]
    rfl
  · rw [Table.segment?, hnumber, hvalues]
    rfl

/-- The recipe of an index rebuilds the key of the leaf's row from the index row. -/
theorem Built.hkey_of_row (h : index.Built) (hsound : index.leaf.Sound)
    (hnames : (index.leaf.lineage.map (·.name)).Nodup) (hchain : index.leaf.Chain rows)
    (hrow : index.allColumns.mapM (·.read rows) = some row)
    (hordinals : ∀ table ∈ index.leaf.lineage, (ordinals.ordinal? table.name).isSome) :
    ∃ recipe segments, HKeyRecipe.ofIndex index ordinals = .ok recipe ∧
      recipe.hkey row = .ok ⟨segments⟩ ∧
      index.leaf.lineage.mapM (·.segment? ordinals rows) = some segments := by
  have hsegments : ∀ table ∈ index.leaf.lineage, ∃ recipe,
      HKeyRecipe.segment index ordinals table.segmentLayout = .ok recipe ∧
        some (recipe.read row) = table.segment? ordinals rows ∧
          (table.segment? ordinals rows).isSome := by
    intro table htable
    obtain ⟨recipe, hrecipe, hsegment⟩ :=
      h.segment_spec hsound hnames hchain hrow htable (hordinals table htable)
    exact ⟨recipe, hrecipe, hsegment.symm, by rw [hsegment]; rfl⟩
  obtain ⟨recipes, hrecipes, hkey⟩ := exists_mapM_filterMap hsegments
  have hlayout : index.hkeyLayout.mapM (HKeyRecipe.segment index ordinals) = .ok recipes := by
    rw [hkeyLayout, Table.hkeyLayout, List.mapM_map]
    exact hrecipes
  have hwidth : row.length = index.width :=
    (mapM_eq_some_iff.mp hrow).length_eq.symm
  refine ⟨⟨index.name, index.width, recipes⟩, recipes.map (·.read row), ?_, ?_, ?_⟩
  · rw [HKeyRecipe.ofIndex, hlayout]
    rfl
  · rw [HKeyRecipe.hkey, if_pos hwidth]
    rfl
  · rw [hkey]
    exact congrArg some (congrFun List.filterMap_eq_map' recipes)

/-- **Index rows carry the keys of their rows.**  Take a chain of rows down to the leaf of an index.
The index row made of their fields exists, and the recipe of the index rebuilds from it the
hierarchical key of the leaf's row: one segment for each table of the lineage, with the table's
ordinal and the values of its row at its primary key.  For an index over one table, the row of the
leaf alone makes this index row. -/
theorem Built.hkey_of_chain (h : index.Built) (hleaf : index.leaf.Declared)
    (hnames : (index.leaf.lineage.map (·.name)).Nodup)
    (hordinals : ∀ table ∈ index.leaf.lineage, (ordinals.ordinal? table.name).isSome)
    (hchain : index.leaf.Chain rows) :
    ∃ row recipe segments, index.allColumns.mapM (·.read rows) = some row ∧
      HKeyRecipe.ofIndex index ordinals = .ok recipe ∧ recipe.hkey row = .ok ⟨segments⟩ ∧
      index.leaf.lineage.mapM (·.segment? ordinals rows) = some segments ∧
      segments.length = index.leaf.lineage.length ∧
      (index.span = .table →
        (Composition.ofIndex index).indexRow? (rows index.leaf.name) = some row) := by
  obtain ⟨row, hrow⟩ := h.exists_row hleaf.sound hchain
  obtain ⟨recipe, segments, hrecipe, hkey, hsegments⟩ :=
    h.hkey_of_row hleaf.sound hnames hchain hrow hordinals
  refine ⟨row, recipe, segments, hrow, hrecipe, hkey, hsegments, ?_, ?_⟩
  · exact (mapM_eq_some_iff.mp hsegments).length_eq.symm
  · intro hspan
    rw [h.indexRow?_eq hleaf.sound hspan, ← hrow]
    apply mapM_congr
    intro column hcolumn
    rw [IndexColumn.read, (h.column_of_table hleaf.sound hspan column hcolumn).1]

/-- A line of a sale of a shop, with the rows above it. -/
def sampleRows (name : TableName) : List Value :=
  if name.table = "shops" then [.int 10, .int 3, .text "ann"]
  else if name.table = "sales" then [.int 77, .int 500, .int 10, .int 3]
  else [.int 1, .int 250, .int 77, .int 3, .int 10]

/-- The ordinals of the sample group. -/
def sampleOrdinals : Ordinals :=
  (((Ordinals.none 1).assign ⟨"db", "shops"⟩ 1).assign ⟨"db", "sales"⟩ 2).assign ⟨"db", "lines"⟩ 3

/-- A line by its price carries the keys of its sale and its shop. -/
theorem hkey_of_chain_linesByPrice :
    ∃ recipe, HKeyRecipe.ofIndex linesByPrice sampleOrdinals = .ok recipe ∧
      (Composition.ofIndex linesByPrice).indexRow? [.int 1, .int 250, .int 77, .int 3, .int 10] =
        some [.int 250, .int 3, .int 10, .int 77, .int 1] ∧
      recipe.hkey [.int 250, .int 3, .int 10, .int 77, .int 1] =
        .ok ⟨[⟨1, [.int 3, .int 10]⟩, ⟨2, [.int 10, .int 3, .int 77]⟩,
          ⟨3, [.int 1, .int 77]⟩]⟩ := by
  have hordinals : ∀ table ∈ linesByPrice.leaf.lineage,
      (sampleOrdinals.ordinal? table.name).isSome := by decide +kernel
  have hchain : linesByPrice.leaf.Chain sampleRows := by decide
  obtain ⟨row, recipe, segments, hrow, hrecipe, hkey, hsegments, -, hproject⟩ :=
    built_linesByPrice.hkey_of_chain Table.declared_lines (by decide) hordinals hchain
  have hrow' : row = [.int 250, .int 3, .int 10, .int 77, .int 1] := by
    rw [← Option.some.injEq, ← hrow]
    decide
  have hsegments' : segments =
      [⟨1, [.int 3, .int 10]⟩, ⟨2, [.int 10, .int 3, .int 77]⟩, ⟨3, [.int 1, .int 77]⟩] := by
    rw [← Option.some.injEq, ← hsegments]
    decide +kernel
  subst hrow' hsegments'
  exact ⟨recipe, hrecipe, hproject rfl, hkey⟩

end Index

end TableGroups
