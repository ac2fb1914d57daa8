import Mathlib.Data.List.Forall2
import TableGroups.Index.Draft
import TableGroups.Proofs.Table.Lineage

/-!
# What a built index is made of

`IndexDraft.build` fixes three things: which tables the index spans, which columns it has, and that
they suffice.  `Index.Built` says that an index came out of it, and the theory of built indexes
starts from three facts about them: every column is a column of a table of the branch
(`Built.placed`), every column of the hierarchical key is carried by some column
(`Built.exists_carries`), and an index over one table spans its leaf alone (`Built.branch_eq`).
-/

namespace TableGroups

variable {branch : List Table} {columns : List IndexColumn} {column : IndexColumn}
  {target : ColumnRef} {p : Nat}

/-! ### Carrying -/

theorem IndexColumn.carries_iff :
    column.carries branch target ↔ ∃ table, branch.find? (·.name == column.table) = some table ∧
      table.localEquivalent? target = some column.column.position := by
  rw [IndexColumn.carries, beq_iff_eq, Option.bind_eq_some_iff]

theorem isSome_sourcePosition?_iff :
    (sourcePosition? branch columns target).isSome ↔
      ∃ column ∈ columns, column.carries branch target := by
  rw [sourcePosition?, List.findIdx?_isSome, List.any_eq_true]

theorem carries_of_sourcePosition? (h : sourcePosition? branch columns target = some p) :
    ∃ column, columns[p]? = some column ∧ column.carries branch target := by
  obtain ⟨hp, hcarries, -⟩ := List.findIdx?_eq_some_iff_getElem.mp h
  exact ⟨columns[p], List.getElem?_eq_getElem hp, hcarries⟩

/-- The column is a column of a table of the branch. -/
def IndexColumn.Placed (branch : List Table) (column : IndexColumn) : Prop :=
  ∃ table ∈ branch, table.name = column.table ∧
    table.column? column.column.position = some column.column

namespace IndexDraft

variable {draft : IndexDraft} {index : Index}

/-! ### Key columns -/

/-- The table of a key column stands in the lineage at the depth found for it. -/
theorem getElem?_lineage_of_homeOf? {table : Table} {depth : Nat}
    (h : draft.homeOf? column = some (table, depth)) :
    draft.leaf.lineage[depth]? = some table ∧ table.name = column.table := by
  unfold homeOf? at h
  split at h
  · split at h
    · next hname =>
      cases h
      exact ⟨draft.leaf.getElem?_lineage_depth, hname.symm⟩
    · cases h
  · refine ⟨?_, by simpa using List.find?_some h⟩
    obtain ⟨i, hi⟩ := List.mem_iff_getElem?.mp (List.mem_of_find?_eq_some h)
    rw [List.getElem?_zipIdx, Option.map_eq_some_iff] at hi
    obtain ⟨found, hfound, heq⟩ := hi
    simp only [Nat.zero_add, Prod.mk.injEq] at heq
    rw [← heq.1, ← heq.2]
    exact hfound

/-- Key columns of an index over one table are found in its leaf. -/
theorem depth_of_homeOf?_of_table {table : Table} {depth : Nat} (hspan : draft.span = .table)
    (h : draft.homeOf? column = some (table, depth)) : depth = draft.leaf.depth := by
  rw [homeOf?, hspan] at h
  dsimp only at h
  split at h
  · cases h
    rfl
  · cases h

/-- A key column is accepted if its position is new and it is a column of the table found for it. -/
theorem columnDepth_eq_ok_iff {earlier : List IndexColumn} {depth : Nat} :
    draft.columnDepth earlier column = .ok depth ↔
      (∀ other ∈ earlier, other.position ≠ column.position) ∧
        ∃ table, draft.homeOf? column = some (table, depth) ∧
          table.column? column.column.position = some column.column := by
  unfold columnDepth
  split
  · next hposition =>
    obtain ⟨other, hother, hsame⟩ := List.any_eq_true.mp hposition
    simp only [reduceCtorEq, false_iff, not_and]
    exact fun hnew => absurd (beq_iff_eq.mp hsame) (hnew other hother)
  next hposition =>
  have hnew : ∀ other ∈ earlier, other.position ≠ column.position := by
    intro other hother hsame
    exact hposition (List.any_eq_true.mpr ⟨other, hother, beq_iff_eq.mpr hsame⟩)
  split
  · next hhome => simp [hhome]
  next table found hhome =>
  split
  · next hcolumn =>
    simp only [hhome, Except.ok.injEq, Option.some.injEq, Prod.mk.injEq]
    constructor
    · rintro rfl
      exact ⟨hnew, table, ⟨rfl, rfl⟩, hcolumn⟩
    · rintro ⟨-, _, ⟨-, hdepth⟩, -⟩
      exact hdepth
  · next hcolumn =>
    simp only [hhome, reduceCtorEq, false_iff, not_and, not_exists, Option.some.injEq,
      Prod.mk.injEq]
    rintro - _ ⟨rfl, -⟩
    exact hcolumn

/-- Key columns are accepted if no two have one position and each is a column of the table found
for it. -/
theorem columnDepths_eq_ok_iff {earlier columns : List IndexColumn} {depths : List Nat} :
    draft.columnDepths earlier columns = .ok depths ↔
      columns.Pairwise (fun a b => a.position ≠ b.position) ∧
        (∀ other ∈ earlier, ∀ column ∈ columns, other.position ≠ column.position) ∧
          List.Forall₂ (fun column depth => ∃ table, draft.homeOf? column = some (table, depth) ∧
            table.column? column.column.position = some column.column) columns depths := by
  induction columns generalizing earlier depths with
  | nil => cases depths <;> simp [columnDepths]
  | cons column rest ih =>
    simp only [columnDepths, bind_eq_ok_iff, columnDepth_eq_ok_iff, ih, pure, Except.pure,
      Except.ok.injEq, List.pairwise_cons, List.forall_mem_cons, List.forall_mem_append,
      List.forall₂_cons_left_iff]
    constructor
    · rintro ⟨depth, ⟨hnew, hhome⟩, depths, ⟨hrest, ⟨hearlier, hfirst, -⟩, hdepths⟩, rfl⟩
      exact ⟨⟨hfirst, hrest⟩, fun other hother => ⟨hnew other hother, hearlier other hother⟩,
        depth, depths, hhome, hdepths, rfl⟩
    · rintro ⟨⟨hfirst, hrest⟩, hnew, depth, depths, hhome, hdepths, rfl⟩
      exact ⟨depth, ⟨fun other hother => (hnew other hother).1, hhome⟩, depths,
        ⟨hrest, ⟨fun other hother => (hnew other hother).2, hfirst, by simp⟩, hdepths⟩, rfl⟩

/-- Every accepted key column is a column of the table found for it. -/
theorem columnDepths_spec {earlier columns : List IndexColumn} {depths : List Nat}
    (h : draft.columnDepths earlier columns = .ok depths) :
    List.Forall₂ (fun column depth => ∃ table, draft.homeOf? column = some (table, depth) ∧
      table.column? column.column.position = some column.column) columns depths :=
  (columnDepths_eq_ok_iff.mp h).2.2

/-! ### Completion -/

theorem supplier?_spec {name : TableName} {found : Column}
    (h : supplier? branch target = some (name, found)) :
    ∃ table ∈ branch, table.name = name ∧
      ∃ p, table.localEquivalent? target = some p ∧ table.column? p = some found := by
  obtain ⟨table, htable, hsupplied⟩ := List.exists_of_findSome?_eq_some h
  obtain ⟨column, hcolumn, heq⟩ := Option.map_eq_some_iff.mp hsupplied
  cases heq
  exact ⟨table, htable, rfl, Option.bind_eq_some_iff.mp hcolumn⟩

/-- Completing keeps the columns and appends columns of the branch, ascending. -/
theorem complete_spec {name : IndexName} {targets : List ColumnRef} {all : List IndexColumn}
    (h : complete name branch targets columns = .ok all) :
    ∃ added, all = columns ++ added ∧ ∀ column ∈ added, column.direction = .asc ∧
      ∃ table ∈ branch, table.name = column.table ∧ ∃ target p,
        table.localEquivalent? target = some p ∧ table.column? p = some column.column := by
  induction targets generalizing columns with
  | nil =>
    cases h
    exact ⟨[], (List.append_nil _).symm, by simp⟩
  | cons target rest ih =>
    rw [complete] at h
    split at h
    · exact ih h
    split at h
    · cases h
    next name' column hsupplier =>
    obtain ⟨added, rfl, hadded⟩ := ih h
    refine ⟨⟨name', column, columns.length, .asc⟩ :: added, by simp, ?_⟩
    rw [List.forall_mem_cons]
    refine ⟨?_, hadded⟩
    obtain ⟨table, htable, hname, p, hp, hcolumn⟩ := supplier?_spec hsupplier
    exact ⟨rfl, table, htable, hname, target, p, hp, hcolumn⟩

/-- A column that is appended for a column of the hierarchical key carries it. -/
theorem carries_of_supplier? {name : TableName} {found : Column}
    (hsound : ∀ table ∈ branch, table.Sound) (hnames : (branch.map (·.name)).Nodup)
    (h : supplier? branch target = some (name, found)) (position : Nat) (direction : Direction) :
    (IndexColumn.mk name found position direction).carries branch target := by
  obtain ⟨table, htable, rfl, p, hp, hcolumn⟩ := supplier?_spec h
  refine IndexColumn.carries_iff.mpr ⟨table, Table.find?_name_eq_some hnames htable, ?_⟩
  rw [hp, (hsound table htable).shape.numbered hcolumn]

/-- After completing, every wanted column of the hierarchical key is carried. -/
theorem exists_carries_of_complete {name : IndexName} {targets : List ColumnRef}
    {all : List IndexColumn} (hsound : ∀ table ∈ branch, table.Sound)
    (hnames : (branch.map (·.name)).Nodup)
    (h : complete name branch targets columns = .ok all) :
    ∀ target ∈ targets, ∃ column ∈ all, column.carries branch target := by
  induction targets generalizing columns with
  | nil => simp
  | cons target rest ih =>
    rw [List.forall_mem_cons]
    rw [complete] at h
    split at h
    · next hcarried =>
      obtain ⟨added, rfl, -⟩ := complete_spec h
      obtain ⟨column, hcolumn, hcarries⟩ := isSome_sourcePosition?_iff.mp hcarried
      exact ⟨⟨column, List.mem_append_left _ hcolumn, hcarries⟩, ih h⟩
    split at h
    · cases h
    next name' column hsupplier =>
    refine ⟨?_, ih h⟩
    obtain ⟨added, rfl, -⟩ := complete_spec h
    exact ⟨⟨name', column, columns.length, .asc⟩, by simp,
      carries_of_supplier? hsound hnames hsupplier _ _⟩

/-! ### Building -/

@[simp] theorem name_freeze (draft : IndexDraft) : draft.freeze.name = draft.name := by
  unfold freeze
  split <;> rfl

@[simp] theorem leaf_freeze (draft : IndexDraft) : draft.freeze.leaf = draft.leaf := by
  unfold freeze
  split <;> rfl

@[simp] theorem span_freeze (draft : IndexDraft) : draft.freeze.span = draft.span := by
  unfold freeze
  split <;> rfl

/-- Only drafts with key columns are built, and only if these are accepted. -/
theorem exists_columnDepths_of_build (h : draft.build = .ok index) :
    draft.freeze.keyColumns ≠ [] ∧
      ∃ depths, draft.freeze.columnDepths [] draft.freeze.keyColumns = .ok depths := by
  simp only [build, bind, Except.bind, pure, Except.pure, throw, throwThe,
    MonadExceptOf.throw] at h
  split at h
  · cases h
  next hkeys =>
  split at h
  · cases h
  next depths hdepths => exact ⟨by simpa using hkeys, depths, hdepths⟩

/-- If its key columns are accepted, a draft is built if they can be completed. -/
theorem build_of_columnDepths {depths : List Nat} (hkeys : draft.freeze.keyColumns ≠ [])
    (h : draft.freeze.columnDepths [] draft.freeze.keyColumns = .ok depths) :
    draft.build = (complete draft.freeze.name
      (draft.freeze.leaf.lineage.drop (depths.foldl min draft.freeze.leaf.depth))
      draft.freeze.leaf.hkeyLayout.columns draft.freeze.keyColumns).map fun allColumns =>
        { name := draft.freeze.name
          id := draft.freeze.id
          unique := draft.freeze.unique
          constraint := draft.freeze.constraint
          span := draft.freeze.span
          valid := draft.freeze.valid
          treeName := draft.freeze.treeName.getD draft.freeze.name.display
          leaf := draft.freeze.leaf
          rootDepth := depths.foldl min draft.freeze.leaf.depth
          keyColumns := draft.freeze.keyColumns
          allColumns } := by
  have hnonempty : draft.freeze.keyColumns.isEmpty = false := by
    simpa using hkeys
  simp only [build, hnonempty, h, bind, Except.bind, pure, Except.pure, Bool.false_eq_true,
    if_false]
  rfl

/-- What an index takes from its draft, and what it adds. -/
theorem build_spec (h : draft.build = .ok index) :
    ∃ depths, draft.freeze.columnDepths [] index.keyColumns = .ok depths ∧
      index.name = draft.freeze.name ∧ index.leaf = draft.freeze.leaf ∧
      index.span = draft.freeze.span ∧ index.rootDepth = depths.foldl min index.leaf.depth ∧
      complete index.name index.branch index.hkeyLayout.columns index.keyColumns =
        .ok index.allColumns := by
  obtain ⟨hkeys, depths, hdepths⟩ := exists_columnDepths_of_build h
  rw [build_of_columnDepths hkeys hdepths, map_eq_ok_iff] at h
  obtain ⟨all, hall, rfl⟩ := h
  exact ⟨depths, hdepths, rfl, rfl, rfl, rfl, hall⟩

/-- The key columns of an index are those of its draft, frozen. -/
theorem keyColumns_of_build (h : draft.build = .ok index) :
    index.keyColumns = draft.freeze.keyColumns := by
  obtain ⟨hkeys, depths, hdepths⟩ := exists_columnDepths_of_build h
  rw [build_of_columnDepths hkeys hdepths, map_eq_ok_iff] at h
  obtain ⟨all, -, rfl⟩ := h
  rfl

end IndexDraft

/-- The index is what came of a draft, which is named under its leaf as all drafts are. -/
def Index.Built (index : Index) : Prop :=
  ∃ draft : IndexDraft, draft.name.table = draft.leaf.name ∧ draft.build = .ok index

theorem le_foldl_min_iff {depths : List Nat} {start bound : Nat} :
    bound ≤ depths.foldl min start ↔ bound ≤ start ∧ ∀ depth ∈ depths, bound ≤ depth := by
  induction depths generalizing start with
  | nil => simp
  | cons depth rest ih =>
    rw [List.foldl_cons, ih, List.forall_mem_cons, Nat.le_min, and_assoc]

namespace Index

variable {index : Index}

theorem mem_lineage_of_mem_branch {table : Table} (h : table ∈ index.branch) :
    table ∈ index.leaf.lineage :=
  List.mem_of_mem_drop h

theorem nodup_names_branch (h : (index.leaf.lineage.map (·.name)).Nodup) :
    (index.branch.map (·.name)).Nodup :=
  h.sublist ((List.drop_sublist ..).map _)

theorem Built.name_table (h : index.Built) : index.name.table = index.leaf.name := by
  obtain ⟨draft, hnamed, hbuild⟩ := h
  obtain ⟨_, -, hname, hleaf, -, -, -⟩ := IndexDraft.build_spec hbuild
  rw [hname, hleaf, IndexDraft.name_freeze, IndexDraft.leaf_freeze, hnamed]

/-- The key columns come first, and all others are kept ascending. -/
theorem Built.allColumns_eq (h : index.Built) :
    ∃ added, index.allColumns = index.keyColumns ++ added ∧
      ∀ column ∈ added, column.direction = .asc := by
  obtain ⟨draft, -, hbuild⟩ := h
  obtain ⟨_, -, -, -, -, -, hcomplete⟩ := IndexDraft.build_spec hbuild
  obtain ⟨added, hall, hadded⟩ := IndexDraft.complete_spec hcomplete
  exact ⟨added, hall, fun column hcolumn => (hadded column hcolumn).1⟩

/-- An index over one table spans its leaf alone. -/
theorem Built.branch_eq (h : index.Built) (hspan : index.span = .table) :
    index.branch = [index.leaf] := by
  obtain ⟨draft, -, hbuild⟩ := h
  obtain ⟨depths, hdepths, -, hleaf, hspan', hroot, -⟩ := IndexDraft.build_spec hbuild
  have hall : ∀ depth ∈ depths, index.leaf.depth ≤ depth := by
    intro depth hdepth
    obtain ⟨column, -, table, hhome, -⟩ :=
      exists_of_mem_right (IndexDraft.columnDepths_spec hdepths) hdepth
    rw [hleaf]
    exact Nat.le_of_eq (IndexDraft.depth_of_homeOf?_of_table (hspan' ▸ hspan) hhome).symm
  have hle := (le_foldl_min_iff.mp (Nat.le_refl (depths.foldl min index.leaf.depth))).1
  have hge := le_foldl_min_iff.mpr ⟨Nat.le_refl index.leaf.depth, hall⟩
  rw [branch, hroot, Nat.le_antisymm hle hge, Table.drop_lineage_depth]

/-- **Every column of an index is a column of a table of its branch.** -/
theorem Built.placed (h : index.Built) (hsound : index.leaf.Sound) :
    ∀ column ∈ index.allColumns, column.Placed index.branch := by
  obtain ⟨draft, -, hbuild⟩ := h
  obtain ⟨depths, hdepths, -, hleaf, -, hroot, hcomplete⟩ := IndexDraft.build_spec hbuild
  obtain ⟨added, hall, hadded⟩ := IndexDraft.complete_spec hcomplete
  rw [hall]
  intro column hcolumn
  rcases List.mem_append.mp hcolumn with hkey | hnew
  · obtain ⟨depth, hdepth, table, hhome, hfound⟩ :=
      exists_of_mem_left (IndexDraft.columnDepths_spec hdepths) hkey
    obtain ⟨htable, hname⟩ := IndexDraft.getElem?_lineage_of_homeOf? hhome
    -- the branch begins no deeper than the column's table
    have hle := (le_foldl_min_iff.mp (Nat.le_of_eq hroot)).2 depth hdepth
    have hbranch : index.branch[depth - index.rootDepth]? = some table := by
      rw [branch, List.getElem?_drop, Nat.add_sub_cancel' hle, hleaf, htable]
    exact ⟨table, List.mem_of_getElem? hbranch, hname, hfound⟩
  · obtain ⟨-, table, htable, hname, target, p, -, hfound⟩ := hadded column hnew
    have hposition : column.column.position = p :=
      (hsound.of_mem_lineage (mem_lineage_of_mem_branch htable)).shape.numbered hfound
    exact ⟨table, htable, hname, hposition ▸ hfound⟩

/-- **Every column of the hierarchical key is carried.** -/
theorem Built.exists_carries (h : index.Built) (hsound : index.leaf.Sound)
    (hnames : (index.leaf.lineage.map (·.name)).Nodup) :
    ∀ target ∈ index.hkeyLayout.columns, ∃ column ∈ index.allColumns,
      column.carries index.branch target := by
  obtain ⟨draft, -, hbuild⟩ := h
  obtain ⟨_, -, -, -, -, -, hcomplete⟩ := IndexDraft.build_spec hbuild
  exact IndexDraft.exists_carries_of_complete
    (fun _ htable => hsound.of_mem_lineage (mem_lineage_of_mem_branch htable))
    (nodup_names_branch hnames) hcomplete

/-- An index over the lines of sales by price, highest first. -/
def linesByPrice : Index where
  name := ⟨⟨"db", "lines"⟩, "by_price"⟩
  id := none
  unique := false
  constraint := .key
  span := .table
  valid := true
  treeName := "db.lines.by_price"
  leaf := .lines
  rootDepth := 2
  keyColumns := [⟨⟨"db", "lines"⟩, ⟨"price", 1, .int, true⟩, 0, .desc⟩]
  allColumns :=
    [⟨⟨"db", "lines"⟩, ⟨"price", 1, .int, true⟩, 0, .desc⟩,
      ⟨⟨"db", "lines"⟩, ⟨"shop", 3, .int, false⟩, 1, .asc⟩,
      ⟨⟨"db", "lines"⟩, ⟨"region", 4, .int, false⟩, 2, .asc⟩,
      ⟨⟨"db", "lines"⟩, ⟨"sale", 2, .int, false⟩, 3, .asc⟩,
      ⟨⟨"db", "lines"⟩, ⟨"line", 0, .int, false⟩, 4, .asc⟩]

theorem built_linesByPrice : linesByPrice.Built := by
  refine ⟨{ IndexDraft.overTable .lines "by_price" false .key with
    keyColumns := [⟨⟨"db", "lines"⟩, ⟨"price", 1, .int, true⟩, 0, .desc⟩] }, rfl, ?_⟩
  decide +kernel

end Index

end TableGroups
