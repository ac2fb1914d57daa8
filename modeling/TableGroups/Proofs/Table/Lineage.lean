import Mathlib.Data.List.Forall2
import Mathlib.Data.List.Nodup
import TableGroups.Table.Declaration
import TableGroups.Proofs.ListM

/-!
# Tables and the chains of their rows

A `Table` is a plain tree, and only `TableDeclaration.resolve` makes it the table of a declaration.
`Table.Declared` are the tables made by it all the way up, and `Table.Sound` is what their lineages
owe to it: columns are numbered by their places, keys and joins name columns that exist, and the
parent side of a join is the parent's primary key (`Declared.sound`).

A chain assigns a row to each table of a lineage, so that every row repeats in the columns of its
grouping join the row above (`Table.Chain`).  Along a chain `localEquivalent?` is right about
values: the column that it finds holds the value of the column that it was asked for
(`Chain.getElem?_of_localEquivalent?`).
-/

namespace TableGroups

/-! ### What a declaration promises -/

/-- What the columns and the primary key of a declared table owe to its declaration. -/
structure TableShape.Sound (shape : TableShape) : Prop where
  /-- Columns are numbered by their places. -/
  numbered : ∀ {i : Nat} {column : Column}, shape.columns[i]? = some column → column.position = i
  primaryKey_ne_nil : shape.primaryKey ≠ []
  primaryKey_lt : ∀ p ∈ shape.primaryKey, p < shape.columns.length

namespace Table

/-- A table that was declared, as were the tables that it hangs from. -/
inductive Declared : Table → Prop where
  | resolved {declaration : TableDeclaration} {table : Table}
      (hparent : ∀ grouping, declaration.grouping = some grouping → Declared grouping.parent)
      (htable : declaration.resolve = .ok table) : Declared table

/-- What the tables of a lineage owe to their declarations. -/
inductive Sound : Table → Prop where
  | root {shape : TableShape} (hshape : shape.Sound) : Sound (.root shape)
  | child {shape : TableShape} {parent : Table} {pairs : List JoinPair} (hshape : shape.Sound)
      (hparent : parent.Sound) (hchild : ∀ pair ∈ pairs, pair.child < shape.columns.length)
      (hperm : (pairs.map (·.parent)).Perm parent.primaryKey) : Sound (.child shape parent pairs)

end Table

namespace TableDeclaration

variable {declaration : TableDeclaration} {table : Table}

theorem position_of_getElem?_numberedColumns {i : Nat} {column : Column}
    (h : declaration.numberedColumns[i]? = some column) : column.position = i := by
  simp only [numberedColumns, List.getElem?_map, List.getElem?_zipIdx, Option.map_map,
    Option.map_eq_some_iff] at h
  obtain ⟨declared, -, rfl⟩ := h
  simp

/-- A position that a name stands for is the place of a column. -/
theorem position_lt {columns : List Column} {name : TableName} {column : String} {p : Nat}
    (hnumbered : ∀ {i : Nat} {column : Column}, columns[i]? = some column → column.position = i)
    (h : position name columns column = .ok p) : p < columns.length := by
  unfold position at h
  split at h
  · next found hfound =>
    obtain ⟨i, hi, hget⟩ := List.mem_iff_getElem.mp (List.mem_of_find?_eq_some hfound)
    cases h
    rw [hnumbered (List.getElem?_eq_some_iff.mpr ⟨hi, hget⟩)]
    exact hi
  · cases h

theorem joinPairs_spec {name : TableName} {columns : List Column} {grouping : GroupingDeclaration}
    {pairs : List JoinPair}
    (hnumbered : ∀ {i : Nat} {column : Column}, columns[i]? = some column → column.position = i)
    (h : joinPairs name columns grouping = .ok pairs) :
    (∀ pair ∈ pairs, pair.child < columns.length) ∧
      (pairs.map (·.parent)).Perm grouping.parent.primaryKey := by
  simp only [joinPairs, bind, Except.bind, pure, Except.pure, throw, throwThe,
    MonadExceptOf.throw] at h
  split at h
  · cases h
  next found hfound =>
  split at h
  · next hperm =>
    cases h
    refine ⟨fun pair hpair => ?_, List.isPerm_iff.mp hperm⟩
    obtain ⟨names, -, hresolved⟩ := exists_of_mem_right (mapM_eq_ok_iff.mp hfound) hpair
    split at hresolved
    · cases hresolved
    next p hchild =>
    split at hresolved
    · cases hresolved
    · cases hresolved
      exact position_lt hnumbered hchild
  · cases h

end TableDeclaration

namespace Table

variable {table other : Table} {target : ColumnRef} {p j : Nat}

/-- **Declared tables are sound.** -/
theorem Declared.sound (h : table.Declared) : table.Sound := by
  induction h with
  | resolved hparent htable ih =>
  next declaration table =>
  simp only [TableDeclaration.resolve, bind, Except.bind, pure, Except.pure, throw, throwThe,
    MonadExceptOf.throw] at htable
  split at htable
  · cases htable
  split at htable
  · cases htable
  next hnonempty =>
  split at htable
  · cases htable
  next primaryKey hprimaryKey =>
  have hshape : TableShape.Sound ⟨declaration.name, declaration.numberedColumns, primaryKey⟩ := by
    refine ⟨TableDeclaration.position_of_getElem?_numberedColumns, ?_, fun p hp => ?_⟩
    · rintro rfl
      rw [mapM_eq_ok_iff, List.forall₂_nil_right_iff] at hprimaryKey
      simp [hprimaryKey] at hnonempty
    obtain ⟨name, -, hname⟩ := exists_of_mem_right (mapM_eq_ok_iff.mp hprimaryKey) hp
    exact TableDeclaration.position_lt
      TableDeclaration.position_of_getElem?_numberedColumns hname
  split at htable
  · cases htable
    exact .root hshape
  next grouping hgrouping =>
  split at htable
  · cases htable
  next pairs hpairs =>
  cases htable
  obtain ⟨hchild, hperm⟩ := TableDeclaration.joinPairs_spec
    TableDeclaration.position_of_getElem?_numberedColumns hpairs
  exact .child hshape (ih grouping hgrouping) hchild hperm

/-! ### Lineages -/

theorem mem_lineage_self (table : Table) : table ∈ table.lineage := by
  cases table <;> simp [lineage]

/-- The table stands last in its lineage, as deep as it is. -/
theorem getElem?_lineage_depth (table : Table) : table.lineage[table.depth]? = some table := by
  cases table with
  | root shape => rfl
  | child shape parent pairs =>
    rw [lineage, depth, ← parent.length_lineage]
    exact List.getElem?_concat_length

theorem drop_lineage_depth (table : Table) : table.lineage.drop table.depth = [table] := by
  cases table with
  | root shape => rfl
  | child shape parent pairs =>
    rw [lineage, depth, ← parent.length_lineage]
    exact List.drop_left

/-- Each table of a lineage hangs from the one before it. -/
theorem map_depth_lineage (table : Table) :
    table.lineage.map depth = List.range (table.depth + 1) := by
  induction table with
  | root shape => rfl
  | child shape parent pairs ih =>
    rw [lineage, List.map_append, ih, List.map_singleton, depth, ← List.range_succ]

theorem nodup_lineage (table : Table) : table.lineage.Nodup := by
  refine .of_map depth ?_
  rw [map_depth_lineage]
  exact List.nodup_range

theorem depth_le_of_mem_lineage (h : other ∈ table.lineage) : other.depth ≤ table.depth := by
  have hdepth : other.depth ∈ table.lineage.map depth := List.mem_map_of_mem h
  rw [map_depth_lineage, List.mem_range] at hdepth
  exact Nat.le_of_lt_succ hdepth

/-- No two tables of a lineage are equally deep. -/
theorem eq_of_mem_lineage_of_depth_eq {first second : Table} (hfirst : first ∈ table.lineage)
    (hsecond : second ∈ table.lineage) (hdepth : first.depth = second.depth) : first = second := by
  have hdepths : (table.lineage.map depth).Nodup := by
    rw [map_depth_lineage]
    exact List.nodup_range
  exact List.inj_on_of_nodup_map hdepths hfirst hsecond hdepth

theorem mem_lineage_trans {above : Table} (habove : above ∈ other.lineage)
    (hother : other ∈ table.lineage) : above ∈ table.lineage := by
  induction table with
  | root shape =>
    obtain rfl := List.mem_singleton.mp hother
    exact habove
  | child shape parent pairs ih =>
    rw [lineage, List.mem_append] at hother
    rcases hother with hother | hother
    · exact List.mem_append_left _ (ih hother)
    · obtain rfl := List.mem_singleton.mp hother
      exact habove

theorem mem_lineage_of_parent? (h : table.parent? = some other) : other ∈ table.lineage := by
  cases table with
  | root shape => cases h
  | child shape parent pairs =>
    cases h
    exact List.mem_append_left _ (mem_lineage_self other)

theorem depth_of_parent? (h : table.parent? = some other) : table.depth = other.depth + 1 := by
  cases table with
  | root shape => cases h
  | child shape parent pairs =>
    cases h
    rfl

/-- On the way down from a table to another one, the first step leads to a child. -/
theorem exists_parent?_of_mem_lineage (h : other ∈ table.lineage) (hne : other ≠ table) :
    ∃ child ∈ table.lineage, child.parent? = some other := by
  induction table with
  | root shape => exact absurd (List.mem_singleton.mp h) hne
  | child shape parent pairs ih =>
    rw [lineage, List.mem_append, List.mem_singleton] at h
    have hparent : other ∈ parent.lineage := h.resolve_right hne
    by_cases heq : other = parent
    · exact ⟨_, mem_lineage_self _, congrArg some heq.symm⟩
    · obtain ⟨child, hchild, hother⟩ := ih hparent heq
      exact ⟨child, List.mem_append_left _ hchild, hother⟩

/-- Among tables of distinct names, a table is found under its own name. -/
theorem find?_name_eq_some {tables : List Table} (hnames : (tables.map (·.name)).Nodup)
    (htable : table ∈ tables) : tables.find? (·.name == table.name) = some table := by
  induction tables with
  | nil => cases htable
  | cons first rest ih =>
    rw [List.map_cons, List.nodup_cons] at hnames
    rcases List.mem_cons.mp htable with rfl | hrest
    · exact List.find?_cons_of_pos (beq_self_eq_true _)
    · have hother : (first.name == table.name) = false := by
        rw [beq_eq_false_iff_ne]
        intro hname
        exact hnames.1 (hname ▸ List.mem_map_of_mem hrest)
      rw [List.find?_cons, hother]
      exact ih hnames.2 hrest

theorem Sound.shape (h : table.Sound) : table.shape.Sound := by
  cases h with
  | root hshape => exact hshape
  | child hshape _ _ _ => exact hshape

/-- Tables above a sound table are sound. -/
theorem Sound.of_mem_lineage (h : table.Sound) (hother : other ∈ table.lineage) : other.Sound := by
  induction h with
  | root hshape =>
    obtain rfl := List.mem_singleton.mp hother
    exact .root hshape
  | child hshape hparent hchild hperm ih =>
    rw [lineage, List.mem_append] at hother
    rcases hother with hother | hother
    · exact ih hother
    · obtain rfl := List.mem_singleton.mp hother
      exact .child hshape hparent hchild hperm

/-! ### Equivalent columns -/

theorem localEquivalent?_of_name_eq (h : target.table = table.name) :
    table.localEquivalent? target = (table.shape.columns[target.position]?).map (·.position) := by
  cases table <;> exact if_pos h

theorem localEquivalent?_root_of_ne {shape : TableShape} (h : target.table ≠ shape.name) :
    (root shape).localEquivalent? target = none :=
  if_neg h

/-- A column of an ancestor is found through the pair that repeats where the parent has it. -/
theorem localEquivalent?_child_eq_some_iff {shape : TableShape} {parent : Table}
    {pairs : List JoinPair} (h : target.table ≠ shape.name) :
    (child shape parent pairs).localEquivalent? target = some p ↔
      ∃ q, parent.localEquivalent? target = some q ∧
        (pairs.find? (·.parent == q)).map (·.child) = some p := by
  rw [localEquivalent?, if_neg h]
  cases parent.localEquivalent? target <;> simp

/-- The column that a table finds for one of its own is that column. -/
theorem Sound.localEquivalent?_own_eq_some_iff (hsound : table.Sound)
    (h : target.table = table.name) :
    table.localEquivalent? target = some p ↔
      target.position = p ∧ p < table.columns.length := by
  rw [localEquivalent?_of_name_eq h, Option.map_eq_some_iff]
  constructor
  · rintro ⟨column, hcolumn, rfl⟩
    rw [hsound.shape.numbered hcolumn]
    exact ⟨rfl, (List.getElem?_eq_some_iff.mp hcolumn).1⟩
  · rintro ⟨rfl, hp⟩
    have hcolumn := List.getElem?_eq_getElem hp
    exact ⟨_, hcolumn, hsound.shape.numbered hcolumn⟩

/-- A table finds its primary key where it is. -/
theorem Sound.mapM_localEquivalent?_primaryKey (hsound : table.Sound) :
    (table.primaryKey.map (ColumnRef.mk table.name)).mapM table.localEquivalent? =
      some table.primaryKey := by
  rw [mapM_eq_some_iff, List.forall₂_map_left_iff, List.forall₂_same]
  intro p hp
  exact (hsound.localEquivalent?_own_eq_some_iff rfl).mpr
    ⟨rfl, hsound.shape.primaryKey_lt p hp⟩

/-- A child finds the primary key of its parent in the columns that are joined to it. -/
theorem Sound.mem_pairs_of_localEquivalent? {shape : TableShape} {parent : Table}
    {pairs : List JoinPair} (hsound : parent.Sound) (hname : parent.name ≠ shape.name)
    (h : (Table.child shape parent pairs).localEquivalent? ⟨parent.name, p⟩ = some j) :
    JoinPair.mk j p ∈ pairs := by
  obtain ⟨q, hq, hpair⟩ := (localEquivalent?_child_eq_some_iff hname).mp h
  obtain ⟨rfl, -⟩ := (hsound.localEquivalent?_own_eq_some_iff rfl).mp hq
  obtain ⟨pair, hfound, rfl⟩ := Option.map_eq_some_iff.mp hpair
  have hparent : pair.parent = p := by
    simpa using List.find?_some hfound
  rw [← hparent]
  exact List.mem_of_find?_eq_some hfound

/-- The column that a table finds is a column of the table. -/
theorem Sound.lt_of_localEquivalent? (hsound : table.Sound)
    (h : table.localEquivalent? target = some p) : p < table.columns.length := by
  by_cases hname : target.table = table.name
  · exact ((hsound.localEquivalent?_own_eq_some_iff hname).mp h).2
  · cases hsound with
    | root hshape => cases (localEquivalent?_root_of_ne hname).symm.trans h
    | child hshape hparent hchild hperm =>
      obtain ⟨q, -, hpair⟩ := (localEquivalent?_child_eq_some_iff hname).mp h
      obtain ⟨pair, hfound, rfl⟩ := Option.map_eq_some_iff.mp hpair
      exact hchild pair (List.mem_of_find?_eq_some hfound)

/-! ### Chains of rows -/

/-- Rows of the tables of a lineage, each of its table's width, in which every row repeats in the
columns of its grouping join the row above. -/
def Chain (rows : TableName → List Value) : Table → Prop
  | .root shape => (rows shape.name).length = shape.columns.length
  | .child shape parent pairs =>
    parent.Chain rows ∧ (rows shape.name).length = shape.columns.length ∧
      ∀ pair ∈ pairs, (rows shape.name)[pair.child]? = (rows parent.name)[pair.parent]?

variable {rows : TableName → List Value}

instance decidableChain (rows : TableName → List Value) :
    (table : Table) → Decidable (table.Chain rows)
  | .root shape => inferInstanceAs (Decidable ((rows shape.name).length = shape.columns.length))
  | .child shape parent pairs =>
    have := decidableChain rows parent
    inferInstanceAs (Decidable (parent.Chain rows ∧
      (rows shape.name).length = shape.columns.length ∧
        ∀ pair ∈ pairs, (rows shape.name)[pair.child]? = (rows parent.name)[pair.parent]?))

theorem Chain.length (h : table.Chain rows) : (rows table.name).length = table.columns.length := by
  cases table with
  | root shape => exact h
  | child shape parent pairs => exact h.2.1

theorem Chain.of_mem_lineage (h : table.Chain rows) (hother : other ∈ table.lineage) :
    other.Chain rows := by
  induction table with
  | root shape =>
    obtain rfl := List.mem_singleton.mp hother
    exact h
  | child shape parent pairs ih =>
    rw [lineage, List.mem_append] at hother
    rcases hother with hother | hother
    · exact ih h.1 hother
    · obtain rfl := List.mem_singleton.mp hother
      exact h

/-- **Equivalent columns agree.**  Along a chain of rows, the column that a table finds for a column
of its lineage holds that column's value. -/
theorem Chain.getElem?_of_localEquivalent? (hchain : table.Chain rows) (hsound : table.Sound)
    (h : table.localEquivalent? target = some p) :
    (rows table.name)[p]? = (rows target.table)[target.position]? := by
  induction hsound generalizing p with
  | @root shape hshape =>
    by_cases hname : target.table = shape.name
    · obtain ⟨rfl, -⟩ := ((Sound.root hshape).localEquivalent?_own_eq_some_iff hname).mp h
      rw [hname]
      rfl
    · cases (localEquivalent?_root_of_ne hname).symm.trans h
  | @child shape parent pairs hshape hparent hchild hperm ih =>
    by_cases hname : target.table = shape.name
    · obtain ⟨rfl, -⟩ := ((Sound.child hshape hparent hchild hperm).localEquivalent?_own_eq_some_iff
        hname).mp h
      rw [hname]
      rfl
    · -- the parent holds the value in a column that the pair found repeats
      obtain ⟨q, hq, hpair⟩ := (localEquivalent?_child_eq_some_iff hname).mp h
      obtain ⟨pair, hfound, rfl⟩ := Option.map_eq_some_iff.mp hpair
      have hcolumn : pair.parent = q := by
        simpa using List.find?_some hfound
      rw [← ih hchain.1 hq, ← hcolumn]
      exact hchain.2.2 pair (List.mem_of_find?_eq_some hfound)

/-! ### A sample group -/

/-- Shops, numbered in their regions. -/
def shops : Table :=
  .root ⟨⟨"db", "shops"⟩,
    [⟨"region", 0, .int, false⟩, ⟨"number", 1, .int, false⟩, ⟨"owner", 2, .text, true⟩], [1, 0]⟩

theorem declared_shops : shops.Declared := by
  have hresolve : TableDeclaration.resolve
      ⟨⟨"db", "shops"⟩, [⟨"region", .int, false⟩, ⟨"number", .int, false⟩, ⟨"owner", .text, true⟩],
        ["number", "region"], none⟩ = .ok shops := rfl
  exact .resolved (by simp) hresolve

/-- Sales of a shop. -/
def sales : Table :=
  .child ⟨⟨"db", "sales"⟩,
    [⟨"id", 0, .int, false⟩, ⟨"amount", 1, .int, true⟩, ⟨"region", 2, .int, false⟩,
      ⟨"shop", 3, .int, false⟩], [2, 3, 0]⟩ shops [⟨2, 0⟩, ⟨3, 1⟩]

theorem declared_sales : sales.Declared := by
  have hresolve : TableDeclaration.resolve
      ⟨⟨"db", "sales"⟩,
        [⟨"id", .int, false⟩, ⟨"amount", .int, true⟩, ⟨"region", .int, false⟩,
          ⟨"shop", .int, false⟩], ["region", "shop", "id"],
        some ⟨shops, [("region", "region"), ("shop", "number")]⟩⟩ = .ok sales := rfl
  refine .resolved ?_ hresolve
  rintro grouping ⟨⟩
  exact declared_shops

/-- Lines of a sale. -/
def lines : Table :=
  .child ⟨⟨"db", "lines"⟩,
    [⟨"line", 0, .int, false⟩, ⟨"price", 1, .int, true⟩, ⟨"sale", 2, .int, false⟩,
      ⟨"shop", 3, .int, false⟩, ⟨"region", 4, .int, false⟩], [0, 2]⟩ sales
    [⟨2, 0⟩, ⟨3, 3⟩, ⟨4, 2⟩]

theorem declared_lines : lines.Declared := by
  have hresolve : TableDeclaration.resolve
      ⟨⟨"db", "lines"⟩,
        [⟨"line", .int, false⟩, ⟨"price", .int, true⟩, ⟨"sale", .int, false⟩,
          ⟨"shop", .int, false⟩, ⟨"region", .int, false⟩], ["line", "sale"],
        some ⟨sales, [("sale", "id"), ("shop", "shop"), ("region", "region")]⟩⟩ = .ok lines := rfl
  refine .resolved ?_ hresolve
  rintro grouping ⟨⟩
  exact declared_sales

end Table

end TableGroups
